import Nook.Secrets.FingerprintSeparation
import Nook.Secrets.NoteEnrichment

set_option autoImplicit false

namespace Nook.Secrets

open Nook.EventLog FingerprintText CanonicalSecretBytes

/-! ### Enriched values -/

/-- The note of a value, and whose sections may stand in it. -/
def SecretValue.providerNotes : SecretValue → Option ProviderNotes
  | .login item => some ⟨item.notes, .login⟩
  | .secureNote note => some ⟨note.note, .general⟩
  | .creditCard card => some ⟨card.notes, .general⟩
  | _ => none

/-- The note of a value holds the user's text and every section of another value's. -/
def KeepsNote (source result : SecretValue) : Prop :=
  ∀ notes ∈ source.providerNotes, ∀ kept ∈ result.providerNotes,
    NoteKept notes.policy (normalized notes.text) (normalized kept.text)

/-- Enriching keeps the fingerprints and both notes, and does nothing when it is done again. -/
structure EnrichesFaithfully (existing incoming : SecretValue) : Prop where
  identity : identity (existing.enrichedWith incoming) = identity existing
  version : version (existing.enrichedWith incoming) = version existing
  keepsExisting : KeepsNote existing (existing.enrichedWith incoming)
  keepsIncoming : KeepsNote incoming (existing.enrichedWith incoming)
  again : (existing.enrichedWith incoming).enrichedWith incoming = existing.enrichedWith incoming

/-- The notes of two values settle; cards, whose notes are not merged, already have the
sections of the incoming one. -/
def NotesSettle : SecretValue → SecretValue → Prop
  | .login existing, .login incoming =>
    Settles .login (normalized existing.notes) (normalized incoming.notes)
  | .secureNote existing, .secureNote incoming =>
    Settles .general (normalized existing.note) (normalized incoming.note)
  | .creditCard existing, .creditCard incoming =>
    ∀ part, IsSection .general (normalized incoming.notes) part →
      part <:+: normalized existing.notes
  | _, _ => True

section
variable {policy : ImportMetadataPolicy} {text incoming : Str}

/-- Notes that settle are merged for good. -/
theorem merge_settled (settles : Settles policy (normalized text) (normalized incoming)) :
    let merged := ProviderNotes.merge ⟨text, policy⟩ incoming
    NoteKept policy (normalized text) (normalized merged) ∧
      NoteKept policy (normalized incoming) (normalized merged) ∧
      ProviderNotes.merge ⟨merged, policy⟩ incoming = merged ∧
      (ProviderNotes.neutral ⟨text, policy⟩ = ProviderNotes.neutral ⟨incoming, policy⟩ →
        ProviderNotes.neutral ⟨merged, policy⟩ = ProviderNotes.neutral ⟨text, policy⟩) := by
  have merges := merges_merge policy text incoming
  have trimmed := merges.trimmed (trimmed_normalized text) (trimmed_normalized incoming)
  obtain ⟨unix, kept, kept', again, same⟩ := merges.settled settles (trimmed_normalized text)
    (trimmed_normalized incoming)
  have stays := normalized_of_unix trimmed unix
  have merges' := merges_merge policy (ProviderNotes.merge ⟨text, policy⟩ incoming) incoming
  rw [stays] at merges'
  dsimp only
  rw [stays]
  refine ⟨kept, kept', again _ merges', ?_⟩
  intro sameText
  rw [neutral_eq, neutral_eq, stays]
  exact same sameText

/-- A merge that keeps the incoming note and does nothing when it is done again is of notes
that settle. -/
theorem settles_of_merge
    (kept : NoteKept policy (normalized incoming)
      (normalized (ProviderNotes.merge ⟨text, policy⟩ incoming)))
    (again : ProviderNotes.merge ⟨ProviderNotes.merge ⟨text, policy⟩ incoming, policy⟩ incoming =
      ProviderNotes.merge ⟨text, policy⟩ incoming) :
    Settles policy (normalized text) (normalized incoming) := by
  have merges := merges_merge policy text incoming
  have trimmed := merges.trimmed (trimmed_normalized text) (trimmed_normalized incoming)
  have merges' := merges_merge policy (ProviderNotes.merge ⟨text, policy⟩ incoming) incoming
  rw [again] at merges'
  have unix := merges'.unix_of_fold trimmed trimmed.normalized_eq
  rw [normalized_of_unix trimmed unix] at kept
  exact merges.settles (trimmed_normalized text) (trimmed_normalized incoming) unix kept

end

/-- A value that is not changed keeps its own note. -/
theorem keepsNote_rfl (value : SecretValue) : KeepsNote value value := by
  intro notes member kept member'
  rw [Option.mem_def.mp member] at member'
  cases member'
  exact noteKept_of_infix List.infix_rfl

theorem keepsNote_of_kept {source result : SecretValue} {notes kept : ProviderNotes}
    (own : source.providerNotes = some notes) (own' : result.providerNotes = some kept)
    (keeps : NoteKept notes.policy (normalized notes.text) (normalized kept.text)) :
    KeepsNote source result := by
  intro other member other' member'
  rw [own] at member
  rw [own'] at member'
  cases member
  cases member'
  exact keeps

/-- What is not changed is faithful to a value without a note. -/
theorem faithful_of_unchanged {existing incoming : SecretValue}
    (unchanged : existing.enrichedWith incoming = existing)
    (noNote : incoming.providerNotes = none) : EnrichesFaithfully existing incoming where
  identity := by rw [unchanged]
  version := by rw [unchanged]
  keepsExisting := by
    rw [unchanged]
    exact keepsNote_rfl existing
  keepsIncoming := by
    intro notes member
    rw [noNote] at member
    cases member
  again := by rw [unchanged, unchanged]

theorem sameNote {left right : SecureNoteSecret}
    (same : version (.secureNote left) = version (.secureNote right)) :
    ProviderNotes.neutral ⟨left.note, .general⟩ = ProviderNotes.neutral ⟨right.note, .general⟩ := by
  rw [version_eq_iff, texts_eq_iff] at same
  exact (List.cons.inj same.2).1

theorem sameCardNotes {left right : CreditCardSecret}
    (same : version (.creditCard left) = version (.creditCard right)) :
    ProviderNotes.neutral ⟨left.notes, .general⟩ = ProviderNotes.neutral ⟨right.notes, .general⟩ := by
  rw [version_eq_iff, texts_eq_iff] at same
  have texts := congrArg List.getLast? same.2
  exact Option.some.inj texts

/-- Enriching a value by one of the same version is faithful exactly when their notes settle. -/
theorem enrichment_faithful_iff {existing incoming : SecretValue}
    (same : version existing = version incoming) :
    EnrichesFaithfully existing incoming ↔ NotesSettle existing incoming := by
  have kind := secretType_eq (version_eq_iff.mp same)
  cases existing with
  | login login =>
    cases incoming with
    | login other =>
      constructor
      · intro faithful
        have again := faithful.again
        have kept := faithful.keepsIncoming ⟨other.notes, .login⟩ rfl _ rfl
        exact settles_of_merge kept (LoginSecret.mk.inj (SecretValue.login.inj again)).2.2.2
      · intro settles
        obtain ⟨kept, kept', again, _⟩ := merge_settled settles
        refine ⟨rfl, rfl, keepsNote_of_kept rfl rfl kept, keepsNote_of_kept rfl rfl kept', ?_⟩
        exact congrArg (fun notes => SecretValue.login { login with notes }) again
    | _ => cases kind
  | secureNote note =>
    cases incoming with
    | secureNote other =>
      constructor
      · intro faithful
        have again := faithful.again
        have kept := faithful.keepsIncoming ⟨other.note, .general⟩ rfl _ rfl
        exact settles_of_merge kept (SecureNoteSecret.mk.inj (SecretValue.secureNote.inj again)).2
      · intro settles
        obtain ⟨kept, kept', again, sameText⟩ := merge_settled settles
        refine ⟨rfl, ?_, keepsNote_of_kept rfl rfl kept, keepsNote_of_kept rfl rfl kept', ?_⟩
        · rw [version_eq_iff, texts_eq_iff]
          exact ⟨rfl, congrArg (fun text => [text]) (sameText (sameNote same))⟩
        · exact congrArg (fun text => SecretValue.secureNote { note with note := text }) again
    | _ => cases kind
  | creditCard card =>
    cases incoming with
    | creditCard other =>
      have text := sameCardNotes same
      constructor
      · intro faithful
        exact (faithful.keepsIncoming ⟨other.notes, .general⟩ rfl ⟨card.notes, .general⟩ rfl).sections
      · intro sections
        refine ⟨rfl, rfl, keepsNote_rfl _, keepsNote_of_kept rfl rfl ⟨?_, sections⟩, rfl⟩
        rw [neutral_eq, neutral_eq] at text
        show userText .general (normalized other.notes) <:+: _
        rw [← text]
        exact userText_prefix.isInfix
    | _ => cases kind
  | _ =>
    cases incoming <;> first
      | (cases kind; done)
      | exact ⟨fun _ => trivial, fun _ => faithful_of_unchanged rfl rfl⟩

namespace TestSupport

def noteOf (note : Str) : SecretValue := .secureNote ⟨"Recovery".toList, note⟩

/-- A note with CR CR LF, as it was imported and as it is imported again. -/
def carriageNote : SecretValue := noteOf "a\r\r\nb".toList

def cardOf (notes : Str) : SecretValue := .creditCard {
  title := "Card".toList
  cardholderName := "Alice".toList
  number := "4111111111111111".toList
  expirationMonth := "01".toList
  expirationYear := "2030".toList
  cvv := "007".toList
  notes := notes }

/-- Importing a note with CR CR LF again changes its version, and a card loses the section
that its second import brings. -/
theorem enrichment_unfaithful :
    ¬EnrichesFaithfully carriageNote carriageNote ∧
    version (cardOf "note".toList) = version (cardOf "note\n\n## LastPass\n- group: Work".toList) ∧
    ¬EnrichesFaithfully (cardOf "note".toList)
      (cardOf "note\n\n## LastPass\n- group: Work".toList) := by
  refine ⟨?_, by decide +kernel, ?_⟩
  · intro faithful
    have same := faithful.version
    revert same
    decide +kernel
  · intro faithful
    have kept := faithful.keepsIncoming _ rfl _ rfl
    have inside : ['W', 'o'] <:+:
        importedMetadata .general (normalized "note\n\n## LastPass\n- group: Work".toList) := by
      decide +kernel
    obtain ⟨part, isSection, pair⟩ := exists_section_of_pair 'W' 'o' (by decide) inside
    have lost := pair.trans (kept.sections part isSection)
    revert lost
    decide +kernel

theorem enrichment_faithful_iff_twice :
    EnrichesFaithfully (noteOf "note".toList) (noteOf "note\n\n## LastPass\n- group: Work".toList) ↔
      NotesSettle (noteOf "note".toList) (noteOf "note\n\n## LastPass\n- group: Work".toList) :=
  enrichment_faithful_iff (by decide +kernel)

end TestSupport

end Nook.Secrets
