import Nook.EventDb.StoredLog
import Nook.EventLog.CleanStore

set_option autoImplicit false

namespace Nook.EventDb

open Nook.Lib Nook.Replication Nook.EventLog

variable [External]

/-- The text of a digest is an event id: the base64url form of 32 bytes has 43 letters. -/
def DigestText : Prop :=
  ∀ body : CanonicalEventBodyBytes,
    EventId.parse (EventId.fromBodyBytes body).asStr = .ok (EventId.fromBodyBytes body)

omit [External] in
theorem textBytes_of_fromUTF8 {bytes : EventStorageBytes} {value : String}
    (decoded : String.fromUTF8? ⟨bytes.toArray⟩ = some value) : textBytes value = bytes := by
  unfold String.fromUTF8? at decoded
  split at decoded
  · cases decoded
    rfl
  · cases decoded

theorem parse_of_id (digests : DigestText) {event : VaultEvent} {id : EventId}
    (named : event.id = .ok id) : EventId.parse id.asStr = .ok id := by
  obtain ⟨body, _, same⟩ := bind_eq_ok.mp named
  cases same
  exact digests body

/-! ### The local store of a transaction -/

namespace TransactionEvents

variable {transaction next : TransactionEvents}

/-- The ids listed are those with a row, and each is the text of an event id. -/
structure Consistent (transaction : TransactionEvents) : Prop where
  listed : ∀ rawId, rawId ∈ transaction.ids ↔ rawId ∈ transaction.events
  named : ∀ rawId ∈ transaction.ids, ∃ id : EventId, EventId.parse rawId = .ok id ∧ id.asStr = rawId

theorem row_loadRow {rawId : Str} {own : EventId} (parsed : EventId.parse rawId = .ok own)
    (store : LocalEventStore) (id : EventId) :
    (transaction.loadRow store rawId).row id =
      (store.row id).or (if own = id then (transaction.events[rawId]?).map textBytes else none) := by
  unfold loadRow
  cases stored : transaction.events[rawId]? with
  | none => simp
  | some value =>
    rw [parsed]
    exact store.replica.events_putEvent own (textBytes value) id

/-- Rows that are loaded over others leave the others as they are. -/
theorem row_foldl_loadRow (rawIds : List Str)
    (named : ∀ rawId ∈ rawIds, ∃ id : EventId, EventId.parse rawId = .ok id ∧ id.asStr = rawId)
    (store : LocalEventStore) (id : EventId) :
    (rawIds.foldl transaction.loadRow store).row id =
      (store.row id).or (if id.asStr ∈ rawIds then (transaction.events[id.asStr]?).map textBytes
        else none) := by
  induction rawIds generalizing store with
  | nil => simp
  | cons head tail ih =>
    obtain ⟨own, parsed, same⟩ := named head (by simp)
    rw [List.foldl_cons, ih (fun rawId inside => named rawId (by simp [inside])),
      row_loadRow parsed, Option.or_assoc]
    congr 1
    by_cases itself : own = id
    · subst itself
      rw [if_pos rfl, same, if_pos (List.mem_cons_self)]
      by_cases again : head ∈ tail
      · simp [again]
      · simp [again]
    · have apart : id.asStr ≠ head := by
        intro equal
        exact itself (Text.asStr_injective (same.trans equal.symm))
      simp [itself, apart]

/-- The stored rows with supplied copies in place of those under their ids; the last one counts. -/
def withCopies (transaction : TransactionEvents) (entries : List EventBytes) : LocalEventStore :=
  transaction.ids.foldl transaction.loadRow
    (entries.foldr (fun entry store => store.putEvent entry.eventId entry.bytes) .new)

/-- The bytes that a list of entries supplies for an id. -/
def supplied : List EventBytes → EventId → Option EventStorageBytes
  | [], _ => none
  | entry :: entries, id =>
    (supplied entries id).or (if entry.eventId = id then some entry.bytes else none)

omit [External] in
theorem row_copies (entries : List EventBytes) (id : EventId) :
    (entries.foldr (fun entry store => store.putEvent entry.eventId entry.bytes)
      LocalEventStore.new).row id = supplied entries id := by
  induction entries with
  | nil => rfl
  | cons head tail ih =>
    rw [List.foldr_cons, supplied, ← ih]
    exact ReplicaStore.events_putEvent _ head.eventId head.bytes id

namespace Consistent

variable (consistent : transaction.Consistent)
include consistent

theorem row_withCopies (entries : List EventBytes) (id : EventId) :
    (transaction.withCopies entries).row id =
      (supplied entries id).or ((transaction.events[id.asStr]?).map textBytes) := by
  unfold withCopies
  rw [row_foldl_loadRow transaction.ids consistent.named, row_copies]
  by_cases listed : id.asStr ∈ transaction.ids
  · rw [if_pos listed]
  · rw [if_neg listed]
    rw [consistent.listed, BTreeMap.not_mem_iff_getElem?] at listed
    rw [listed, Option.map_none]

theorem row_localStore (id : EventId) :
    transaction.localStore.row id = (transaction.events[id.asStr]?).map textBytes := by
  refine (consistent.row_withCopies [] id).trans ?_
  rw [supplied, Option.none_or]

theorem row_eq_none (id : EventId) :
    transaction.localStore.row id = none ↔ id.asStr ∉ transaction.ids := by
  rw [consistent.row_localStore, consistent.listed, BTreeMap.not_mem_iff_getElem?]
  simp

/-- Rows of a rearranged index. -/
theorem of_ids {ids : List Str} (same : ∀ rawId, rawId ∈ ids ↔ rawId ∈ transaction.ids) :
    Consistent ⟨transaction.events, ids⟩ where
  listed rawId := (same rawId).trans (consistent.listed rawId)
  named rawId inside := consistent.named rawId ((same rawId).mp inside)

end Consistent

/-! ### Putting rows -/

omit [External] in
theorem put_ok {entry : EventBytes} (done : transaction.put entry = .ok next) :
    ∃ value, textBytes value = entry.bytes ∧
      next.events = transaction.events.insert entry.eventId.asStr value ∧
      ∀ rawId, rawId ∈ next.ids ↔ rawId = entry.eventId.asStr ∨ rawId ∈ transaction.ids := by
  unfold put at done
  split at done
  · cases done
  · rename_i value decoded
    cases done
    refine ⟨value, textBytes_of_fromUTF8 decoded, rfl, ?_⟩
    intro rawId
    dsimp only
    by_cases listed : transaction.ids.contains entry.eventId.asStr = true
    · rw [if_pos listed]
      refine ⟨Or.inr, ?_⟩
      rintro (rfl | before)
      · exact List.contains_iff_mem.mp listed
      · exact before
    · rw [if_neg listed, List.mem_append, List.mem_singleton, or_comm]

theorem Consistent.put (consistent : transaction.Consistent) {entry : EventBytes}
    (parsed : EventId.parse entry.eventId.asStr = .ok entry.eventId)
    (done : transaction.put entry = .ok next) : next.Consistent := by
  obtain ⟨value, _, events, ids⟩ := put_ok done
  constructor
  · intro rawId
    rw [ids, consistent.listed, events, BTreeMap.mem_iff_getElem?, BTreeMap.mem_iff_getElem?,
      BTreeMap.getElem?_insert_eq]
    by_cases itself : entry.eventId.asStr = rawId
    · simp [itself]
    · simp [itself, Ne.symm itself]
  · intro rawId inside
    rcases (ids rawId).mp inside with itself | before
    · exact ⟨entry.eventId, itself ▸ parsed, itself.symm⟩
    · exact consistent.named rawId before

theorem Consistent.row_put (consistent : transaction.Consistent) {entry : EventBytes}
    (parsed : EventId.parse entry.eventId.asStr = .ok entry.eventId)
    (done : transaction.put entry = .ok next) (id : EventId) :
    next.localStore.row id =
      if entry.eventId = id then some entry.bytes else transaction.localStore.row id := by
  rw [(consistent.put parsed done).row_localStore, consistent.row_localStore]
  obtain ⟨value, bytes, events, _⟩ := put_ok done
  rw [events, BTreeMap.getElem?_insert_eq]
  by_cases itself : entry.eventId = id
  · rw [if_pos (congrArg Text.asStr itself), if_pos itself, Option.map_some, bytes]
  · rw [if_neg fun same => itself (Text.asStr_injective same), if_neg itself]

/-- Putting entries leaves the rows that the supplied copies make. -/
theorem Consistent.putAll (consistent : transaction.Consistent) {entries : List EventBytes}
    (parsed : ∀ entry ∈ entries, EventId.parse entry.eventId.asStr = .ok entry.eventId)
    (done : entries.foldlM TransactionEvents.put transaction = .ok next) :
    next.Consistent ∧
      ∀ id, next.localStore.row id = (supplied entries id).or (transaction.localStore.row id) := by
  induction entries generalizing transaction with
  | nil =>
    cases done
    exact ⟨consistent, fun id => by rw [supplied, Option.none_or]⟩
  | cons head tail ih =>
    obtain ⟨middle, first, rest⟩ := bind_eq_ok.mp done
    have headParsed := parsed head (by simp)
    obtain ⟨nextConsistent, rows⟩ := ih (consistent.put headParsed first)
      (fun entry inside => parsed entry (by simp [inside])) rest
    refine ⟨nextConsistent, fun id => ?_⟩
    rw [rows, consistent.row_put headParsed first, supplied, Option.or_assoc]
    by_cases itself : head.eventId = id
    · simp [itself]
    · simp [itself]

/-! ### Rows that a union writes and deletes -/

omit [External] in
/-- A union writes the rows of the accepted ids that were not listed. -/
theorem putAdmitted_foldlM (store : LocalEventStore) (ids : List EventId)
    {events written : BTreeMap Str String}
    (done : ids.foldlM (transaction.putAdmitted store) events = .ok written) :
    (∀ id ∈ ids, id.asStr ∉ transaction.ids →
      (written[id.asStr]?).map textBytes = store.row id) ∧
    ∀ rawId, (∀ id ∈ ids, id.asStr = rawId → rawId ∈ transaction.ids) →
      written[rawId]? = events[rawId]? := by
  induction ids generalizing events with
  | nil =>
    cases done
    exact ⟨by simp, fun _ _ => rfl⟩
  | cons head tail ih =>
    obtain ⟨middle, first, rest⟩ := bind_eq_ok.mp done
    obtain ⟨wrote, kept⟩ := ih rest
    unfold putAdmitted at first
    by_cases listed : transaction.ids.contains head.asStr = true
    · rw [if_pos listed] at first
      cases first
      constructor
      · intro id member unlisted
        rcases List.mem_cons.mp member with itself | later
        · exact absurd (List.contains_iff_mem.mp listed) (itself ▸ unlisted)
        · exact wrote id later unlisted
      · exact fun rawId skips => kept rawId fun id later => skips id (by simp [later])
    · rw [if_neg listed] at first
      rw [List.contains_iff_mem] at listed
      split at first
      · cases first
      · rename_i bytes held
        split at first
        · cases first
        · rename_i value decoded
          cases first
          have row : store.row head = some bytes := by
            unfold LocalEventStore.getBytes ReplicaStore.getBytes at held
            unfold LocalEventStore.row
            cases found : store.replica.events[head]? with
            | none => simp [found] at held
            | some own => simpa [found] using held
          constructor
          · intro id member unlisted
            by_cases again : id ∈ tail
            · exact wrote id again unlisted
            · have itself : id = head := (List.mem_cons.mp member).resolve_right again
              subst itself
              rw [kept id.asStr (fun other later same =>
                absurd (Text.asStr_injective same ▸ later) again), BTreeMap.getElem?_insert_eq,
                if_pos rfl, Option.map_some, textBytes_of_fromUTF8 decoded, row]
          · intro rawId skips
            rw [kept rawId fun id later => skips id (by simp [later]),
              BTreeMap.getElem?_insert_eq, if_neg]
            intro itself
            exact listed (itself ▸ skips head (by simp) itself)

end TransactionEvents

end Nook.EventDb
