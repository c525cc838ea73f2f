import Nook.Auth.IdentityDirectory
import Nook.Auth.VaultMetaRows
import Nook.EventLog.Location

set_option autoImplicit false

namespace Nook.Auth

open Nook.Lib Nook.EventLog

/-! ### The pending rotation of one vault -/

inductive PendingIdentityReconciliationProgress where
  | prepared (planEnvelope : AgeArmoredCiphertext)
  | epochCommitted (keyEpoch : IdentityVaultEventId) (planEnvelope : AgeArmoredCiphertext)
  | committed (keyEpoch checkpoint : IdentityVaultEventId)
  deriving DecidableEq

structure PendingIdentityReconciliation where
  storeId : StoreId
  previousKeyEpoch : IdentityVaultEventId
  previousCheckpoint : IdentityVaultEventId
  progress : PendingIdentityReconciliationProgress
  deriving DecidableEq

/-- The errors of marker and directory. The decoder's own text is not modelled. -/
inductive ReconciliationError where
  | indexedDb (message : String)
  | markerDecode
  | directoryDecode
  | database (cause : MultiDeviceError)
  | importedIdentityDisappeared

abbrev ReconciliationResult (α : Type) := Except ReconciliationError α

inductive ReconciliationUpdate where
  | epoch (keyEpoch : IdentityVaultEventId)
  | checkpoint (keyEpoch checkpoint : IdentityVaultEventId)

namespace ReconciliationUpdate

def epochChanged : ReconciliationError :=
  .indexedDb "Identity reconciliation epoch changed unexpectedly."

def checkpointChanged : ReconciliationError :=
  .indexedDb "Identity reconciliation checkpoint changed unexpectedly."

/-- The progress after an update. -/
def applyProgress : ReconciliationUpdate → PendingIdentityReconciliationProgress →
    ReconciliationResult PendingIdentityReconciliationProgress
  | epoch expected, .prepared planEnvelope => .ok (.epochCommitted expected planEnvelope)
  | epoch expected, .epochCommitted keyEpoch planEnvelope =>
    if keyEpoch = expected then .ok (.epochCommitted keyEpoch planEnvelope)
    else .error epochChanged
  | epoch _, .committed _ _ => .error epochChanged
  | checkpoint expected committed, .epochCommitted keyEpoch _ =>
    if keyEpoch = expected then .ok (.committed keyEpoch committed) else .error checkpointChanged
  | checkpoint expected committed, .committed keyEpoch stored =>
    if keyEpoch = expected ∧ stored = committed then .ok (.committed keyEpoch stored)
    else .error checkpointChanged
  | checkpoint _ _, .prepared _ => .error checkpointChanged

def apply (update : ReconciliationUpdate) (pending : PendingIdentityReconciliation) :
    ReconciliationResult PendingIdentityReconciliation := do
  return { pending with progress := ← update.applyProgress pending.progress }

end ReconciliationUpdate

/-! ### What an update does to the progress -/

namespace PendingIdentityReconciliationProgress

/-- The progress moves on only, and keeps the epoch and the checkpoint once they are set. -/
inductive Advances : PendingIdentityReconciliationProgress →
    PendingIdentityReconciliationProgress → Prop where
  | same (progress : PendingIdentityReconciliationProgress) : Advances progress progress
  | toEpoch (planEnvelope : AgeArmoredCiphertext) (keyEpoch : IdentityVaultEventId) :
      Advances (.prepared planEnvelope) (.epochCommitted keyEpoch planEnvelope)
  | toCommitted (keyEpoch checkpoint : IdentityVaultEventId)
      (planEnvelope : AgeArmoredCiphertext) :
      Advances (.epochCommitted keyEpoch planEnvelope) (.committed keyEpoch checkpoint)
  | throughEpoch (planEnvelope : AgeArmoredCiphertext)
      (keyEpoch checkpoint : IdentityVaultEventId) :
      Advances (.prepared planEnvelope) (.committed keyEpoch checkpoint)

theorem Advances.trans {first second third : PendingIdentityReconciliationProgress}
    (before : Advances first second) (after : Advances second third) : Advances first third := by
  cases before with
  | same => exact after
  | toEpoch planEnvelope keyEpoch =>
    cases after with
    | same => exact .toEpoch planEnvelope keyEpoch
    | toCommitted _ checkpoint => exact .throughEpoch planEnvelope keyEpoch checkpoint
  | toCommitted keyEpoch checkpoint planEnvelope =>
    cases after with
    | same => exact .toCommitted keyEpoch checkpoint planEnvelope
  | throughEpoch planEnvelope keyEpoch checkpoint =>
    cases after with
    | same => exact .throughEpoch planEnvelope keyEpoch checkpoint

end PendingIdentityReconciliationProgress

namespace ReconciliationUpdate

variable {update : ReconciliationUpdate} {pending next : PendingIdentityReconciliation}

theorem advances_applyProgress {progress after : PendingIdentityReconciliationProgress}
    (applied : update.applyProgress progress = .ok after) : progress.Advances after := by
  cases update with
  | epoch expected =>
    cases progress with
    | prepared planEnvelope =>
      cases applied
      exact .toEpoch planEnvelope expected
    | epochCommitted keyEpoch planEnvelope =>
      simp only [applyProgress] at applied
      split at applied
      · cases applied
        exact .same _
      · cases applied
    | committed keyEpoch checkpoint => cases applied
  | checkpoint expected committed =>
    cases progress with
    | prepared planEnvelope => cases applied
    | epochCommitted keyEpoch planEnvelope =>
      simp only [applyProgress] at applied
      split at applied
      · cases applied
        exact .toCommitted keyEpoch committed planEnvelope
      · cases applied
    | committed keyEpoch checkpoint =>
      simp only [applyProgress] at applied
      split at applied
      · cases applied
        exact .same _
      · cases applied

theorem apply_eq_ok : update.apply pending = .ok next ↔ ∃ progress,
    update.applyProgress pending.progress = .ok progress ∧ next = { pending with progress } := by
  unfold apply
  constructor
  · intro applied
    obtain ⟨progress, moved, same⟩ := bind_eq_ok.mp applied
    cases same
    exact ⟨progress, moved, rfl⟩
  · rintro ⟨progress, moved, rfl⟩
    exact bind_eq_ok.mpr ⟨progress, moved, rfl⟩

end ReconciliationUpdate

/-! ### The marker's text -/

/-- An event reference as it is deserialised. -/
def IdentityVaultEventId.parse? (raw : Str) : Option IdentityVaultEventId :=
  let value := trim raw
  match stripPrefix value "sha256u:".toList with
  | some digest =>
    if utf8Len digest = 43 ∧ digest.all isUrlSafe = true then some ⟨value⟩ else none
  | none => none

def eventIdField (json : Option Json) : Option IdentityVaultEventId := do
  IdentityVaultEventId.parse? (← textField json)

def storeIdField (json : Option Json) : Option StoreId := do
  (StoreId.parse (← textField json)).toOption

/-- The kind of a value of an enumeration tagged inside, and its other fields. -/
def kindOf : Json → Option (Str × Json)
  | .object fields =>
    match Json.fieldValue fields "kind" with
    | some (some (.text kind)) => some (kind, .object (fields.filter (·.1 ≠ "kind")))
    | _ => none
  | .array (.text kind :: items) => some (kind, .array items)
  | _ => none

namespace PendingIdentityReconciliationProgress

def toJson : PendingIdentityReconciliationProgress → Json
  | prepared planEnvelope => Json.struct
      [("kind", some (.text "prepared".toList)),
        ("plan_envelope", some (.text planEnvelope.asStr))]
  | epochCommitted keyEpoch planEnvelope => Json.struct
      [("kind", some (.text "epoch-committed".toList)),
        ("key_epoch", some (.text keyEpoch.asStr)),
        ("plan_envelope", some (.text planEnvelope.asStr))]
  | committed keyEpoch checkpoint => Json.struct
      [("kind", some (.text "committed".toList)), ("key_epoch", some (.text keyEpoch.asStr)),
        ("checkpoint", some (.text checkpoint.asStr))]

/-- The fields of one variant. -/
def ofFields (kind : Str) (rest : Json) : Option PendingIdentityReconciliationProgress :=
  if kind = "prepared".toList then
    match rest.fieldValues ["plan_envelope"] with
    | some [planEnvelope] => do return prepared (← armoredField planEnvelope)
    | _ => none
  else if kind = "epoch-committed".toList then
    match rest.fieldValues ["key_epoch", "plan_envelope"] with
    | some [keyEpoch, planEnvelope] => do
      return epochCommitted (← eventIdField keyEpoch) (← armoredField planEnvelope)
    | _ => none
  else if kind = "committed".toList then
    match rest.fieldValues ["key_epoch", "checkpoint"] with
    | some [keyEpoch, checkpoint] => do
      return committed (← eventIdField keyEpoch) (← eventIdField checkpoint)
    | _ => none
  else none

def ofJson (json : Json) : Option PendingIdentityReconciliationProgress := do
  let (kind, rest) ← kindOf json
  ofFields kind rest

end PendingIdentityReconciliationProgress

namespace PendingIdentityReconciliation

def fields : List String := ["storeId", "previousKeyEpoch", "previousCheckpoint", "progress"]

def toJson (pending : PendingIdentityReconciliation) : Json := Json.struct
  [("storeId", some (.text pending.storeId.asStr)),
    ("previousKeyEpoch", some (.text pending.previousKeyEpoch.asStr)),
    ("previousCheckpoint", some (.text pending.previousCheckpoint.asStr)),
    ("progress", some pending.progress.toJson)]

def ofJson (json : Json) : Option PendingIdentityReconciliation :=
  match json.fieldValues fields with
  | some [storeId, previousKeyEpoch, previousCheckpoint, progress] => do
    return ⟨← storeIdField storeId, ← eventIdField previousKeyEpoch,
      ← eventIdField previousCheckpoint, ← progress.bind PendingIdentityReconciliationProgress.ofJson⟩
  | _ => none

variable [JsonText]

def decode (raw : Str) : ReconciliationResult PendingIdentityReconciliation :=
  match (JsonText.parse raw).bind ofJson with
  | some pending => .ok pending
  | none => .error .markerDecode

def encode (pending : PendingIdentityReconciliation) : Str := JsonText.print pending.toJson

end PendingIdentityReconciliation

/-! ### What is decoded is what was encoded -/

theorem IdentityVaultEventId.parse?_asStr {raw : Str} {id : IdentityVaultEventId}
    (parsed : parse? raw = some id) : parse? id.asStr = some id := by
  have same : id.asStr = trim raw := by
    unfold parse? at parsed
    simp only at parsed
    split at parsed
    · split at parsed
      · cases parsed
        rfl
      · cases parsed
    · cases parsed
  unfold parse? at parsed ⊢
  simp only [same, trim_trim] at parsed ⊢
  exact parsed

/-- An event reference as its type promises it. -/
def IdentityVaultEventId.IsParsed (id : IdentityVaultEventId) : Prop := parse? id.asStr = some id

instance (id : IdentityVaultEventId) : Decidable id.IsParsed :=
  inferInstanceAs (Decidable (_ = _))

theorem eventIdField_text {id : IdentityVaultEventId} (parsed : id.IsParsed) :
    eventIdField (some (.text id.asStr)) = some id := parsed

theorem isParsed_of_eventIdField {json : Option Json} {id : IdentityVaultEventId}
    (read : eventIdField json = some id) : id.IsParsed := by
  obtain ⟨raw, _, parsed⟩ := Option.bind_eq_some_iff.mp read
  exact IdentityVaultEventId.parse?_asStr parsed

/-- A plan envelope as its type promises it. -/
def IsArmored (envelope : AgeArmoredCiphertext) : Prop :=
  armoredField (some (.text envelope.asStr)) = some envelope

instance (envelope : AgeArmoredCiphertext) : Decidable (IsArmored envelope) :=
  inferInstanceAs (Decidable (_ = _))

namespace PendingIdentityReconciliationProgress

/-- The values of a progress are as their types promise them. -/
def Sound : PendingIdentityReconciliationProgress → Prop
  | prepared planEnvelope => IsArmored planEnvelope
  | epochCommitted keyEpoch planEnvelope => keyEpoch.IsParsed ∧ IsArmored planEnvelope
  | committed keyEpoch checkpoint => keyEpoch.IsParsed ∧ checkpoint.IsParsed

/-- An object of two fields besides its tag is taken apart into the tag and the rest. -/
theorem kindOf_struct (kind : Str) (first second : String) (firstValue secondValue : Json)
    (other : first ≠ "kind") (other' : second ≠ "kind") :
    kindOf (Json.struct [("kind", some (.text kind)), (first, some firstValue),
      (second, some secondValue)]) =
        some (kind, .object [(first, firstValue), (second, secondValue)]) := by
  simp [kindOf, Json.struct, Json.fieldValue, other, other']

theorem ofJson_toJson {progress : PendingIdentityReconciliationProgress} (sound : progress.Sound) :
    ofJson progress.toJson = some progress := by
  cases progress with
  | prepared planEnvelope =>
    have read : armoredField (some (.text planEnvelope.asStr)) = some planEnvelope := sound
    have tagged : kindOf (Json.struct [("kind", some (.text "prepared".toList)),
        ("plan_envelope", some (.text planEnvelope.asStr))]) =
          some ("prepared".toList, .object [("plan_envelope", .text planEnvelope.asStr)]) := by
      simp [kindOf, Json.struct, Json.fieldValue]
    have found : Json.fieldValues ["plan_envelope"]
        (.object [("plan_envelope", .text planEnvelope.asStr)]) =
          some [some (.text planEnvelope.asStr)] := by
      simp [Json.fieldValues, Json.fieldValue]
    unfold ofJson toJson
    rw [tagged, Option.bind_eq_bind, Option.bind_some]
    dsimp only
    unfold ofFields
    rw [if_pos rfl, found]
    dsimp only
    rw [read]
    rfl
  | epochCommitted keyEpoch planEnvelope =>
    have epoch := eventIdField_text sound.1
    have read : armoredField (some (.text planEnvelope.asStr)) = some planEnvelope := sound.2
    have tagged := kindOf_struct "epoch-committed".toList "key_epoch" "plan_envelope"
      (.text keyEpoch.asStr) (.text planEnvelope.asStr) (by decide) (by decide)
    have found : Json.fieldValues ["key_epoch", "plan_envelope"] (.object
        [("key_epoch", .text keyEpoch.asStr), ("plan_envelope", .text planEnvelope.asStr)]) =
          some [some (.text keyEpoch.asStr), some (.text planEnvelope.asStr)] := by
      simp [Json.fieldValues, Json.fieldValue]
    have own : ¬ "epoch-committed".toList = "prepared".toList := by decide
    unfold ofJson toJson
    rw [tagged, Option.bind_eq_bind, Option.bind_some]
    dsimp only
    unfold ofFields
    rw [if_neg own, if_pos rfl, found]
    dsimp only
    rw [epoch, read]
    rfl
  | committed keyEpoch checkpoint =>
    have epoch := eventIdField_text sound.1
    have read := eventIdField_text sound.2
    have tagged := kindOf_struct "committed".toList "key_epoch" "checkpoint"
      (.text keyEpoch.asStr) (.text checkpoint.asStr) (by decide) (by decide)
    have found : Json.fieldValues ["key_epoch", "checkpoint"] (.object
        [("key_epoch", .text keyEpoch.asStr), ("checkpoint", .text checkpoint.asStr)]) =
          some [some (.text keyEpoch.asStr), some (.text checkpoint.asStr)] := by
      simp [Json.fieldValues, Json.fieldValue]
    have own : ¬ "committed".toList = "prepared".toList := by decide
    have own' : ¬ "committed".toList = "epoch-committed".toList := by decide
    unfold ofJson toJson
    rw [tagged, Option.bind_eq_bind, Option.bind_some]
    dsimp only
    unfold ofFields
    rw [if_neg own, if_neg own', if_pos rfl, found]
    dsimp only
    rw [epoch, read]
    rfl

theorem sound_of_ofJson {json : Json} {progress : PendingIdentityReconciliationProgress}
    (read : ofJson json = some progress) : progress.Sound := by
  obtain ⟨⟨kind, rest⟩, _, read⟩ := Option.bind_eq_some_iff.mp read
  simp only [ofFields] at read
  split at read
  · split at read
    · obtain ⟨planEnvelope, plan, read⟩ := Option.bind_eq_some_iff.mp read
      cases read
      exact armoredField_text plan
    · cases read
  · split at read
    · split at read
      · obtain ⟨keyEpoch, epoch, read⟩ := Option.bind_eq_some_iff.mp read
        obtain ⟨planEnvelope, plan, read⟩ := Option.bind_eq_some_iff.mp read
        cases read
        exact ⟨isParsed_of_eventIdField epoch, armoredField_text plan⟩
      · cases read
    · split at read
      · split at read
        · obtain ⟨keyEpoch, epoch, read⟩ := Option.bind_eq_some_iff.mp read
          obtain ⟨checkpoint, committed, read⟩ := Option.bind_eq_some_iff.mp read
          cases read
          exact ⟨isParsed_of_eventIdField epoch, isParsed_of_eventIdField committed⟩
        · cases read
      · cases read

end PendingIdentityReconciliationProgress

namespace PendingIdentityReconciliation

/-- The values of a marker are as their types promise them. -/
structure Sound (pending : PendingIdentityReconciliation) : Prop where
  storeId : StoreId.parse pending.storeId.asStr = .ok pending.storeId
  previousKeyEpoch : pending.previousKeyEpoch.IsParsed
  previousCheckpoint : pending.previousCheckpoint.IsParsed
  progress : pending.progress.Sound

theorem ofJson_toJson {pending : PendingIdentityReconciliation} (sound : pending.Sound) :
    ofJson pending.toJson = some pending := by
  have store : storeIdField (some (.text pending.storeId.asStr)) = some pending.storeId := by
    simp [storeIdField, textField, sound.storeId, Except.toOption]
  unfold ofJson toJson
  rw [Json.fieldValues_struct (by simp)]
  simp [fields, List.lookup, store, eventIdField_text sound.previousKeyEpoch,
    eventIdField_text sound.previousCheckpoint,
    PendingIdentityReconciliationProgress.ofJson_toJson sound.progress]

theorem sound_of_ofJson {json : Json} {pending : PendingIdentityReconciliation}
    (read : ofJson json = some pending) : pending.Sound := by
  unfold ofJson at read
  split at read
  · obtain ⟨storeId, store, read⟩ := Option.bind_eq_some_iff.mp read
    obtain ⟨previousKeyEpoch, epoch, read⟩ := Option.bind_eq_some_iff.mp read
    obtain ⟨previousCheckpoint, checkpoint, read⟩ := Option.bind_eq_some_iff.mp read
    obtain ⟨progress, moved, read⟩ := Option.bind_eq_some_iff.mp read
    obtain ⟨value, _, moved⟩ := Option.bind_eq_some_iff.mp moved
    obtain ⟨raw, _, parsed⟩ := Option.bind_eq_some_iff.mp store
    cases read
    exact ⟨StoreId.parse_asStr (toOption_eq_some.mp parsed), isParsed_of_eventIdField epoch,
      isParsed_of_eventIdField checkpoint,
      PendingIdentityReconciliationProgress.sound_of_ofJson moved⟩
  · cases read

variable [JsonText] {raw : Str} {pending : PendingIdentityReconciliation}

theorem decode_encode (sound : pending.Sound) (readsBack : pending.toJson.ReadsBack) :
    decode pending.encode = .ok pending := by
  unfold decode encode
  rw [readsBack.parse_print, Option.bind_some, ofJson_toJson sound]

theorem sound_of_decode (read : decode raw = .ok pending) : pending.Sound := by
  unfold decode at read
  split at read
  · rename_i found
    cases read
    obtain ⟨json, _, built⟩ := Option.bind_eq_some_iff.mp found
    exact sound_of_ofJson built
  · cases read

end PendingIdentityReconciliation

end Nook.Auth
