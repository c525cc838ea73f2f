import Nook.EventLog.LocalEventStore
import Nook.EventLog.QuarantineTurns
import Nook.IdentityControl.GraphInvariant

set_option autoImplicit false

namespace Nook.IdentityControl

open Nook.Lib Nook.Replication Nook.EventLog

/-- The third-party YAML reader of a stored identity event, and the text of a
UTF-8 decoding error. -/
class IdentityStorage where
  yamlFromStr : Str → Except String IdentityEvent
  utf8Error : Bytes → String

variable [IdentityExternal] [IdentityStorage]

def IdentityEvent.parseStorageBytes (bytes : EventStorageBytes) : EventResult IdentityEvent :=
  match String.fromUTF8? ⟨bytes.toArray⟩ with
  | none => .error (.parseStoredEvent
      ("identity event bytes are not UTF-8: " ++ IdentityStorage.utf8Error bytes))
  | some text =>
    (IdentityStorage.yamlFromStr text.toList).mapError fun cause =>
      .parseStoredEvent ("YAML parse failed: " ++ cause)

namespace IdentityControlLog

/-- Union stored or remote event bytes into the log. -/
def unionStorageBytes (log : IdentityControlLog) :
    List EventStorageBytes → Except IdentityControlRejection IdentityControlLog
  | [] => .ok log
  | bytes :: batch =>
    match IdentityEvent.parseStorageBytes bytes with
    | .error cause => .error ⟨log, cause⟩
    | .ok event => do
      let insertion ← log.insert event
      insertion.log.unionStorageBytes batch

variable {log next reached : IdentityControlLog} {bytes : EventStorageBytes}
  {batch before after : List EventStorageBytes}

/-- Stored bytes of a valid event that the log records. -/
def Holds (log : IdentityControlLog) (bytes : EventStorageBytes) : Prop :=
  ∃ event id, IdentityEvent.parseStorageBytes bytes = .ok event ∧
    event.validateEnvelope log.identityId = .ok id ∧ id ∈ log.events

/-- Stored bytes of a valid event that the log records, or that is no second genesis. -/
def Takes (log : IdentityControlLog) (bytes : EventStorageBytes) : Prop :=
  ∃ event id, IdentityEvent.parseStorageBytes bytes = .ok event ∧
    event.validateEnvelope log.identityId = .ok id ∧
    (id ∈ log.events ∨ event.body.isGenesis = false ∨ log.genesisId = none)

/-- No element of the batch is refused once an element before it was news to the log. -/
def SettledBeforeNews (log : IdentityControlLog) (batch : List EventStorageBytes) : Prop :=
  ∀ before bytes after, batch = before ++ bytes :: after →
    ∀ reached, log.unionStorageBytes before = .ok reached →
      (∃ stored ∈ before, ¬log.Holds stored) → reached.Takes bytes

omit [IdentityStorage] in
/-- A refused insertion hands back the log it was made on. -/
theorem insert_error {event : IdentityEvent} {rejection : IdentityControlRejection}
    (refused : log.insert event = .error rejection) : rejection.log = log := by
  unfold insert at refused
  split at refused
  · cases refused
    rfl
  split at refused
  · cases refused
  split at refused
  · cases refused
    rfl
  · cases refused

omit [IdentityStorage] in
theorem insert_ok_iff (log : IdentityControlLog) (event : IdentityEvent) :
    (∃ insertion, log.insert event = .ok insertion) ↔
      ∃ id, event.validateEnvelope log.identityId = .ok id ∧
        (id ∈ log.events ∨ event.body.isGenesis = false ∨ log.genesisId = none) := by
  unfold insert
  cases event.validateEnvelope log.identityId with
  | error cause => simp
  | ok id =>
    by_cases recorded : id ∈ log.events
    · simp [recorded]
    · by_cases genesis : event.body.isGenesis = true
      · cases first : log.genesisId with
        | none => simp [genesis, recorded]
        | some root => simp [genesis, recorded]
      · simp [genesis, recorded]

omit [IdentityStorage] in
theorem insert_grows (reachable : log.Reachable) {event : IdentityEvent}
    {insertion : IdentityControlInsertion} (inserted : log.insert event = .ok insertion) :
    insertion.log.identityId = log.identityId ∧
      (∀ id, id ∈ log.events → id ∈ insertion.log.events) ∧
      ∃ id, event.validateEnvelope log.identityId = .ok id ∧ id ∈ insertion.log.events := by
  have wellFormed := reachable.sound.indexed.wellFormed
  unfold insert at inserted
  split at inserted
  · cases inserted
  rename_i id valid
  split at inserted
  · rename_i recorded
    cases inserted
    exact ⟨rfl, fun _ earlier => earlier, id, valid, Std.ExtTreeMap.contains_iff_mem.mp recorded⟩
  split at inserted
  · cases inserted
  · cases inserted
    have formed : (log.recordEvent id event).causal.WellFormed :=
      CausalGraph.insert_wellFormed wellFormed id event.body.parents
    have frame := (quarantineUnauthorized_spec formed).1.frame
    dsimp only
    rw [frame.1, frame.2.1]
    refine ⟨rfl, ?_, id, valid, Std.ExtTreeMap.mem_insert_self⟩
    intro other earlier
    exact Std.ExtTreeMap.mem_insert.mpr (Or.inr earlier)

theorem unionStorageBytes_append (log : IdentityControlLog)
    (first second : List EventStorageBytes) :
    log.unionStorageBytes (first ++ second) =
      (log.unionStorageBytes first).bind fun reached => reached.unionStorageBytes second := by
  induction first generalizing log with
  | nil => rfl
  | cons bytes first ih =>
    simp only [List.cons_append, unionStorageBytes]
    cases IdentityEvent.parseStorageBytes bytes with
    | error cause => rfl
    | ok event =>
      dsimp only
      cases log.insert event with
      | error rejection => rfl
      | ok insertion => exact ih insertion.log

theorem unionStorageBytes_takes (accepted : log.unionStorageBytes (bytes :: batch) = .ok next) :
    log.Takes bytes := by
  unfold unionStorageBytes at accepted
  split at accepted
  · cases accepted
  rename_i event parsed
  obtain ⟨insertion, inserted, _⟩ := bind_eq_ok.mp accepted
  obtain ⟨id, valid, allowed⟩ := (insert_ok_iff log event).mp ⟨insertion, inserted⟩
  exact ⟨event, id, parsed, valid, allowed⟩

/-- A refused batch hands back the log that its elements before the refused one leave. -/
theorem unionStorageBytes_error {rejection : IdentityControlRejection}
    (refused : log.unionStorageBytes batch = .error rejection) :
    ∃ before bytes after, batch = before ++ bytes :: after ∧
      log.unionStorageBytes before = .ok rejection.log ∧ ¬rejection.log.Takes bytes := by
  induction batch generalizing log with
  | nil => cases refused
  | cons bytes batch ih =>
    cases parsed : IdentityEvent.parseStorageBytes bytes with
    | error cause =>
      simp only [unionStorageBytes, parsed] at refused
      cases refused
      exact ⟨[], bytes, batch, rfl, rfl, by simp [Takes, parsed]⟩
    | ok event =>
      simp only [unionStorageBytes, parsed] at refused
      rcases bind_eq_error.mp refused with failed | ⟨insertion, inserted, failed⟩
      · have same := insert_error failed
        refine ⟨[], bytes, batch, rfl, by rw [same]; rfl, ?_⟩
        rintro ⟨other, id, read, valid, allowed⟩
        rw [parsed] at read
        cases read
        rw [same] at valid allowed
        obtain ⟨insertion, inserted⟩ := (insert_ok_iff log event).mpr ⟨id, valid, allowed⟩
        rw [failed] at inserted
        cases inserted
      · obtain ⟨before, other, after, split, accepted, refuses⟩ := ih failed
        refine ⟨bytes :: before, other, after, by rw [split, List.cons_append], ?_, refuses⟩
        simp only [unionStorageBytes, parsed, inserted]
        exact accepted

/-- Elements that the log holds change nothing. -/
theorem unionStorageBytes_held (accepted : log.unionStorageBytes batch = .ok next)
    (held : ∀ stored ∈ batch, log.Holds stored) : next = log := by
  induction batch generalizing log with
  | nil =>
    cases accepted
    rfl
  | cons bytes batch ih =>
    obtain ⟨event, id, parsed, valid, recorded⟩ := held bytes (List.mem_cons_self ..)
    have duplicate : log.insert event = .ok ⟨log, .duplicate⟩ := by
      simp [insert, valid, recorded]
    simp only [unionStorageBytes, parsed, duplicate] at accepted
    exact ih accepted fun stored member => held stored (List.mem_cons_of_mem _ member)

/-- The recorded events survive an accepted batch, with every element in it. -/
theorem unionStorageBytes_grows (reachable : log.Reachable)
    (accepted : log.unionStorageBytes batch = .ok next) :
    next.identityId = log.identityId ∧ (∀ id, id ∈ log.events → id ∈ next.events) ∧
      ∀ stored ∈ batch, next.Holds stored := by
  induction batch generalizing log with
  | nil =>
    cases accepted
    exact ⟨rfl, fun _ recorded => recorded, by simp⟩
  | cons bytes batch ih =>
    cases parsed : IdentityEvent.parseStorageBytes bytes with
    | error cause => simp [unionStorageBytes, parsed] at accepted
    | ok event =>
      simp only [unionStorageBytes, parsed] at accepted
      obtain ⟨insertion, inserted, accepted⟩ := bind_eq_ok.mp accepted
      obtain ⟨named, kept, held⟩ := ih (reachable.insert inserted) accepted
      obtain ⟨sameId, grown, id, valid, recorded⟩ := insert_grows reachable inserted
      refine ⟨named.trans sameId, fun other earlier => kept other (grown other earlier), ?_⟩
      intro stored member
      rcases List.mem_cons.mp member with rfl | later
      · refine ⟨event, id, parsed, ?_, kept id recorded⟩
        rw [named, sameId]
        exact valid
      · exact held stored later

/-- A refused batch hands the log back unchanged exactly when none of its elements
is refused behind one that was news to the log. -/
theorem union_rejection_iff (reachable : log.Reachable) :
    (∀ rejection, log.unionStorageBytes batch = .error rejection → rejection.log = log) ↔
      log.SettledBeforeNews batch := by
  constructor
  · intro unchanged before bytes after split reached accepted news
    obtain ⟨stored, member, absent⟩ := news
    by_contra refuses
    have failed : ∃ rejection, log.unionStorageBytes batch = .error rejection ∧
        rejection.log = reached := by
      rw [split, unionStorageBytes_append, accepted]
      cases outcome : reached.unionStorageBytes (bytes :: after) with
      | ok final => exact absurd (unionStorageBytes_takes outcome) refuses
      | error rejection =>
        obtain ⟨first, other, rest, same, ran, _⟩ := unionStorageBytes_error outcome
        cases first with
        | nil =>
          cases ran
          exact ⟨rejection, outcome, rfl⟩
        | cons head first =>
          rw [List.cons_append] at same
          injection same with same
          rw [← same] at ran
          exact absurd (unionStorageBytes_takes ran) refuses
    obtain ⟨rejection, outcome, same⟩ := failed
    have held := (unionStorageBytes_grows reachable accepted).2.2 stored member
    rw [← same, unchanged rejection outcome] at held
    exact absent held
  · intro settled rejection refused
    obtain ⟨before, bytes, after, split, accepted, refuses⟩ := unionStorageBytes_error refused
    apply unionStorageBytes_held accepted
    intro stored member
    by_contra absent
    exact refuses (settled before bytes after split rejection.log accepted ⟨stored, member, absent⟩)

end IdentityControlLog

end Nook.IdentityControl
