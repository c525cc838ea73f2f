import Nook.IdentityControl.StoredUnion
import Nook.IdentityControl.TestSupport

set_option autoImplicit false

namespace Nook.IdentityControl

open Nook.Lib Nook.Replication Nook.EventLog

/-- Which refusals hand back what the call was made on. A vault graph keeps a new
event whose recording brings the quarantine passes to an undecidable event, a
union keeps the news before a refused element, and a single insertion into an
identity log keeps nothing. -/
theorem rejected_insertions_change_nothing_iff [IdentityExternal] [IdentityStorage]
    {graph : EventGraph} (graphReachable : EventGraph.Reachable EventGraph.SameParents graph)
    (event : VaultEvent) (expectedStoreId : Str) {log : IdentityControlLog}
    (logReachable : log.Reachable) (identityEvent : IdentityEvent)
    (batch : List EventStorageBytes) :
    ((∀ rejection, graph.insert event expectedStoreId = .error rejection →
        rejection.graph = graph) ↔
      ∀ storeId id, StoreId.parse expectedStoreId = .ok storeId →
        event.validateEnvelope storeId = .ok id → graph.events[id]? = none →
        ¬(graph.recordEvent id event).MeetsUndecidable) ∧
    (∀ rejection, log.insert identityEvent = .error rejection → rejection.log = log) ∧
    ((∀ rejection, log.unionStorageBytes batch = .error rejection → rejection.log = log) ↔
      log.SettledBeforeNews batch) :=
  ⟨EventGraph.insert_rejection_iff graphReachable.indexed graphReachable.valid event expectedStoreId,
    fun _ => IdentityControlLog.insert_error,
    IdentityControlLog.union_rejection_iff logReachable⟩

namespace TestSupport

/-- The key of all `4` encodes no point of the curve. -/
local instance curveIdentity : IdentityExternal where
  toExternal := { EventLog.TestSupport.external with
    isVerifyingKey := fun bytes => bytes ≠ List.replicate 32 0x44 }
  identityBodyJson body := .ok body.createdAt.asStr
  flatObjectJson _ := .ok []
  ageRecipient text := .ok text
  errorText _ := ""

/-- Stored bytes are a founding event when they are `g`, and no event otherwise. -/
local instance curveStorage : IdentityStorage where
  yamlFromStr text := if text = ['g'] then .ok (founded 'g' '1') else .error "unknown tag"
  utf8Error _ := "invalid utf-8 sequence"

/-- The genesis, and an approval below it of the key that encodes no point. -/
def approvedOffCurve : List VaultEvent :=
  [EventLog.TestSupport.genesis 'g' '1',
    EventLog.TestSupport.signed 'a' '1' [EventLog.TestSupport.eventId 'g']
      (EventLog.TestSupport.eventId 'g')
      [.joinApproved (EventLog.TestSupport.device '4') ⟨[]⟩ (EventLog.TestSupport.publicKey '4')
        ⟨[]⟩ ⟨[]⟩ ⟨[]⟩]]

def afterApproval : VaultEvent :=
  EventLog.TestSupport.signed 'b' '1' [EventLog.TestSupport.eventId 'a']
    (EventLog.TestSupport.eventId 'g') [.deviceRevoked (EventLog.TestSupport.device '4')]

theorem rejected_insertions_change_nothing_iff_new :
    ((∀ rejection, EventGraph.new.insert afterApproval EventLog.TestSupport.storeName =
        .error rejection → rejection.graph = EventGraph.new) ↔
      ∀ storeId id, StoreId.parse EventLog.TestSupport.storeName = .ok storeId →
        afterApproval.validateEnvelope storeId = .ok id → EventGraph.new.events[id]? = none →
        ¬(EventGraph.new.recordEvent id afterApproval).MeetsUndecidable) ∧
    (∀ rejection, (IdentityControlLog.new identityId).insert (founded 'g' '1') =
      .error rejection → rejection.log = IdentityControlLog.new identityId) ∧
    ((∀ rejection, (IdentityControlLog.new identityId).unionStorageBytes [[103], [120]] =
        .error rejection → rejection.log = IdentityControlLog.new identityId) ↔
      (IdentityControlLog.new identityId).SettledBeforeNews [[103], [120]]) :=
  rejected_insertions_change_nothing_iff .new afterApproval EventLog.TestSupport.storeName
    (.new identityId) (founded 'g' '1') [[103], [120]]

/-- The number of events of a refused graph, if it is refused. -/
def refusedGraphSize : Except EventGraphRejection EventGraphInsertion → Option Nat
  | .ok _ => none
  | .error rejection => some rejection.graph.events.size

def refusedLogSize : Except IdentityControlRejection IdentityControlLog → Option Nat
  | .ok _ => none
  | .error rejection => some rejection.log.events.size

/-- Both ways a refusal keeps news: an event below an approved key that encodes no
point, and a founding event before bytes that are no event. -/
theorem rejected_insertions_keep_news :
    (∃ graph rejection,
      EventGraph.new.insertAll EventLog.TestSupport.storeName approvedOffCurve = .ok graph ∧
      graph.insert afterApproval EventLog.TestSupport.storeName = .error rejection ∧
      rejection.graph ≠ graph) ∧
    ∃ rejection, (IdentityControlLog.new identityId).unionStorageBytes [[103], [120]] =
      .error rejection ∧ rejection.log ≠ IdentityControlLog.new identityId := by
  constructor
  · obtain ⟨graph, built, checked⟩ := exists_of_passes
      (EventGraph.new.insertAll EventLog.TestSupport.storeName approvedOffCurve)
      (fun graph => (refusedGraphSize (graph.insert afterApproval
        EventLog.TestSupport.storeName)).any (· ≠ graph.events.size))
      (by decide +kernel)
    cases refused : graph.insert afterApproval EventLog.TestSupport.storeName with
    | ok insertion => simp [refused, refusedGraphSize] at checked
    | error rejection =>
      simp only [refused, refusedGraphSize, Option.any_some, decide_eq_true_eq] at checked
      exact ⟨graph, rejection, built, refused, fun same => checked (by rw [same])⟩
  · have checked : (refusedLogSize ((IdentityControlLog.new identityId).unionStorageBytes
        [[103], [120]])).any (· ≠ 0) = true := by decide +kernel
    cases refused : (IdentityControlLog.new identityId).unionStorageBytes [[103], [120]] with
    | ok log => simp [refused, refusedLogSize] at checked
    | error rejection =>
      simp only [refused, refusedLogSize, Option.any_some, decide_eq_true_eq] at checked
      refine ⟨rejection, rfl, ?_⟩
      intro same
      rw [same] at checked
      exact checked rfl

end TestSupport

end Nook.IdentityControl
