import Nook.IdentityControl.Installations
import Nook.IdentityControl.TestSupport

set_option autoImplicit false

namespace Nook.IdentityControl

open Nook.Lib Nook.Replication Nook.EventLog Relation

/-- While installations leave each other an app key, every replica that has the
genesis keeps one, whichever events it has received. -/
theorem Network.Run.keeps_appKey {Replica : Type} [DecidableEq Replica] [IdentitySealing]
    {net : Network Replica} (run : Network.Run Action.Careful net)
    (single : ∀ event ∈ net.events, ∀ other ∈ net.events, event.id = other.id →
      event.body = other.body) (replica : Replica)
    (founded : ∃ (id : EventId) (event : IdentityEvent),
      (net.logs replica).events[id]? = some event ∧ event.body.isGenesis = true) :
    ∃ state, IdentityControlState.project (net.logs replica) = .ok state ∧
      state.appMembers ≠ [] := by
  have sound := run.sound
  have sent := sound.logs replica
  have logSound := sent.reachable.sound
  obtain ⟨genesis, founding, found, root⟩ := founded
  obtain ⟨_, _, _, projects⟩ := logSound.projects
  obtain ⟨state, projected⟩ := logSound.exists_projection projects found root
  obtain ⟨id, keys, role, survives, event, listed, member, asApp, same⟩ :=
    sound.exists_surviving single sent found root
  have others : ∀ other otherKeys otherRole, (net.logs replica).Admits other otherKeys otherRole →
      otherKeys.appId = keys.appId → otherRole = .app := by
    intro other otherKeys otherRole admits app
    obtain ⟨otherEvent, otherFound, how⟩ := admits
    exact (sound.oneRole event listed otherEvent (sent.recorded other otherEvent otherFound) member
      otherKeys .app otherRole asApp how (same.trans app.symm)).symm
  obtain ⟨kept, isApp, _⟩ := logSound.appMember projected survives others
  exact ⟨state, projected, List.ne_nil_of_mem isApp⟩

namespace TestSupport

open Nook.EventLog.TestSupport

/-- Two installations. -/
def begun : Network Bool := ⟨fun _ => .new identityId, [founded 'g' '1']⟩

theorem run_begun (allowed : Network Bool → Action Bool → Prop) : Network.Run allowed begun :=
  .founded (show IdentityEvent.genesis identityId (keys '1') (signing 'g' '1') =
    .ok (founded 'g' '1') by decide +kernel)

/-- Whether the installation's own projection lets it append the operation. -/
def appends (net : Network Bool) (replica : Bool) (event : IdentityEvent)
    (signing : IdentityEventSigning) (build : IdentityControlState → EventResult IdentityControlOperation)
    (operation : IdentityControlOperation) : Bool :=
  decide (event.body.operations = [operation]) &&
    passes (IdentityControlState.project (net.logs replica)) fun state =>
      decide (build state = .ok operation) &&
        decide ((net.logs replica).buildAppend event.body.operations signing = .ok event)

theorem step_append {net : Network Bool} {replica : Bool} {event : IdentityEvent}
    (signing : IdentityEventSigning)
    (build : IdentityControlState → EventResult IdentityControlOperation)
    (operation : IdentityControlOperation)
    (built : ∀ state, build state = .ok operation → state.Built [operation])
    (checked : appends net replica event signing build operation = true) :
    net.Step (.append replica event) (net.append replica event) := by
  unfold appends at checked
  rw [Bool.and_eq_true, decide_eq_true_iff] at checked
  obtain ⟨sole, checked⟩ := checked
  obtain ⟨state, projected, checked⟩ := exists_of_passes _ _ checked
  rw [Bool.and_eq_true, decide_eq_true_iff, decide_eq_true_iff] at checked
  exact .append projected (sole ▸ built state checked.1) checked.2

def added : IdentityEvent := signed 'a' '1' ['g'] [approve '2']

/-- The first installation approves the second app. -/
def approved : Network Bool := (begun.deliver false (founded 'g' '1')).append false added

theorem step_approved :
    (begun.deliver false (founded 'g' '1')).Step (.append false added) approved :=
  step_append (signing 'a' '1') (fun state => state.additionOperation ⟨keys '2', [], .own⟩)
    (approve '2') (fun _ => .addition) (by decide +kernel)

def firstRemoval : IdentityEvent := signed 'r' '1' ['a'] [revoke '2']

def secondRemoval : IdentityEvent := signed 's' '2' ['a'] [revoke '1']

theorem oneRole_of_approvals {events : List IdentityEvent}
    (checked : (events.all fun event => event.body.operations.all fun operation =>
      operation.admits.all fun admitted => admitted.2 = .app) = true) : OneRole events := by
  have asApp : ∀ event ∈ events, ∀ member role, event.Admits member role → role = .app := by
    intro event listed member role ⟨operation, inside, admits⟩
    have every := List.all_eq_true.mp (List.all_eq_true.mp checked event listed) operation inside
    rw [admits] at every
    exact of_decide_eq_true every
  intro event listed other otherListed member otherMember role otherRole admits otherAdmits _
  rw [asApp event listed member role admits, asApp other otherListed otherMember otherRole otherAdmits]

theorem keeps_appKey_firstRemoval : ∃ state, IdentityControlState.project
      ((approved.append false firstRemoval).logs false) = .ok state ∧ state.appMembers ≠ [] := by
  have known : Network.Run Action.Careful approved := by
    refine .step (.step (run_begun _) (.deliver List.mem_cons_self) trivial) step_approved ⟨?_, ?_⟩
    · intro state appId _ ⟨operation, listed, revokes⟩
      rw [List.mem_singleton.mp listed] at revokes
      cases revokes
    · exact oneRole_of_approvals (by decide +kernel)
  have removal : approved.Step (.append false firstRemoval) (approved.append false firstRemoval) :=
    step_append (signing 'r' '1') (fun state => state.revocationOperation (keys '2').appId)
      (revoke '2') (fun _ => .revocation) (by decide +kernel)
  have careful : Action.Careful approved (.append false firstRemoval) := by
    refine ⟨?_, oneRole_of_approvals (by decide +kernel)⟩
    intro state appId projected _ _
    have stays : passes (IdentityControlState.project (approved.logs false)) (fun state =>
        state.appMembers.any fun member => member.keys.appId = (keys '1').appId) = true := by
      decide +kernel
    rw [projected] at stays
    obtain ⟨member, isApp, named⟩ := List.any_eq_true.mp stays
    rw [decide_eq_true_iff] at named
    refine ⟨member, isApp, ?_, ?_⟩
    · rw [named]
      intro ⟨operation, listed, revokes⟩
      rw [List.mem_singleton.mp listed] at revokes
      exact absurd revokes (by decide +kernel)
    · intro other listed ⟨operation, inside, revokes⟩
      have harmless : ∀ event ∈ approved.events, ∀ operation ∈ event.body.operations,
          operation.revokes = none := by decide +kernel
      rw [harmless other listed operation inside] at revokes
      cases revokes
  exact Network.Run.keeps_appKey (.step known removal careful) (by decide +kernel) false
    ⟨eventId 'g', founded 'g' '1', by decide +kernel, rfl⟩

/-- Both installations know both apps. -/
def paired : Network Bool :=
  (approved.deliver true (founded 'g' '1')).deliver true added

/-- Each app removes the other, and both installations receive both removals. -/
def parted : Network Bool :=
  (((paired.append false firstRemoval).append true secondRemoval).deliver false
    secondRemoval).deliver true firstRemoval

theorem run_parted : Network.Run (fun _ _ => True) parted := by
  have known : Network.Run (fun _ _ => True) paired :=
    .step (.step (.step (.step (run_begun _) (.deliver List.mem_cons_self) trivial) step_approved
      trivial) (.deliver List.mem_cons_self) trivial)
      (.deliver (.tail _ List.mem_cons_self)) trivial
  have first : paired.Step (.append false firstRemoval) (paired.append false firstRemoval) :=
    step_append (signing 'r' '1') (fun state => state.revocationOperation (keys '2').appId)
      (revoke '2') (fun _ => .revocation) (by decide +kernel)
  have second : (paired.append false firstRemoval).Step (.append true secondRemoval)
      ((paired.append false firstRemoval).append true secondRemoval) :=
    step_append (signing 's' '2') (fun state => state.revocationOperation (keys '1').appId)
      (revoke '1') (fun _ => .revocation) (by decide +kernel)
  exact .step (.step (.step (.step known first trivial) second trivial)
    (.deliver (.tail _ (.tail _ (.tail _ List.mem_cons_self)))) trivial)
    (.deliver (.tail _ (.tail _ List.mem_cons_self))) trivial

theorem parted_keeps_no_appKey : Network.Run (fun _ _ => True) parted ∧
    ∀ replica, (∀ event ∈ parted.events, ∃ id, event.id = .ok id ∧
        (parted.logs replica).events[id]? = some event) ∧
      ∃ state, IdentityControlState.project (parted.logs replica) = .ok state ∧
        state.appMembers = [] := by
  refine ⟨run_parted, ?_⟩
  intro replica
  have received : ∀ replica, (parted.events.all fun event => passes event.id fun id =>
      decide ((parted.logs replica).events[id]? = some event)) = true := by decide +kernel
  have projected : ∀ replica, passes (IdentityControlState.project (parted.logs replica))
      (fun state => decide (state.appMembers = [])) = true := by decide +kernel
  constructor
  · intro event listed
    obtain ⟨id, named, recorded⟩ :=
      exists_of_passes _ _ (List.all_eq_true.mp (received replica) event listed)
    exact ⟨id, named, of_decide_eq_true recorded⟩
  · obtain ⟨state, found, none⟩ := exists_of_passes _ _ (projected replica)
    exact ⟨state, found, of_decide_eq_true none⟩

end TestSupport

end Nook.IdentityControl
