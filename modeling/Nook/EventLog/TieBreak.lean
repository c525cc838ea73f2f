import Nook.EventLog.ProjectionConflicts

set_option autoImplicit false

namespace Nook.EventLog

open Nook.Lib Nook.Replication Relation

namespace EventGraph

variable {graph : EventGraph}

/-- No two orders of the applicable events disagree: on the name, on what a
secret shows, or on whether replacements stand concurrent at the end. -/
structure TieBreakFree (graph : EventGraph) : Prop where
  names : Register.Determined graph.nameEffect graph.causal.Ancestor graph.causal.Applicable
  secrets : ∀ secretId, Register.Determined (graph.secretEffect secretId) graph.causal.Ancestor
    graph.causal.Applicable
  replacements : ∀ oldId a b, ¬Journal.Fork (graph.resolvesReplacements oldId)
    (graph.replacementsSince oldId) graph.causal.Ancestor graph.causal.Applicable a b

theorem nameEffect_written (id : EventId) : (graph.nameEffect id).written = graph.givenName id := by
  unfold nameEffect
  cases graph.givenName id with
  | none => rfl
  | some name => rfl

theorem nameEffect_plain (id : EventId) : (graph.nameEffect id).Plain := by
  unfold nameEffect
  cases graph.givenName id with
  | none => exact Or.inl rfl
  | some name => exact Or.inr ⟨name, rfl⟩

end EventGraph

namespace VaultProjection

open ProjectionState

variable {graph : EventGraph} {order other : List EventId} {state next : ProjectionState}

/-- What the fold along an order shows of a secret. -/
theorem liveSecret_of_folded (folded : Folded graph order state) (secretId : SecretId) :
    ((state.finish graph).liveSecrets graph)[secretId.asStr]? =
      Register.outcome graph.causal.isAncestor (graph.secretEffect secretId) order := by
  rw [getElem?_liveSecrets]
  unfold Register.outcome
  rw [← folded.cell secretId]
  rfl

theorem liveSecrets_eq_iff (folded : Folded graph order state) (otherFolded : Folded graph other next) :
    (next.finish graph).liveSecrets graph = (state.finish graph).liveSecrets graph ↔
      ∀ secretId, Register.outcome graph.causal.isAncestor (graph.secretEffect secretId) other =
        Register.outcome graph.causal.isAncestor (graph.secretEffect secretId) order := by
  constructor
  · intro same secretId
    rw [← liveSecret_of_folded folded, ← liveSecret_of_folded otherFolded, same]
  · intro same
    apply BTreeMap.ext
    intro key
    have lookup := same ⟨key⟩
    rwa [← liveSecret_of_folded folded, ← liveSecret_of_folded otherFolded] at lookup

/-- Two orders of the same events give the same name exactly when the same name
is given last. -/
theorem vaultName_eq_iff (folded : Folded graph order state) (otherFolded : Folded graph other next)
    (members : ∀ id, id ∈ other ↔ id ∈ order) :
    (next.finish graph).vaultName = (state.finish graph).vaultName ↔
      Register.outcome graph.causal.isAncestor graph.nameEffect other =
        Register.outcome graph.causal.isAncestor graph.nameEffect order := by
  rw [Register.outcome_plain other fun id _ => EventGraph.nameEffect_plain id,
    Register.outcome_plain order fun id _ => EventGraph.nameEffect_plain id]
  simp only [EventGraph.nameEffect_written]
  show next.projection.vaultName = state.projection.vaultName ↔ _
  rw [folded.vaultName, otherFolded.vaultName]
  have both : (other.reverse.findSome? graph.givenName).isSome =
      (order.reverse.findSome? graph.givenName).isSome := by
    rw [Bool.eq_iff_iff, List.findSome?_isSome_iff, List.findSome?_isSome_iff]
    simp only [List.mem_reverse, members]
  cases left : other.reverse.findSome? graph.givenName with
  | none =>
    cases right : order.reverse.findSome? graph.givenName with
    | none => simp
    | some name => simp [left, right] at both
  | some name =>
    cases right : order.reverse.findSome? graph.givenName with
    | none => simp [left, right] at both
    | some name => simp

/-- The reported security conflicts do not depend on the order of the events. -/
theorem securityConflicts_eq (folded : Folded graph order state)
    (otherFolded : Folded graph other next) (members : ∀ id, id ∈ other ↔ id ∈ order) :
    (next.finish graph).securityConflicts = (state.finish graph).securityConflicts := by
  have same : next.securityEvents = state.securityEvents := by
    apply BTreeMap.ext
    intro id
    rw [folded.securityEvents, otherFolded.securityEvents]
    simp only [members]
  show detectSecurityConflicts graph next.securityEvents = _
  rw [same]
  rfl

/-- No replacement conflict is reported exactly when no journal ends forked. -/
theorem replacementConflicts_empty_iff (folded : Folded graph order state)
    (extension : graph.causal.Extension order) :
    (state.finish graph).replacementConflicts = ∅ ↔ ∀ oldId,
      ¬Journal.Forked (graph.resolvesReplacements oldId) (graph.replacementsSince oldId)
        graph.causal.Ancestor order := by
  rw [Std.ExtTreeMap.eq_empty_iff_forall_not_mem]
  apply forall_congr'
  intro oldId
  rw [BTreeMap.mem_iff_getElem?, replacementConflict_of_folded folded, reported_replacement_iff]
  apply not_congr
  unfold Journal.Forked
  have known : ∀ id newId, (id, newId) ∈ replacementJournal graph order oldId →
      id ∈ graph.causal.parents := by
    intro id newId entry
    have member := ((EventGraph.mem_replacementJournal extension.nodup id newId).mp entry).1
    exact ((extension.mem_iff id).mp member).1.known
  have unrelated_iff : ∀ a b : EventId, (¬graph.causal.AncestorOrSelf a b ∧
      ¬graph.causal.AncestorOrSelf b a) ↔
      a ≠ b ∧ ¬graph.causal.Ancestor a b ∧ ¬graph.causal.Ancestor b a := by
    intro a b
    unfold CausalGraph.AncestorOrSelf
    rw [reflTransGen_iff_eq_or_transGen, reflTransGen_iff_eq_or_transGen]
    unfold CausalGraph.Ancestor
    tauto
  constructor
  · rintro ⟨a, b, left, right, first, second, concurrent⟩
    obtain ⟨forward, backward, _⟩ := (CausalGraph.areConcurrent_iff a b).mp concurrent
    exact ⟨a, b, left, right, first, second, (unrelated_iff a b).mp ⟨forward, backward⟩⟩
  · rintro ⟨a, b, left, right, first, second, unrelated⟩
    obtain ⟨forward, backward⟩ := (unrelated_iff a b).mpr unrelated
    exact ⟨a, b, left, right, first, second, (CausalGraph.areConcurrent_iff a b).mpr
      ⟨forward, backward, known a left first, known b right second⟩⟩

variable [External] {projection : VaultProjection}

/-- Every order of the applicable events that respects causality replays to the
same live secrets, name and conflicts. -/
def TieBreakIndependent (graph : EventGraph) (storeId : StoreId) (projection : VaultProjection) :
    Prop :=
  ∀ other, graph.causal.Extension other → ∃ replayed,
    fromOrder graph storeId other = .ok replayed ∧
      replayed.liveSecrets graph = projection.liveSecrets graph ∧
      replayed.vaultName = projection.vaultName ∧
      replayed.replacementConflicts = projection.replacementConflicts ∧
      replayed.securityConflicts = projection.securityConflicts

/-- Another order replays to the same when its registers have the same outcomes and
it leaves no replacement forked. -/
theorem replays_iff {joinable : EventGraph → EventGraph → Prop}
    (reachable : EventGraph.Reachable joinable graph) {storeId : StoreId} {order : List EventId}
    (extension : graph.causal.Extension order)
    (ran : fromOrder graph storeId order = .ok projection)
    (resolved : projection.hasBlockingConflicts = false) {other : List EventId}
    (otherExtension : graph.causal.Extension other) :
    (∃ replayed, fromOrder graph storeId other = .ok replayed ∧
        replayed.liveSecrets graph = projection.liveSecrets graph ∧
        replayed.vaultName = projection.vaultName ∧
        replayed.replacementConflicts = projection.replacementConflicts ∧
        replayed.securityConflicts = projection.securityConflicts) ↔
      (∀ secretId, Register.outcome graph.causal.isAncestor (graph.secretEffect secretId) other =
        Register.outcome graph.causal.isAncestor (graph.secretEffect secretId) order) ∧
      Register.outcome graph.causal.isAncestor graph.nameEffect other =
        Register.outcome graph.causal.isAncestor graph.nameEffect order ∧
      ∀ oldId, ¬Journal.Forked (graph.resolvesReplacements oldId) (graph.replacementsSince oldId)
        graph.causal.Ancestor other := by
  obtain ⟨state, folded, rfl⟩ := fromOrder_folded reachable.supported extension.nodup ran
  have unreported : (state.finish graph).replacementConflicts = ∅ := by
    unfold hasBlockingConflicts at resolved
    rw [Bool.or_eq_false_iff, Bool.not_eq_false', Std.ExtTreeMap.isEmpty_iff] at resolved
    exact resolved.1
  have members : ∀ id, id ∈ other ↔ id ∈ order := fun id =>
    (otherExtension.mem_iff id).trans (extension.mem_iff id).symm
  obtain ⟨replayed, otherRan⟩ := (fromOrder_ok_iff other).mpr fun id member =>
    (fromOrder_ok_iff order).mp ⟨_, ran⟩ id ((members id).mp member)
  obtain ⟨next, otherFolded, same⟩ :=
    fromOrder_folded reachable.supported otherExtension.nodup otherRan
  rw [← liveSecrets_eq_iff folded otherFolded, ← vaultName_eq_iff folded otherFolded members,
    ← replacementConflicts_empty_iff otherFolded otherExtension, otherRan, unreported, ← same]
  have security := securityConflicts_eq folded otherFolded members
  rw [← same] at security
  constructor
  · rintro ⟨_, equal, live, name, replacement, _⟩
    cases equal
    exact ⟨live, name, replacement⟩
  · rintro ⟨live, name, replacement⟩
    exact ⟨replayed, rfl, live, name, replacement, security⟩

/-- A projection without blocking conflicts is independent of the tie-break
exactly when no two orders of its events disagree. -/
theorem tieBreakIndependent_iff {joinable : EventGraph → EventGraph → Prop}
    (reachable : EventGraph.Reachable joinable graph) {storeName : Str} {storeId : StoreId}
    (parsed : StoreId.parse storeName = .ok storeId)
    (projected : fromGraph graph storeName = .ok projection)
    (resolved : projection.hasBlockingConflicts = false) :
    TieBreakIndependent graph storeId projection ↔ graph.TieBreakFree := by
  have wellFormed := reachable.wellFormed
  have acyclic : ∀ id, graph.causal.Applicable id → ¬graph.causal.Ancestor id id :=
    fun id applicable => applicable.acyclic wellFormed
  have trans : ∀ a b c, graph.causal.Ancestor a b → graph.causal.Ancestor b c →
      graph.causal.Ancestor a c := fun _ _ _ first second => first.trans second
  have reach_iff : ∀ a b, graph.causal.isAncestor a b = true ↔ a = b ∨ graph.causal.Ancestor a b :=
    CausalGraph.isAncestor_iff_eq_or
  obtain ⟨order, ordered⟩ : ∃ order, graph.topologicalOrder = .ok order := by
    obtain ⟨_, _, rest⟩ := bind_eq_ok.mp projected
    obtain ⟨order, ordered, _⟩ := bind_eq_ok.mp rest
    exact ⟨order, ordered⟩
  have extension := EventGraph.topologicalOrder_extension wellFormed ordered
  obtain ⟨sameStore, sameParsed, ran⟩ := fromGraph_eq ordered projected
  rw [parsed] at sameParsed
  cases sameParsed
  have replay : ∀ other, graph.causal.Extension other → _ := fun other otherExtension =>
    replays_iff reachable extension ran resolved otherExtension
  have determined : ∀ {ρ : Type} (effect : EventId → CellEffect ρ),
      (∀ other, graph.causal.Extension other →
        Register.outcome graph.causal.isAncestor effect other =
          Register.outcome graph.causal.isAncestor effect order) ↔
        Register.Determined effect graph.causal.Ancestor graph.causal.Applicable :=
    fun effect => Register.outcome_determined_iff reach_iff trans acyclic extension
  constructor
  · intro independent
    have outcomes : ∀ other (otherExtension : graph.causal.Extension other), _ :=
      fun other otherExtension => (replay other otherExtension).mp (independent other otherExtension)
    refine ⟨(determined _).mp fun other ext => (outcomes other ext).2.1,
      fun secretId => (determined _).mp fun other ext => (outcomes other ext).1 secretId, ?_⟩
    intro oldId a b fork
    obtain ⟨other, otherExtension, forked⟩ :=
      Journal.exists_forked_of_fork reach_iff trans extension fork
    exact (outcomes other otherExtension).2.2 oldId forked
  · intro free other otherExtension
    refine (replay other otherExtension).mpr ⟨?_, ?_, ?_⟩
    · exact fun secretId => (determined _).mpr (free.secrets secretId) other otherExtension
    · exact (determined _).mpr free.names other otherExtension
    · intro oldId forked
      obtain ⟨a, b, fork⟩ := Journal.fork_of_forked acyclic otherExtension forked
      exact free.replacements oldId a b fork

end VaultProjection

namespace TestSupport

/-- One member clears the vault while another event creates a secret. -/
def clearedAsideEvents : List VaultEvent :=
  [genesis 'g' '1',
    signed 'a' '1' [eventId 'g'] (eventId 'g') [.vaultCleared],
    signed 'b' '1' [eventId 'g'] (eventId 'g') [.secretCreated (secret 's' [])]]

open VaultProjection in
theorem cleared_aside_depends_on_tieBreak :
    ∃ graph projection, EventGraph.new.insertAll storeName clearedAsideEvents = .ok graph ∧
      fromGraph graph storeName = .ok projection ∧ projection.hasBlockingConflicts = false ∧
      ¬TieBreakIndependent graph ⟨storeName⟩ projection := by
  obtain ⟨graph, accepted, checked⟩ := exists_of_passes
    (EventGraph.new.insertAll storeName clearedAsideEvents)
    (fun graph => passes (fromGraph graph storeName) fun projection =>
      passes (fromOrder graph ⟨storeName⟩ [eventId 'g', eventId 'b', eventId 'a'])
        fun replayed => decide (projection.hasBlockingConflicts = false ∧
          [eventId 'g', eventId 'b', eventId 'a'].Perm graph.causal.applicableIds ∧
          [eventId 'g', eventId 'b', eventId 'a'].Pairwise
            (fun earlier later => graph.causal.isAncestor later earlier = false) ∧
          (secretId 's').asStr ∈ projection.liveSecrets graph ∧
          (secretId 's').asStr ∉ replayed.liveSecrets graph)) (by decide +kernel)
  obtain ⟨projection, projected, checked⟩ := exists_of_passes _ _ checked
  obtain ⟨replayed, ran, checked⟩ := exists_of_passes _ _ checked
  rw [decide_eq_true_iff] at checked
  obtain ⟨resolved, perm, sorted, live, hidden⟩ := checked
  refine ⟨graph, projection, accepted, projected, resolved, ?_⟩
  intro independent
  obtain ⟨other, otherRan, same, _⟩ :=
    independent _ (CausalGraph.extension_of_perm perm sorted)
  rw [ran] at otherRan
  cases otherRan
  exact hidden (same ▸ live)

open VaultProjection in
theorem tieBreakIndependent_iff_clearedAside :
    ∃ graph projection, EventGraph.new.insertAll storeName clearedAsideEvents = .ok graph ∧
      (TieBreakIndependent graph ⟨storeName⟩ projection ↔ graph.TieBreakFree) := by
  obtain ⟨graph, accepted, checked⟩ := exists_of_passes
    (EventGraph.new.insertAll storeName clearedAsideEvents)
    (fun graph => passes (fromGraph graph storeName) fun projection =>
      !projection.hasBlockingConflicts) (by decide +kernel)
  obtain ⟨projection, projected, resolved⟩ := exists_of_passes _ _ checked
  rw [Bool.not_eq_true'] at resolved
  have parsed : StoreId.parse storeName = .ok ⟨storeName⟩ := by decide +kernel
  have reachable : EventGraph.Reachable (fun _ _ => True) graph :=
    EventGraph.Reachable.new.insertAll clearedAsideEvents accepted
  exact ⟨graph, projection, accepted,
    tieBreakIndependent_iff reachable parsed projected resolved⟩

end TestSupport

end Nook.EventLog
