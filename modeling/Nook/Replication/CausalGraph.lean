import Nook.Lib.OrderedMap
import Nook.Lib.Loop
import Nook.Lib.Traversal

set_option autoImplicit false

namespace Nook.Replication

open Nook.Lib

/-- Provider-neutral causal metadata for an immutable event set. -/
structure CausalGraph (Id : Type) [LinearOrder Id] where
  parents : BTreeMap Id (List Id)
  quarantineRoots : BTreeMap Id String
  cyclic : BTreeSet Id
  quarantined : BTreeMap Id String

/-- Result of indexing an immutable event and its parent set. -/
inductive CausalInsertStatus (Id : Type) where
  | applied
  | pending (missingParents : List Id)
  | quarantined (reason : String)
  | duplicate
  | conflict
  deriving DecidableEq

structure CausalInsertion (Id : Type) [LinearOrder Id] where
  graph : CausalGraph Id
  status : CausalInsertStatus Id

inductive CausalGraphError where
  | cycle
  | topologicalSortStalled
  deriving DecidableEq

def conflictingParentsReason : String := "Conflicting causal parent sets for the same event id"
def cycleReason : String := "Causal graph contains a cycle"
def rejectedAncestorReason : String := "Ancestor event was rejected"

variable {Id : Type} [LinearOrder Id]

/-- `sort` then `dedup`: the ordered list of the set. -/
def normalizeParents (parents : List Id) : List Id :=
  (Std.ExtTreeSet.ofList parents compare).toList

/-- Keep the smaller of two reasons for one id. -/
def mergeQuarantineReason (reasons : BTreeMap Id String) (id : Id) (reason : String) :
    BTreeMap Id String :=
  match reasons[id]? with
  | none => reasons.insert id reason
  | some existing => if reason < existing then reasons.insert id reason else reasons

namespace CausalGraph

def new : CausalGraph Id := ⟨∅, ∅, ∅, ∅⟩

def contains (graph : CausalGraph Id) (id : Id) : Bool := graph.parents.contains id

/-- What a traversal pushes at `id`: its recorded parents, nothing when it is unknown. -/
def parentsOf (graph : CausalGraph Id) (id : Id) : List Id := (graph.parents[id]?).getD []

def edgeCount (graph : CausalGraph Id) : Nat :=
  (graph.parents.keys.map fun id => (graph.parentsOf id).length).sum

/-- Ids in the order a `while let Some(id) = stack.pop()` walk towards the
parents first sees them, from the stack `stack` (its last element on top). -/
def visitOrder (graph : CausalGraph Id) (stack : List Id) : List Id :=
  visitFrom graph.parentsOf (stack.length + graph.edgeCount) stack.reverse []

def ancestorIdsPresent (graph : CausalGraph Id) (parents : List Id) : Bool :=
  (graph.visitOrder parents).all fun id => graph.contains id

def ancestorsPresent (graph : CausalGraph Id) (id : Id) : Bool :=
  match graph.parents[id]? with
  | none => false
  | some parents => graph.ancestorIdsPresent parents

def applicableIds (graph : CausalGraph Id) : List Id :=
  graph.parents.keys.filter fun id =>
    !graph.quarantined.contains id && graph.ancestorsPresent id

def pendingIds (graph : CausalGraph Id) : List Id :=
  graph.parents.keys.filter fun id =>
    !(graph.parentsOf id).isEmpty && !graph.ancestorIdsPresent (graph.parentsOf id) &&
      !graph.quarantined.contains id

def heads (graph : CausalGraph Id) : List Id :=
  let referenced := (graph.parents.keys.filter fun id => !graph.quarantined.contains id).flatMap
    graph.parentsOf
  graph.parents.keys.filter fun id =>
    !graph.quarantined.contains id && !referenced.contains id

def isAncestor (graph : CausalGraph Id) (ancestor descendant : Id) : Bool :=
  if ancestor = descendant then true
  else
    match graph.parents[descendant]? with
    | none => false
    | some parents => (graph.visitOrder parents).contains ancestor

def areConcurrent (graph : CausalGraph Id) (left right : Id) : Bool :=
  left != right && !graph.isAncestor left right && !graph.isAncestor right left &&
    graph.contains left && graph.contains right

/-- One round of `topological_order`: append every remaining id whose parents
are ordered or not remaining. -/
def topologicalRound (graph : CausalGraph Id) (state : List Id × List Id) :
    Round (List Id × List Id) (Except CausalGraphError (List Id)) :=
  let (ordered, remaining) := state
  if remaining.isEmpty then .done (.ok ordered)
  else
    let ready := remaining.filter fun id =>
      graph.contains id && (graph.parentsOf id).all fun parent =>
        ordered.contains parent || !remaining.contains parent
    if ready.isEmpty then .done (.error .cycle)
    else .again (ordered ++ ready, remaining.filter fun id => !ready.contains id)

/-- Deterministic topological order with identifiers as the tie-break. Every
round removes a ready id, so the bound on the rounds is never reached. -/
def topologicalOrder (graph : CausalGraph Id) : Except CausalGraphError (List Id) :=
  let remaining := graph.applicableIds
  (runLoop graph.topologicalRound (remaining.length + 1) ([], remaining)).getD
    (.error .topologicalSortStalled)

/-- One round of rejection propagation over the known parents. -/
def propagationRound (graph : CausalGraph Id) (quarantined : BTreeMap Id String) :
    Round (BTreeMap Id String) (BTreeMap Id String) :=
  let rejectedDescendants := graph.parents.keys.filter fun id =>
    !quarantined.contains id && (graph.parentsOf id).any fun parent => quarantined.contains parent
  if rejectedDescendants.isEmpty then .done quarantined
  else .again (rejectedDescendants.foldl
    (fun reasons id => mergeQuarantineReason reasons id rejectedAncestorReason) quarantined)

/-- Every round of the propagation quarantines a known id, so the bound on the
rounds is never reached. -/
def recomputeQuarantine (graph : CausalGraph Id) : CausalGraph Id :=
  let seeded := graph.cyclic.toList.foldl
    (fun reasons id => mergeQuarantineReason reasons id cycleReason) graph.quarantineRoots
  { graph with
    quarantined := (runLoop graph.propagationRound (graph.parents.size + 1) seeded).getD seeded }

/-- Known ids that list `id` as a parent, in id order. -/
def childrenOf (graph : CausalGraph Id) (id : Id) : List Id :=
  graph.parents.keys.flatMap fun child =>
    ((graph.parentsOf child).filter (· = id)).map fun _ => child

/-- A newly inserted parent set can only introduce cycles through that event:
the intersection of its ancestors and its descendants. -/
def cycleMembers (graph : CausalGraph Id) (origin : Id) : BTreeSet Id :=
  let ancestors := graph.visitOrder (graph.parentsOf origin)
  if ancestors.contains origin then
    let descendants := visitFrom graph.childrenOf (1 + graph.edgeCount) [origin] []
    Std.ExtTreeSet.ofList (ancestors.filter fun id => descendants.contains id) compare
  else ∅

def allCyclicIds (graph : CausalGraph Id) : BTreeSet Id :=
  Std.ExtTreeSet.ofList
    (graph.parents.keys.flatMap fun id => (graph.cycleMembers id).toList) compare

def insert (graph : CausalGraph Id) (id : Id) (requested : List Id) : CausalInsertion Id :=
  let parents := normalizeParents requested
  match graph.parents[id]? with
  | some existing =>
    if existing = parents then ⟨graph, .duplicate⟩
    else
      let replaced := parents < existing
      let kept := if replaced then graph.parents.insert id parents else graph.parents
      let graph := { graph with
        parents := kept
        quarantineRoots :=
          mergeQuarantineReason graph.quarantineRoots id conflictingParentsReason }
      let graph := if replaced then { graph with cyclic := graph.allCyclicIds } else graph
      ⟨graph.recomputeQuarantine, .conflict⟩
  | none =>
    let missingParents := parents.filter fun parent => !graph.contains parent
    let graph := { graph with parents := graph.parents.insert id parents }
    let graph := { graph with
      cyclic := graph.cyclic.insertMany (graph.cycleMembers id).toList }
    let graph := graph.recomputeQuarantine
    let status := match graph.quarantined[id]? with
      | some reason => .quarantined reason
      | none => if graph.ancestorIdsPresent parents then .applied else .pending missingParents
    ⟨graph, status⟩

def quarantine (graph : CausalGraph Id) (id : Id) (reason : String) : CausalGraph Id :=
  { graph with
    quarantineRoots := mergeQuarantineReason graph.quarantineRoots id reason }.recomputeQuarantine

/-- One step of the parent merge of `union`. -/
def mergeParents (graph : CausalGraph Id) (id : Id) (requested : List Id) : CausalGraph Id :=
  let parents := normalizeParents requested
  match graph.parents[id]? with
  | some existing =>
    if existing = parents then graph
    else { graph with
      parents := if parents < existing then graph.parents.insert id parents else graph.parents
      quarantineRoots :=
        mergeQuarantineReason graph.quarantineRoots id conflictingParentsReason }
  | none => { graph with parents := graph.parents.insert id parents }

def union (graph other : CausalGraph Id) : CausalGraph Id :=
  let merged := other.parents.toList.foldl
    (fun merged (entry : Id × List Id) => merged.mergeParents entry.1 entry.2) graph
  let merged := { merged with
    quarantineRoots := other.quarantineRoots.toList.foldl
      (fun reasons (entry : Id × String) => mergeQuarantineReason reasons entry.1 entry.2)
      merged.quarantineRoots }
  { merged with cyclic := merged.allCyclicIds }.recomputeQuarantine

end CausalGraph

end Nook.Replication
