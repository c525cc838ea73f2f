import Nook.Lib.LinearExtension

set_option autoImplicit false

namespace Nook.Lib.Journal

variable {α γ : Type}

/-- The journal after the sources of a list: each one first clears it or not,
then adds its own entries. -/
def run (clears : α → Bool) (entries : α → List γ) (order : List α) (journal : List (α × γ)) :
    List (α × γ) :=
  order.foldl (fun journal source =>
    (if clears source then [] else journal) ++ (entries source).map (Prod.mk source)) journal

variable {clears : α → Bool} {entries : α → List γ}

/-- An entry stays exactly when no source behind its own clears the journal. -/
theorem mem_run {order : List α} (nodup : order.Nodup) (a : α) (entry : γ) :
    (a, entry) ∈ run clears entries order [] ↔
      a ∈ order ∧ entry ∈ entries a ∧ ∀ b, [a, b].Sublist order → clears b = false := by
  induction order using List.reverseRecOn with
  | nil => simp [run]
  | append_singleton order last ih =>
    obtain ⟨nodup, _, fresh⟩ := List.nodup_append.mp nodup
    have absent : last ∉ order := fun member => fresh last member last (by simp) rfl
    have step : run clears entries (order ++ [last]) [] =
        (if clears last then [] else run clears entries order []) ++
          (entries last).map (Prod.mk last) := by
      unfold run
      rw [List.foldl_append]
      rfl
    have own : (a, entry) ∈ (entries last).map (Prod.mk last) ↔ a = last ∧ entry ∈ entries a := by
      simp only [List.mem_map, Prod.mk.injEq]
      constructor
      · rintro ⟨_, member, rfl, rfl⟩
        exact ⟨rfl, member⟩
      · rintro ⟨rfl, member⟩
        exact ⟨entry, member, rfl, rfl⟩
    have behind : ∀ b, [last, b].Sublist (order ++ [last]) → False := by
      intro b inside
      rw [pair_sublist_concat] at inside
      rcases inside with inside | ⟨member, _⟩
      · exact absent (inside.subset (by simp))
      · exact absent member
    rw [step, List.mem_append, own, List.mem_append, List.mem_singleton]
    constructor
    · rintro (old | ⟨rfl, member⟩)
      · by_cases clearing : clears last
        · simp [clearing] at old
        · rw [if_neg clearing, ih nodup] at old
          obtain ⟨inside, member, kept⟩ := old
          refine ⟨Or.inl inside, member, ?_⟩
          intro b later
          rw [pair_sublist_concat] at later
          rcases later with later | ⟨_, rfl⟩
          · exact kept b later
          · simpa using clearing
      · exact ⟨Or.inr rfl, member, fun b later => (behind b later).elim⟩
    · rintro ⟨inside | rfl, member, kept⟩
      · left
        have uncleared : clears last = false :=
          kept last ((pair_sublist_concat a last last order).mpr (Or.inr ⟨inside, rfl⟩))
        rw [uncleared, if_neg Bool.false_ne_true, ih nodup]
        exact ⟨inside, member, fun b later =>
          kept b ((pair_sublist_concat a b last order).mpr (Or.inl later))⟩
      · exact Or.inr ⟨rfl, member⟩

/-! ### Which linear extensions leave unrelated entries -/

section Extensions

variable (clears) (entries) (before : α → α → Prop)

/-- The journal holds entries of two sources, neither of which is before the other. -/
def Forked (order : List α) : Prop :=
  ∃ a b left right, (a, left) ∈ run clears entries order [] ∧
    (b, right) ∈ run clears entries order [] ∧ a ≠ b ∧ ¬before a b ∧ ¬before b a

/-- Two unrelated sources with entries, no clearing source after either, not both clearing. -/
structure Fork (member : α → Prop) (a b : α) : Prop where
  inside : member a ∧ member b
  unrelated : a ≠ b ∧ ¬before a b ∧ ¬before b a
  entered : entries a ≠ [] ∧ entries b ≠ []
  uncleared : ∀ c, member c → before a c ∨ before b c → clears c = false
  notBoth : clears a = false ∨ clears b = false

end Extensions

variable {before : α → α → Prop} {member : α → Prop} {order : List α}

theorem Fork.symm {a b : α} (fork : Fork clears entries before member a b) :
    Fork clears entries before member b a where
  inside := fork.inside.symm
  unrelated := ⟨fork.unrelated.1.symm, fork.unrelated.2.2, fork.unrelated.2.1⟩
  entered := fork.entered.symm
  uncleared c inside path := fork.uncleared c inside path.symm
  notBoth := fork.notBoth.symm

theorem fork_of_forked (acyclic : ∀ a, member a → ¬before a a)
    (extension : LinearExtension before member order)
    (forked : Forked clears entries before order) :
    ∃ a b, Fork clears entries before member a b := by
  obtain ⟨a, b, left, right, first, second, apart, unrelated⟩ := forked
  rw [mem_run extension.nodup] at first second
  have kept : ∀ d ∈ order, (∀ c, [d, c].Sublist order → clears c = false) →
      ∀ c, member c → before d c → clears c = false := by
    intro d known kept c inside path
    have apart : d ≠ c := by
      rintro rfl
      exact acyclic d inside path
    exact kept c (extension.precedes apart path ((extension.mem_iff d).mp known) inside)
  refine ⟨a, b, ⟨(extension.mem_iff a).mp first.1, (extension.mem_iff b).mp second.1⟩,
    ⟨apart, unrelated⟩, ⟨List.ne_nil_of_mem first.2.1, List.ne_nil_of_mem second.2.1⟩, ?_, ?_⟩
  · intro c inside path
    exact path.elim (kept a first.1 first.2.2 c inside) (kept b second.1 second.2.2 c inside)
  · rcases pair_sublist_total apart order first.1 second.1 with ahead | behind
    · exact Or.inr (first.2.2 b ahead)
    · exact Or.inl (second.2.2 a behind)

theorem exists_forked_of_fork {reach : α → α → Bool}
    (reach_iff : ∀ a b, reach a b = true ↔ a = b ∨ before a b)
    (trans : ∀ a b c, before a b → before b c → before a c)
    (extension : LinearExtension before member order) {a b : α}
    (fork : Fork clears entries before member a b) :
    ∃ order, LinearExtension before member order ∧ Forked clears entries before order := by
  -- The source that may clear goes first.
  have ordered : ∀ a b, Fork clears entries before member a b → clears b = false →
      ∃ order, LinearExtension before member order ∧ Forked clears entries before order := by
    intro a b fork uncleared
    obtain ⟨earlier, between, later, moved, aboveFirst, aboveSecond⟩ :=
      extension.exists_behind_both reach_iff trans fork.inside.1 fork.inside.2 fork.unrelated.1
        fork.unrelated.2.2
    obtain ⟨left, entered⟩ := List.exists_mem_of_ne_nil _ fork.entered.1
    obtain ⟨right, alsoEntered⟩ := List.exists_mem_of_ne_nil _ fork.entered.2
    have known : ∀ c ∈ earlier ++ a :: between ++ b :: later, member c :=
      fun c => (moved.mem_iff c).mp
    have nodup := moved.nodup
    refine ⟨_, moved, a, b, left, right, (mem_run nodup a left).mpr ⟨by simp, entered, ?_⟩,
      (mem_run nodup b right).mpr ⟨by simp, alsoEntered, ?_⟩, fork.unrelated⟩
    · intro c behind
      have split : earlier ++ a :: between ++ b :: later =
          earlier ++ a :: (between ++ b :: later) := by simp
      rw [split] at behind nodup known
      have inside := (pair_sublist_split nodup).mp behind
      have isMember := known c (by simp [inside])
      rw [List.mem_append, List.mem_cons] at inside
      rcases inside with middle | rfl | tail
      · exact fork.uncleared c isMember (Or.inl (aboveFirst c middle))
      · exact uncleared
      · exact fork.uncleared c isMember (Or.inr (aboveSecond c tail))
    · intro c behind
      have tail := (pair_sublist_split nodup).mp behind
      exact fork.uncleared c (known c (by simp [tail])) (Or.inr (aboveSecond c tail))
  rcases fork.notBoth with first | second
  · exact ordered b a fork.symm first
  · exact ordered a b fork second

end Nook.Lib.Journal
