import Nook.Lib.LinearExtension

set_option autoImplicit false

namespace Nook.Lib

/-- A value that every element may overwrite ends as the last one that does left it. -/
theorem foldl_lastWrite {α β : Type} (write : α → Option β) (list : List α) (start : β) :
    list.foldl (fun value a => (write a).getD value) start =
      (list.reverse.findSome? write).getD start := by
  induction list using List.reverseRecOn with
  | nil => rfl
  | append_singleton list a ih =>
    rw [List.foldl_append, ih, List.reverse_append, List.findSome?_append]
    cases written : write a with
    | none => simp [written]
    | some value => simp [written]

/-- A value, the source that wrote it and the last source that marked it since. -/
structure Cell (ρ α : Type) where
  value : ρ
  writer : α
  mark : Option α

/-- What one source does to a cell. -/
inductive CellEffect (ρ : Type) where
  | keep
  | mark
  | clear
  | write (value : ρ) (marked : Bool)

variable {α ρ : Type}

namespace CellEffect

/-- The effect does not depend on what the cell held. -/
def writes : CellEffect ρ → Bool
  | clear => true
  | write _ _ => true
  | _ => false

def marks : CellEffect ρ → Bool
  | mark => true
  | _ => false

def apply (source : α) : CellEffect ρ → Option (Cell ρ α) → Option (Cell ρ α)
  | keep, cell => cell
  | mark, cell => cell.map fun cell => { cell with mark := some source }
  | clear, _ => none
  | write value marked, _ => some ⟨value, source, if marked then some source else none⟩

/-- The effect of two effects of one source in a row. -/
def andThen : CellEffect ρ → CellEffect ρ → CellEffect ρ
  | first, keep => first
  | _, clear => clear
  | _, write value marked => write value marked
  | keep, mark => mark
  | mark, mark => mark
  | clear, mark => clear
  | write value _, mark => write value true

theorem apply_andThen (source : α) (first second : CellEffect ρ) (cell : Option (Cell ρ α)) :
    (first.andThen second).apply source cell = second.apply source (first.apply source cell) := by
  cases second with
  | keep => cases first <;> rfl
  | clear => cases first <;> rfl
  | write value marked => cases first <;> rfl
  | mark =>
    cases first with
    | mark => cases cell <;> rfl
    | _ => rfl

/-- The effects of one source in a row, as one. -/
def combine (effects : List (CellEffect ρ)) : CellEffect ρ := effects.foldl andThen keep

theorem apply_combine (source : α) (effects : List (CellEffect ρ)) (cell : Option (Cell ρ α)) :
    (combine effects).apply source cell =
      effects.foldl (fun cell effect => effect.apply source cell) cell := by
  have general : ∀ (effects : List (CellEffect ρ)) (first : CellEffect ρ),
      (effects.foldl andThen first).apply source cell =
        effects.foldl (fun cell effect => effect.apply source cell) (first.apply source cell) := by
    intro effects
    induction effects with
    | nil => exact fun _ => rfl
    | cons effect effects ih =>
      intro first
      rw [List.foldl_cons, List.foldl_cons, ih, apply_andThen]
  exact general effects keep

/-- Effects that write nothing together mark the cell when one of them does. -/
theorem combine_marks (effects : List (CellEffect ρ))
    (unwritten : (combine effects).writes = false) :
    (combine effects).marks = true ↔ mark ∈ effects := by
  induction effects using List.reverseRecOn with
  | nil => simp [combine, marks]
  | append_singleton effects effect ih =>
    have step : combine (effects ++ [effect]) = (combine effects).andThen effect := by
      unfold combine
      rw [List.foldl_append]
      rfl
    rw [step] at unwritten ⊢
    generalize combine effects = first at ih unwritten ⊢
    rw [List.mem_append, List.mem_singleton]
    cases effect with
    | keep =>
      rw [show first.andThen keep = first by cases first <;> rfl] at unwritten ⊢
      rw [ih unwritten]
      simp
    | mark =>
      refine iff_of_true ?_ (Or.inr rfl)
      cases first with
      | keep => rfl
      | mark => rfl
      | clear => cases unwritten
      | write => cases unwritten
    | clear => cases first <;> cases unwritten
    | write => cases first <;> cases unwritten

/-- The value that an effect writes. -/
def written : CellEffect ρ → Option ρ
  | write value _ => some value
  | _ => none

/-- The effect writes an unmarked value or keeps the cell. -/
def Plain (effect : CellEffect ρ) : Prop := effect = keep ∨ ∃ value, effect = write value false

theorem apply_writes {effect : CellEffect ρ} (writes : effect.writes = true) (source : α)
    (cell : Option (Cell ρ α)) : effect.apply source cell = effect.apply source none := by
  cases effect with
  | keep => cases writes
  | mark => cases writes
  | clear => rfl
  | write => rfl

end CellEffect

/-- Every list splits at the last element with a property, if any has it. -/
theorem split_last (p : α → Bool) (list : List α) :
    (∀ a ∈ list, p a = false) ∨
      ∃ earlier a later, list = earlier ++ a :: later ∧ p a = true ∧ ∀ b ∈ later, p b = false := by
  induction list with
  | nil => exact Or.inl (by simp)
  | cons head tail ih =>
    rcases ih with without | ⟨earlier, a, later, split, has, last⟩
    · by_cases here : p head
      · exact Or.inr ⟨[], head, tail, rfl, here, without⟩
      · rw [Bool.not_eq_true] at here
        exact Or.inl (List.forall_mem_cons.mpr ⟨here, without⟩)
    · exact Or.inr ⟨head :: earlier, a, later, by rw [split]; rfl, has, last⟩

namespace Register

/-- The cell after the sources of a list, one after another. -/
def run (effect : α → CellEffect ρ) (order : List α) (cell : Option (Cell ρ α)) :
    Option (Cell ρ α) :=
  order.foldl (fun cell source => (effect source).apply source cell) cell

def lastMark (effect : α → CellEffect ρ) (order : List α) : Option α :=
  order.reverse.find? fun source => (effect source).marks

variable {effect : α → CellEffect ρ}

theorem lastMark_of_split {earlier later : List α} {a : α} (marks : (effect a).marks = true)
    (last : ∀ b ∈ later, (effect b).marks = false) :
    lastMark effect (earlier ++ a :: later) = some a := by
  have behind : (later.reverse.find? fun source => (effect source).marks) = none := by
    rw [List.find?_eq_none]
    intro b member
    rw [last b (List.mem_reverse.mp member)]
    exact Bool.false_ne_true
  unfold lastMark
  rw [List.reverse_append, List.reverse_cons, List.append_assoc, List.find?_append, behind]
  simp [marks]

theorem lastMark_of_none {order : List α} (without : ∀ a ∈ order, (effect a).marks = false) :
    lastMark effect order = none := by
  unfold lastMark
  rw [List.find?_eq_none]
  intro a member
  rw [without a (List.mem_reverse.mp member)]
  exact Bool.false_ne_true

theorem lastMark_mem {order : List α} {a : α} (found : lastMark effect order = some a) :
    a ∈ order ∧ (effect a).marks = true := by
  unfold lastMark at found
  have marks := List.find?_some found
  exact ⟨List.mem_reverse.mp (List.mem_of_find?_eq_some found), marks⟩

theorem lastMark_isSome {order : List α} {a : α} (member : a ∈ order)
    (marks : (effect a).marks = true) : ∃ last, lastMark effect order = some last := by
  cases found : lastMark effect order with
  | some last => exact ⟨last, rfl⟩
  | none =>
    unfold lastMark at found
    rw [List.find?_eq_none] at found
    exact absurd marks (found a (List.mem_reverse.mpr member))

/-- Without a writer only the mark of the cell changes. -/
theorem run_unwritten (order : List α) (unwritten : ∀ a ∈ order, (effect a).writes = false)
    (cell : Option (Cell ρ α)) :
    run effect order cell =
      cell.map fun cell => { cell with mark := (lastMark effect order).or cell.mark } := by
  induction order generalizing cell with
  | nil => cases cell <;> rfl
  | cons head tail ih =>
    rw [List.forall_mem_cons] at unwritten
    have split : lastMark effect (head :: tail) =
        (lastMark effect tail).or (if (effect head).marks then some head else none) := by
      unfold lastMark
      rw [List.reverse_cons, List.find?_append]
      congr 1
      cases marks : (effect head).marks with
      | true => exact List.find?_cons_of_pos marks
      | false => exact List.find?_cons_of_neg (by simp [marks])
    unfold run at ih ⊢
    rw [List.foldl_cons, ih unwritten.2, split]
    cases found : effect head with
    | keep => cases cell <;> simp [CellEffect.apply, CellEffect.marks]
    | mark => cases cell <;> simp [CellEffect.apply, CellEffect.marks]
    | clear =>
      rw [found] at unwritten
      cases unwritten.1
    | write value marked =>
      rw [found] at unwritten
      cases unwritten.1

/-- The last writer of an order decides the cell up to the marks behind it. -/
theorem run_of_split {earlier later : List α} {a : α} (writes : (effect a).writes = true)
    (last : ∀ b ∈ later, (effect b).writes = false) :
    run effect (earlier ++ a :: later) none =
      ((effect a).apply a none).map fun cell =>
        { cell with mark := (lastMark effect later).or cell.mark } := by
  have front : run effect (earlier ++ a :: later) none =
      run effect later ((effect a).apply a (run effect earlier none)) := by
    unfold run
    rw [List.foldl_append, List.foldl_cons]
  rw [front, CellEffect.apply_writes writes, run_unwritten later last]

/-- A cell in the end was written by the last writer, and has the last mark behind it. -/
theorem split_of_run {order : List α} {cell : Cell ρ α} (ran : run effect order none = some cell) :
    ∃ earlier later, order = earlier ++ cell.writer :: later ∧
      (∀ a ∈ later, (effect a).writes = false) ∧
        ∀ mark, lastMark effect later = some mark → cell.mark = some mark := by
  rcases split_last (fun a => (effect a).writes) order with
    unwritten | ⟨earlier, writer, later, split, writes, last⟩
  · rw [run_unwritten order unwritten] at ran
    cases ran
  · rw [split, run_of_split writes last] at ran
    cases wrote : effect writer with
    | keep => rw [wrote] at writes; cases writes
    | mark => rw [wrote] at writes; cases writes
    | clear =>
      rw [wrote] at ran
      cases ran
    | write value own =>
      rw [wrote] at ran
      have equal := Option.some.inj ran
      have same : writer = cell.writer := congrArg Cell.writer equal
      refine ⟨earlier, later, same ▸ split, last, ?_⟩
      intro mark found
      rw [← equal, found]
      rfl

/-- What a cell shows: its value, unless its mark is reached from its writer. -/
def shown (reach : α → α → Bool) (cell : Option (Cell ρ α)) : Option ρ :=
  cell.bind fun cell =>
    match cell.mark with
    | none => some cell.value
    | some mark => if reach cell.writer mark then none else some cell.value

/-- What the cell shows after an order of sources. -/
def outcome (reach : α → α → Bool) (effect : α → CellEffect ρ) (order : List α) : Option ρ :=
  shown reach (run effect order none)

variable {reach : α → α → Bool}

theorem outcome_unwritten {order : List α} (unwritten : ∀ a ∈ order, (effect a).writes = false) :
    outcome reach effect order = none := by
  unfold outcome
  rw [run_unwritten order unwritten]
  rfl

theorem outcome_clear {earlier later : List α} {a : α} (clears : effect a = .clear)
    (last : ∀ b ∈ later, (effect b).writes = false) :
    outcome reach effect (earlier ++ a :: later) = none := by
  unfold outcome
  rw [run_of_split (by rw [clears]; rfl) last, clears]
  rfl

theorem outcome_write {earlier later : List α} {a : α} {value : ρ} {marked : Bool}
    (writes : effect a = .write value marked) (last : ∀ b ∈ later, (effect b).writes = false) :
    outcome reach effect (earlier ++ a :: later) =
      match (lastMark effect later).or (if marked then some a else none) with
      | none => some value
      | some mark => if reach a mark then none else some value := by
  unfold outcome
  rw [run_of_split (by rw [writes]; rfl) last, writes]
  rfl

/-- Without marks and clears the outcome is the value written last. -/
theorem outcome_plain (order : List α) (plain : ∀ a ∈ order, (effect a).Plain) :
    outcome reach effect order = order.reverse.findSome? fun a => (effect a).written := by
  have kept : ∀ a ∈ order, (effect a).writes = false → (effect a).written = none := by
    intro a member unwritten
    rcases plain a member with keeps | ⟨value, writes⟩
    · rw [keeps]
      rfl
    · rw [writes] at unwritten
      cases unwritten
  have unmarked : ∀ a ∈ order, (effect a).marks = false := by
    intro a member
    rcases plain a member with keeps | ⟨value, writes⟩
    · rw [keeps]
      rfl
    · rw [writes]
      rfl
  rcases split_last (fun a => (effect a).writes) order with
    unwritten | ⟨earlier, a, later, rfl, writes, last⟩
  · rw [outcome_unwritten unwritten, eq_comm, List.findSome?_eq_none_iff]
    intro a member
    exact kept a (List.mem_reverse.mp member) (unwritten a (List.mem_reverse.mp member))
  · rcases plain a (by simp) with keeps | ⟨value, wrote⟩
    · rw [keeps] at writes
      cases writes
    · rw [outcome_write wrote last, lastMark_of_none fun b member => unmarked b (by simp [member])]
      have behind : (later.reverse.findSome? fun b => (effect b).written) = none := by
        rw [List.findSome?_eq_none_iff]
        intro b member
        have inside := List.mem_reverse.mp member
        exact kept b (by simp [inside]) (last b inside)
      rw [List.reverse_append, List.reverse_cons, List.append_assoc, List.findSome?_append, behind]
      simp [wrote, CellEffect.written]

/-! ### Which outcomes the linear extensions of a causal order have -/

section Extensions

variable (before : α → α → Prop) (member : α → Prop) (effect)

/-- A writer with no writer after it. -/
structure LastWriter (a : α) : Prop where
  inside : member a
  writes : (effect a).writes = true
  last : ∀ b, member b → before a b → (effect b).writes = false

/-- A mark that some order puts last, behind the writer it does not follow. -/
structure StrayMark (a mark : α) : Prop where
  inside : member mark
  marks : (effect mark).marks = true
  unrelated : ¬before a mark ∧ ¬before mark a
  unwritten : ∀ b, member b → before mark b → (effect b).writes = false
  unjoined : ∀ b, member b → before a b → before mark b → (effect b).marks = false

/-- Some order shows the value. -/
def CanShow (value : ρ) : Prop :=
  ∃ a marked, LastWriter effect before member a ∧ effect a = .write value marked ∧
    ((marked = false ∧ ∀ b, member b → before a b → (effect b).marks = false) ∨
      ∃ mark, StrayMark effect before member a mark)

/-- Some order shows nothing. -/
def CanHide : Prop :=
  (∀ a, member a → (effect a).writes = false) ∨
    ∃ a, LastWriter effect before member a ∧
      (effect a = .clear ∨ (∃ value, effect a = .write value true) ∨
        ∃ mark, member mark ∧ before a mark ∧ (effect mark).marks = true)

/-- Only one outcome is possible. -/
def Determined : Prop :=
  (CanHide effect before member → ∀ value, ¬CanShow effect before member value) ∧
    ∀ first second, CanShow effect before member first →
      CanShow effect before member second → first = second

end Extensions

section Outcomes

variable {before : α → α → Prop} {member : α → Prop} {order : List α}
  (reach_iff : ∀ a b, reach a b = true ↔ a = b ∨ before a b)
  (trans : ∀ a b c, before a b → before b c → before a c)
  (acyclic : ∀ a, member a → ¬before a a)

include acyclic in
/-- The last writer in an order has no writer after it. -/
theorem lastWriter_of_split {earlier later : List α} {a : α}
    (extension : LinearExtension before member (earlier ++ a :: later))
    (writes : (effect a).writes = true) (last : ∀ b ∈ later, (effect b).writes = false) :
    LastWriter effect before member a := by
  have inside : member a := (extension.mem_iff a).mp (by simp)
  refine ⟨inside, writes, ?_⟩
  intro b second path
  have apart : a ≠ b := by
    rintro rfl
    exact acyclic a inside path
  exact last b (extension.mem_later path apart second)

include reach_iff acyclic in
theorem canShow_of_outcome (extension : LinearExtension before member order) {value : ρ}
    (shows : outcome reach effect order = some value) : CanShow effect before member value := by
  rcases split_last (fun a => (effect a).writes) order with
    unwritten | ⟨earlier, a, later, rfl, writes, last⟩
  · rw [outcome_unwritten unwritten] at shows
    cases shows
  · have writer := lastWriter_of_split acyclic extension writes last
    cases wrote : effect a with
    | keep => rw [wrote] at writes; cases writes
    | mark => rw [wrote] at writes; cases writes
    | clear =>
      rw [outcome_clear wrote last] at shows
      cases shows
    | write written marked =>
      rw [outcome_write wrote last] at shows
      rcases split_last (fun b => (effect b).marks) later with
        unmarked | ⟨front, mark, back, rfl, marks, final⟩
      · rw [lastMark_of_none unmarked] at shows
        cases marked with
        | true =>
          have self : reach a a = true := (reach_iff a a).mpr (Or.inl rfl)
          simp [self] at shows
        | false =>
          injection shows with same
          subst same
          refine ⟨a, false, writer, wrote, Or.inl ⟨rfl, ?_⟩⟩
          intro b second path
          have apart : a ≠ b := by
            rintro rfl
            exact acyclic a writer.inside path
          exact unmarked b (extension.mem_later path apart second)
      · rw [lastMark_of_split marks final] at shows
        by_cases reached : reach a mark
        · simp [reached] at shows
        · simp only [Option.some_or, reached, if_false, Bool.false_eq_true,
            Option.some.injEq] at shows
          subst shows
          have inside : member mark := (extension.mem_iff mark).mp (by simp)
          have split : earlier ++ a :: (front ++ mark :: back) =
              (earlier ++ a :: front) ++ mark :: back := by simp
          have behind : ∀ b, member b → before mark b → b ∈ back := by
            intro b second path
            have apart : mark ≠ b := by
              rintro rfl
              exact acyclic mark inside path
            exact (split ▸ extension).mem_later path apart second
          refine ⟨a, marked, writer, wrote, Or.inr ⟨mark, inside, marks, ⟨?_, ?_⟩, ?_, ?_⟩⟩
          · exact fun path => reached ((reach_iff a mark).mpr (Or.inr path))
          · exact extension.not_before_of_split.2 (by simp)
          · exact fun b second path => last b (by simp [behind b second path])
          · exact fun b second _ path => final b (behind b second path)

include reach_iff acyclic in
theorem canHide_of_outcome (extension : LinearExtension before member order)
    (hides : outcome reach effect order = none) : CanHide effect before member := by
  rcases split_last (fun a => (effect a).writes) order with
    unwritten | ⟨earlier, a, later, rfl, writes, last⟩
  · exact Or.inl fun a inside => unwritten a ((extension.mem_iff a).mpr inside)
  · refine Or.inr ⟨a, lastWriter_of_split acyclic extension writes last, ?_⟩
    cases wrote : effect a with
    | keep => rw [wrote] at writes; cases writes
    | mark => rw [wrote] at writes; cases writes
    | clear => exact Or.inl rfl
    | write value marked =>
      cases marked with
      | true => exact Or.inr (Or.inl ⟨value, rfl⟩)
      | false =>
        rw [outcome_write wrote last] at hides
        cases found : lastMark effect later with
        | none =>
          rw [found] at hides
          cases hides
        | some mark =>
          obtain ⟨behind, marks⟩ := lastMark_mem found
          have reached : reach a mark = true := by
            by_contra unreached
            simp [found, unreached] at hides
          have apart : mark ≠ a := extension.ne_of_split.2 behind
          rcases (reach_iff a mark).mp reached with same | path
          · exact absurd same.symm apart
          · exact Or.inr (Or.inr ⟨mark, (extension.mem_iff mark).mp (by simp [behind]), path, marks⟩)

include reach_iff trans acyclic in
theorem exists_outcome_of_canShow (extension : LinearExtension before member order) {value : ρ}
    (possible : CanShow effect before member value) :
    ∃ order, LinearExtension before member order ∧ outcome reach effect order = some value := by
  obtain ⟨a, marked, writer, wrote, ⟨rfl, unmarked⟩ | ⟨mark, stray⟩⟩ := possible
  · obtain ⟨later, moved, above⟩ := extension.exists_behind reach_iff trans writer.inside
    have inside : ∀ b ∈ later, member b := fun b behind => (moved.mem_iff b).mp (by simp [behind])
    refine ⟨_, moved, ?_⟩
    rw [outcome_write wrote fun b behind => writer.last b (inside b behind) (above b behind),
      lastMark_of_none fun b behind => unmarked b (inside b behind) (above b behind)]
    rfl
  · -- Among the marks from the stray one on take one with none after it.
    let marked := order.filter fun b => reach mark b && (effect b).marks
    have mem_marked : ∀ b, b ∈ marked ↔
        member b ∧ (mark = b ∨ before mark b) ∧ (effect b).marks = true := by
      intro b
      simp only [marked, List.mem_filter, extension.mem_iff, Bool.and_eq_true, reach_iff]
    obtain ⟨final, inside, last⟩ := exists_minimal (fun b c => before c b)
      (fun b c d first second => trans d c b second first) marked
      (fun b found => acyclic b ((mem_marked b).mp found).1)
      (List.ne_nil_of_mem ((mem_marked mark).mpr ⟨stray.inside, Or.inl rfl, stray.marks⟩))
    obtain ⟨finalInside, fromMark, marks⟩ := (mem_marked final).mp inside
    have apart : a ≠ final := by
      rintro rfl
      rw [wrote] at marks
      cases marks
    have follows : ¬before a final := by
      intro path
      rcases fromMark with rfl | below
      · exact stray.unrelated.1 path
      · rw [stray.unjoined final finalInside path below] at marks
        cases marks
    have precedes : ¬before final a := by
      intro path
      rcases fromMark with rfl | below
      · exact stray.unrelated.2 path
      · exact stray.unrelated.2 (trans mark final a below path)
    obtain ⟨earlier, between, later, moved, aboveWriter, aboveMark⟩ :=
      extension.exists_behind_both reach_iff trans writer.inside finalInside apart precedes
    have present : ∀ b ∈ between ++ final :: later, member b := fun b found =>
      (moved.mem_iff b).mp (List.mem_append.mp found |>.elim (by simp +contextual) (by
        simp +contextual))
    have split : earlier ++ a :: between ++ final :: later =
        earlier ++ a :: (between ++ final :: later) := by simp
    have unwritten : ∀ b ∈ between ++ final :: later, (effect b).writes = false := by
      intro b found
      have inside := present b found
      rw [List.mem_append, List.mem_cons] at found
      rcases found with middle | rfl | tail
      · exact writer.last b inside (aboveWriter b middle)
      · cases found : effect b with
        | mark => rfl
        | _ => rw [found] at marks; cases marks
      · apply stray.unwritten b inside
        rcases fromMark with rfl | below
        · exact aboveMark b tail
        · exact trans mark final b below (aboveMark b tail)
    have unmarked : ∀ b ∈ later, (effect b).marks = false := by
      intro b tail
      have path := aboveMark b tail
      rw [← Bool.not_eq_true]
      intro other
      refine last b ((mem_marked b).mpr ⟨present b (by simp [tail]), Or.inr ?_, other⟩) path
      rcases fromMark with rfl | below
      · exact path
      · exact trans mark final b below path
    have unreached : ¬reach a final = true := by
      rw [reach_iff]
      rintro (same | path)
      · exact apart same
      · exact follows path
    refine ⟨_, moved, ?_⟩
    rw [split, outcome_write wrote unwritten, lastMark_of_split marks unmarked]
    simp [unreached]

include reach_iff trans acyclic in
theorem exists_outcome_of_canHide (extension : LinearExtension before member order)
    (possible : CanHide effect before member) :
    ∃ order, LinearExtension before member order ∧ outcome reach effect order = none := by
  rcases possible with unwritten | ⟨a, writer, hides⟩
  · exact ⟨order, extension, outcome_unwritten fun a inside =>
      unwritten a ((extension.mem_iff a).mp inside)⟩
  · obtain ⟨later, moved, above⟩ := extension.exists_behind reach_iff trans writer.inside
    have last : ∀ b ∈ later, (effect b).writes = false := fun b behind =>
      writer.last b ((moved.mem_iff b).mp (by simp [behind])) (above b behind)
    refine ⟨_, moved, ?_⟩
    have reached : ∀ mark ∈ later, reach a mark = true := fun mark behind =>
      (reach_iff a mark).mpr (Or.inr (above mark behind))
    cases wrote : effect a with
    | keep => have writes := writer.writes; rw [wrote] at writes; cases writes
    | mark => have writes := writer.writes; rw [wrote] at writes; cases writes
    | clear => exact outcome_clear wrote last
    | write value marked =>
      rw [outcome_write wrote last]
      cases found : lastMark effect later with
      | some mark => simp [reached mark (lastMark_mem found).1]
      | none =>
        rcases hides with clears | ⟨_, own⟩ | ⟨mark, inside, path, marks⟩
        · rw [wrote] at clears
          cases clears
        · rw [wrote] at own
          injection own with _ own
          have self : reach a a = true := (reach_iff a a).mpr (Or.inl rfl)
          simp [own, self]
        · have apart : a ≠ mark := by
            rintro rfl
            exact acyclic a inside path
          obtain ⟨_, some⟩ := lastMark_isSome (moved.mem_later path apart inside) marks
          rw [found] at some
          cases some

include reach_iff trans acyclic in
/-- All orders agree on the outcome exactly when only one outcome is possible. -/
theorem outcome_determined_iff (extension : LinearExtension before member order) :
    (∀ other, LinearExtension before member other →
        outcome reach effect other = outcome reach effect order) ↔
      Determined effect before member := by
  have attained : ∀ value, CanShow effect before member value →
      ∃ other, LinearExtension before member other ∧ outcome reach effect other = some value :=
    fun value possible => exists_outcome_of_canShow reach_iff trans acyclic extension possible
  constructor
  · intro agree
    refine ⟨?_, ?_⟩
    · intro hides value shows
      obtain ⟨left, leftExtension, hidden⟩ :=
        exists_outcome_of_canHide reach_iff trans acyclic extension hides
      obtain ⟨right, rightExtension, shown⟩ := attained value shows
      rw [agree left leftExtension, ← agree right rightExtension, shown] at hidden
      cases hidden
    · intro first second firstShows secondShows
      obtain ⟨left, leftExtension, leftShown⟩ := attained first firstShows
      obtain ⟨right, rightExtension, rightShown⟩ := attained second secondShows
      rw [agree left leftExtension, ← agree right rightExtension, rightShown] at leftShown
      injection leftShown with same
      exact same.symm
  · rintro ⟨exclusive, single⟩ other otherExtension
    cases found : outcome reach effect other with
    | none =>
      have hides := canHide_of_outcome reach_iff acyclic otherExtension found
      cases same : outcome reach effect order with
      | none => rfl
      | some value =>
        exact absurd (canShow_of_outcome reach_iff acyclic extension same) (exclusive hides value)
    | some value =>
      have shows := canShow_of_outcome reach_iff acyclic otherExtension found
      cases same : outcome reach effect order with
      | none =>
        have hides := canHide_of_outcome reach_iff acyclic extension same
        exact absurd shows (exclusive hides value)
      | some original =>
        rw [single value original shows (canShow_of_outcome reach_iff acyclic extension same)]

end Outcomes

end Register

end Nook.Lib
