import Nook.Lib.Except
import Nook.Lib.OrderedMap

set_option autoImplicit false

namespace Nook.Lib

variable {ε α β : Type}

/-! ### The steps of a traversal that succeeds -/

theorem foldlM_step {step : β → α → Except ε β} {list : List α} {start result : β}
    (folded : list.foldlM step start = .ok result) {a : α} (member : a ∈ list) :
    ∃ state next, step state a = .ok next := by
  induction list generalizing start with
  | nil => cases member
  | cons head tail ih =>
    rw [List.foldlM_cons] at folded
    obtain ⟨middle, first, rest⟩ := bind_eq_ok.mp folded
    rcases List.mem_cons.mp member with same | later
    · exact ⟨start, middle, same ▸ first⟩
    · exact ih rest later

theorem mapM_step {step : α → Except ε β} {list : List α} {results : List β}
    (collected : list.mapM step = .ok results) {a : α} (member : a ∈ list) :
    ∃ b ∈ results, step a = .ok b := by
  induction list generalizing results with
  | nil => cases member
  | cons head tail ih =>
    rw [List.mapM_cons] at collected
    obtain ⟨first, headOk, collected⟩ := bind_eq_ok.mp collected
    obtain ⟨others, tailOk, same⟩ := bind_eq_ok.mp collected
    cases same
    rcases List.mem_cons.mp member with same | later
    · exact ⟨first, List.mem_cons_self, same ▸ headOk⟩
    · obtain ⟨b, inside, stepped⟩ := ih tailOk later
      exact ⟨b, List.mem_cons_of_mem _ inside, stepped⟩

/-- What is read off the results of a traversal is what each step says of its element. -/
theorem map_mapM_eq_ok {γ : Type} {step : α → Except ε β} {f : β → γ} {g : α → γ}
    (reads : ∀ a b, step a = .ok b → f b = g a) {list : List α} {results : List β}
    (collected : list.mapM step = .ok results) : results.map f = list.map g := by
  induction list generalizing results with
  | nil =>
    cases collected
    rfl
  | cons head tail ih =>
    rw [List.mapM_cons] at collected
    obtain ⟨first, headOk, collected⟩ := bind_eq_ok.mp collected
    obtain ⟨others, tailOk, same⟩ := bind_eq_ok.mp collected
    cases same
    rw [List.map_cons, List.map_cons, reads head first headOk, ih tailOk]

theorem toOption_eq_some {result : Except ε α} {value : α} :
    result.toOption = some value ↔ result = .ok value := by
  cases result <;> simp [Except.toOption]

/-- A fold that reads each element first: all are read, then what is read is folded. -/
theorem foldlM_read_eq_ok {γ : Type} {read : α → Except ε β} {f : γ → β → γ} {list : List α}
    {start result : γ} :
    list.foldlM (fun state a => do return f state (← read a)) start = .ok result ↔
      ∃ values, list.mapM read = .ok values ∧ values.foldl f start = result := by
  induction list generalizing start with
  | nil => simp [pure, Except.pure]
  | cons head tail ih =>
    rw [List.foldlM_cons, List.mapM_cons]
    constructor
    · intro folded
      obtain ⟨next, first, rest⟩ := bind_eq_ok.mp folded
      obtain ⟨value, headOk, same⟩ := bind_eq_ok.mp first
      obtain ⟨values, tailOk, done⟩ := ih.mp rest
      cases same
      exact ⟨value :: values, bind_eq_ok.mpr ⟨value, headOk, bind_eq_ok.mpr ⟨values, tailOk, rfl⟩⟩,
        done⟩
    · rintro ⟨all, collected, done⟩
      obtain ⟨value, headOk, collected⟩ := bind_eq_ok.mp collected
      obtain ⟨values, tailOk, same⟩ := bind_eq_ok.mp collected
      cases same
      exact bind_eq_ok.mpr ⟨f start value, bind_eq_ok.mpr ⟨value, headOk, rfl⟩,
        ih.mpr ⟨values, tailOk, done⟩⟩

/-- A traversal in which every step succeeds. -/
theorem mapM_eq_ok_map {step : α → Except ε β} {f : α → β} {list : List α}
    (each : ∀ a ∈ list, step a = .ok (f a)) : list.mapM step = .ok (list.map f) := by
  induction list with
  | nil => rfl
  | cons head tail ih =>
    rw [List.mapM_cons, each head (by simp)]
    show (List.mapM step tail >>= _) = _
    rw [ih fun a member => each a (by simp [member])]
    rfl

/-- What a traversal made, traversed again. -/
theorem mapM_mapM_eq_ok {γ : Type} {step : α → Except ε β} {next : β → Except ε γ} {f : α → γ}
    {list : List α} (steps : ∀ a ∈ list, ∀ b, step a = .ok b → next b = .ok (f a))
    {results : List β} (collected : list.mapM step = .ok results) :
    results.mapM next = .ok (list.map f) := by
  induction list generalizing results with
  | nil =>
    cases collected
    rfl
  | cons head tail ih =>
    rw [List.mapM_cons] at collected
    obtain ⟨first, headOk, collected⟩ := bind_eq_ok.mp collected
    obtain ⟨others, tailOk, same⟩ := bind_eq_ok.mp collected
    cases same
    rw [List.mapM_cons, steps head (by simp) first headOk]
    show (List.mapM next others >>= _) = _
    rw [ih (fun a member => steps a (by simp [member])) tailOk]
    rfl

theorem mapM_append_eq_ok {step : α → Except ε β} {left right : List α} {first second : List β}
    (collected : left.mapM step = .ok first) (collected' : right.mapM step = .ok second) :
    (left ++ right).mapM step = .ok (first ++ second) := by
  rw [List.mapM_append, collected]
  show (List.mapM step right >>= _) = _
  rw [collected']
  rfl

theorem mapM_range'_eq_ok {step : Nat → Except ε α} {list : List α} {offset : Nat}
    (each : ∀ position a, list[position]? = some a → step (offset + position) = .ok a) :
    (List.range' offset list.length).mapM step = .ok list := by
  induction list generalizing offset with
  | nil => rfl
  | cons head tail ih =>
    have first : step offset = .ok head := each 0 head rfl
    have rest : (List.range' (offset + 1) tail.length).mapM step = .ok tail := by
      apply ih
      intro position a found
      rw [Nat.add_assoc, Nat.add_comm 1]
      exact each (position + 1) a found
    rw [List.length_cons, List.range'_succ, List.mapM_cons, first]
    show (List.mapM step _ >>= _) = _
    rw [rest]
    rfl

/-- A fold whose every successful step keeps an invariant. -/
theorem foldlM_keeps {step : β → α → Except ε β} {Inv : β → Prop} {list : List α}
    (keeps : ∀ a ∈ list, ∀ state next, Inv state → step state a = .ok next → Inv next)
    {start result : β} (holds : Inv start) (folded : list.foldlM step start = .ok result) :
    Inv result := by
  induction list generalizing start with
  | nil =>
    cases folded
    exact holds
  | cons head tail ih =>
    rw [List.foldlM_cons] at folded
    obtain ⟨middle, first, rest⟩ := bind_eq_ok.mp folded
    exact ih (fun a member => keeps a (by simp [member])) (keeps head (by simp) start middle holds
      first) rest

/-- Erasing keys one after another. -/
theorem BTreeMap.getElem?_foldl_erase {Key Value : Type} [LinearOrder Key] (keys : List Key)
    (map : BTreeMap Key Value) (key : Key) :
    (keys.foldl (fun map key => map.erase key) map)[key]? =
      if key ∈ keys then none else map[key]? := by
  induction keys generalizing map with
  | nil => simp
  | cons head tail ih =>
    simp only [List.foldl_cons, ih, Std.ExtTreeMap.getElem?_erase, compare_eq_iff_eq]
    by_cases again : key ∈ tail
    · simp [again]
    · by_cases itself : head = key
      · simp [itself]
      · simp [again, itself, Ne.symm itself]

end Nook.Lib
