import Mathlib

set_option autoImplicit false

namespace Nook.Lib

/-- A map iterated in the order of its keys. -/
abbrev BTreeMap (Key Value : Type) [LinearOrder Key] :=
  Std.ExtTreeMap Key Value (compare : Key → Key → Ordering)

/-- A set iterated in order. -/
abbrev BTreeSet (Key : Type) [LinearOrder Key] :=
  Std.ExtTreeSet Key (compare : Key → Key → Ordering)

variable {Key Value : Type} [LinearOrder Key]

/-- The order every map and set operation asks for, found in one step. -/
instance instTransCmpCompare : Std.TransCmp (compare : Key → Key → Ordering) := inferInstance

instance (priority := high) instTransCmpCompareText :
    Std.TransCmp (@compare (List Char) LinearOrder.toOrd) :=
  inferInstance

namespace BTreeMap

theorem getElem?_insert_eq (map : BTreeMap Key Value) (key other : Key) (value : Value) :
    (map.insert key value)[other]? = if key = other then some value else map[other]? := by
  simp only [Std.ExtTreeMap.getElem?_insert, compare_eq_iff_eq]

theorem mem_insert_eq (map : BTreeMap Key Value) (key other : Key) (value : Value) :
    other ∈ map.insert key value ↔ key = other ∨ other ∈ map := by
  simp only [Std.ExtTreeMap.mem_insert, compare_eq_iff_eq]

theorem mem_iff_getElem? (map : BTreeMap Key Value) (key : Key) :
    key ∈ map ↔ ∃ value, map[key]? = some value := by
  rw [Std.ExtTreeMap.mem_iff_isSome_getElem?, Option.isSome_iff_exists]

theorem not_mem_iff_getElem? (map : BTreeMap Key Value) (key : Key) :
    key ∉ map ↔ map[key]? = none := by
  rw [mem_iff_getElem?, Option.eq_none_iff_forall_ne_some]
  simp only [not_exists, ne_eq]

theorem mem_of_getElem? {map : BTreeMap Key Value} {key : Key} {value : Value}
    (found : map[key]? = some value) : key ∈ map :=
  (mem_iff_getElem? map key).mpr ⟨value, found⟩

theorem ext {left right : BTreeMap Key Value} (same : ∀ key : Key, left[key]? = right[key]?) :
    left = right :=
  Std.ExtTreeMap.ext_getElem? fun {key} => same key

theorem getElem?_map_eq {Result : Type} (map : BTreeMap Key Value) (f : Key → Value → Result)
    (key : Key) : (map.map f)[key]? = (map[key]?).map (f key) :=
  Std.ExtTreeMap.getElem?_map

theorem not_contains_iff (set : BTreeSet Key) (key : Key) :
    (!set.contains key) = true ↔ key ∉ set := by
  rw [Bool.not_eq_true', ← Bool.not_eq_true, Std.ExtTreeSet.contains_iff_mem]

theorem getElem?_excluding (map : BTreeMap Key Value) (excluded : BTreeSet Key) (key : Key) :
    (map.filter fun key _ => !excluded.contains key)[key]? =
      if key ∈ excluded then none else map[key]? := by
  rw [Std.ExtTreeMap.getElem?_filter']
  by_cases gone : key ∈ excluded
  · have dropped : excluded.contains key = true := Std.ExtTreeSet.contains_iff_mem.mpr gone
    cases map[key]? <;> simp [gone, dropped]
  · have kept := (not_contains_iff excluded key).mpr gone
    cases map[key]? <;> simp [gone, kept]

/-- Maps with the same keys list them alike. -/
theorem keys_congr {Other : Type} {map : BTreeMap Key Value} {other : BTreeMap Key Other}
    (same : ∀ key, key ∈ map ↔ key ∈ other) : map.keys = other.keys := by
  have shapes : map.map (fun _ _ => ()) = other.map (fun _ _ => ()) := by
    apply ext
    intro key
    rw [getElem?_map_eq, getElem?_map_eq]
    by_cases known : key ∈ map
    · obtain ⟨value, found⟩ := (mem_iff_getElem? map key).mp known
      obtain ⟨image, imageFound⟩ := (mem_iff_getElem? other key).mp ((same key).mp known)
      rw [found, imageFound]
      rfl
    · have unknown := fun member => known ((same key).mpr member)
      rw [(not_mem_iff_getElem? map key).mp known, (not_mem_iff_getElem? other key).mp unknown]
      rfl
  have keys_eq : ∀ {Any : Type} (some : BTreeMap Key Any),
      some.keys = ((some.map fun _ _ => ()).toList).map Prod.fst := by
    intro Any some
    rw [Std.ExtTreeMap.toList_map, List.map_map, ← Std.ExtTreeMap.map_fst_toList_eq_keys]
    rfl
  rw [keys_eq map, keys_eq other, shapes]

/-- The values in the order of their keys. -/
def intoValues (map : BTreeMap Key Value) : List Value := map.toList.map Prod.snd

theorem mem_intoValues (map : BTreeMap Key Value) (value : Value) :
    value ∈ map.intoValues ↔ ∃ key : Key, map[key]? = some value := by
  unfold intoValues
  simp only [List.mem_map, Prod.exists, Std.ExtTreeMap.mem_toList_iff_getElem?_eq_some,
    exists_eq_right]

/-- Add the entries whose key is still free, in order. -/
def insertAbsent (map : BTreeMap Key Value) (entries : List (Key × Value)) : BTreeMap Key Value :=
  entries.foldl (fun map entry =>
    if map.contains entry.1 then map else map.insert entry.1 entry.2) map

theorem getElem?_insertAbsent (map : BTreeMap Key Value) (entries : List (Key × Value))
    (key : Key) :
    (map.insertAbsent entries)[key]? =
      (map[key]?).or ((entries.find? (·.1 = key)).map Prod.snd) := by
  unfold insertAbsent
  induction entries generalizing map with
  | nil => simp
  | cons entry entries ih =>
    rw [List.foldl_cons, ih]
    by_cases same : entry.1 = key
    · rw [List.find?_cons_of_pos (by simpa using same)]
      split
      · rename_i known
        rw [same, Std.ExtTreeMap.contains_iff_mem, mem_iff_getElem?] at known
        obtain ⟨value, found⟩ := known
        simp [found]
      · rename_i absent
        rw [Std.ExtTreeMap.contains_iff_mem, same, not_mem_iff_getElem?] at absent
        simp [same, absent]
    · rw [List.find?_cons_of_neg (by simpa using same)]
      split
      · rfl
      · rw [getElem?_insert_eq, if_neg same]

/-- Inserting the kept entries of a list one after another leaves the last one of each key. -/
theorem getElem?_foldl_insert {α : Type} (keep : α → Bool) (keyOf : α → Key) (valueOf : α → Value)
    (list : List α) (map : BTreeMap Key Value) (key : Key) :
    (list.foldl (fun map a => if keep a then map.insert (keyOf a) (valueOf a) else map) map)[key]? =
      ((list.reverse.find? fun a => keep a && keyOf a = key).map valueOf).or map[key]? := by
  induction list generalizing map with
  | nil => simp
  | cons head tail ih =>
    rw [List.foldl_cons, ih, List.reverse_cons, List.find?_append]
    cases tail.reverse.find? fun a => keep a && keyOf a = key with
    | some last => rfl
    | none =>
      by_cases kept : keep head
      · rw [if_pos kept, getElem?_insert_eq]
        by_cases same : keyOf head = key
        · simp [kept, same]
        · simp [kept, same]
      · simp [kept]

theorem mem_toList_iff (map : BTreeMap Key Value) (key : Key) (value : Value) :
    (key, value) ∈ map.toList ↔ map[key]? = some value :=
  Std.ExtTreeMap.mem_toList_iff_getElem?_eq_some

theorem nodup_fst_toList (map : BTreeMap Key Value) : (map.toList.map Prod.fst).Nodup := by
  rw [Std.ExtTreeMap.map_fst_toList_eq_keys]
  exact Std.ExtTreeMap.nodup_keys

theorem mem_fst_toList (map : BTreeMap Key Value) (key : Key) :
    key ∈ map.toList.map Prod.fst ↔ key ∈ map := by
  rw [Std.ExtTreeMap.map_fst_toList_eq_keys, Std.ExtTreeMap.mem_keys]

/-- Filing entries of distinct keys one after another leaves each of them. -/
theorem getElem?_insertMany {list : List (Key × Value)} (distinct : (list.map Prod.fst).Nodup)
    (map : BTreeMap Key Value) (key : Key) :
    (map.insertMany list)[key]? = ((list.find? (·.1 = key)).map Prod.snd).or map[key]? := by
  induction list generalizing map with
  | nil => simp
  | cons entry list ih =>
    rw [List.map_cons, List.nodup_cons] at distinct
    rw [Std.ExtTreeMap.insertMany_cons, ih distinct.2, getElem?_insert_eq]
    by_cases same : entry.1 = key
    · have later : list.find? (·.1 = key) = none := by
        rw [List.find?_eq_none]
        intro other member matched
        rw [decide_eq_true_iff] at matched
        exact distinct.1 (List.mem_map.mpr ⟨other, member, matched.trans same.symm⟩)
      rw [later, if_pos same, List.find?_cons_of_pos (by simpa using same)]
      rfl
    · rw [if_neg same, List.find?_cons_of_neg (by simpa using same)]

theorem getElem?_insertMany_empty {list : List (Key × Value)}
    (distinct : (list.map Prod.fst).Nodup) (key : Key) (value : Value) :
    ((∅ : BTreeMap Key Value).insertMany list)[key]? = some value ↔ (key, value) ∈ list := by
  rw [getElem?_insertMany distinct, Std.ExtTreeMap.getElem?_empty, Option.or_none]
  constructor
  · intro found
    obtain ⟨entry, first, same⟩ := Option.map_eq_some_iff.mp found
    have matched := List.find?_some first
    rw [decide_eq_true_iff] at matched
    have pair : entry = (key, value) := Prod.ext matched same
    rw [← pair]
    exact List.mem_of_find?_eq_some first
  · intro member
    cases first : list.find? (·.1 = key) with
    | none =>
      have absent := List.find?_eq_none.mp first (key, value) member
      simp at absent
    | some entry =>
      have matched := List.find?_some first
      rw [decide_eq_true_iff] at matched
      have equal : entry = (key, value) :=
        List.inj_on_of_nodup_map distinct (List.mem_of_find?_eq_some first) member matched
      rw [equal]
      rfl

theorem mem_insertMany_empty {list : List (Key × Value)} (distinct : (list.map Prod.fst).Nodup)
    (key : Key) : key ∈ (∅ : BTreeMap Key Value).insertMany list ↔ key ∈ list.map Prod.fst := by
  rw [mem_iff_getElem?]
  simp only [getElem?_insertMany_empty distinct, List.mem_map, Prod.exists, exists_eq_right,
    exists_and_right]

theorem find?_toList (map : BTreeMap Key Value) (key : Key) :
    ((map.toList.find? (·.1 = key)).map Prod.snd) = map[key]? := by
  cases found : map.toList.find? (·.1 = key) with
  | none =>
    rw [List.find?_eq_none] at found
    rw [Option.map_none, eq_comm, ← not_mem_iff_getElem?, mem_iff_getElem?]
    rintro ⟨value, present⟩
    have member := Std.ExtTreeMap.mem_toList_iff_getElem?_eq_some.mpr present
    simpa using found _ member
  | some entry =>
    obtain ⟨same, member⟩ := And.intro (List.find?_some found) (List.mem_of_find?_eq_some found)
    rw [decide_eq_true_iff] at same
    rw [Option.map_some, eq_comm, ← same]
    exact Std.ExtTreeMap.mem_toList_iff_getElem?_eq_some.mp member

/-- The kept entries of a map under other keys, and nothing else. -/
theorem getElem?_foldl_entries {Other Result : Type} [LinearOrder Other] (map : BTreeMap Key Value)
    (rename : Key → Other) (injective : Function.Injective rename) (keep : Key × Value → Bool)
    (valueOf : Key × Value → Result) (key : Key) :
    (map.toList.foldl (fun (result : BTreeMap Other Result) entry =>
        if keep entry then result.insert (rename entry.1) (valueOf entry) else result)
      ∅)[rename key]? =
      (map[key]?).bind fun value =>
        if keep (key, value) then some (valueOf (key, value)) else none := by
  rw [getElem?_foldl_insert]
  have same_key : ∀ entry ∈ map.toList.reverse,
      (keep entry && rename entry.1 = rename key) = true →
        keep entry = true ∧ map[key]? = some entry.2 ∧ entry.1 = key := by
    intro entry member matched
    rw [Bool.and_eq_true, decide_eq_true_iff] at matched
    have same := injective matched.2
    have found := Std.ExtTreeMap.mem_toList_iff_getElem?_eq_some.mp (List.mem_reverse.mp member)
    exact ⟨matched.1, same ▸ found, same⟩
  cases found : map.toList.reverse.find? fun entry => keep entry && rename entry.1 = rename key with
  | some entry =>
    have matched := List.find?_some found
    obtain ⟨kept, value, same⟩ := same_key entry (List.mem_of_find?_eq_some found) matched
    have pair : entry = (key, entry.2) := Prod.ext same rfl
    rw [value, Option.bind_some, ← pair, if_pos kept]
    rfl
  | none =>
    rw [List.find?_eq_none] at found
    cases present : map[key]? with
    | none => simp
    | some value =>
      have member := Std.ExtTreeMap.mem_toList_iff_getElem?_eq_some.mpr present
      have dropped := found (key, value) (List.mem_reverse.mpr member)
      rw [Option.bind_some, if_neg (by simpa using dropped)]
      simp

end BTreeMap

end Nook.Lib
