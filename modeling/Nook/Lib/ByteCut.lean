import Mathlib

set_option autoImplicit false

namespace Nook.Lib

/-- The length of a text in UTF-8 bytes. -/
def byteLen (text : List Char) : Nat := (text.map Char.utf8Size).sum

/-- A text cut at a byte position, if that lies between two characters. -/
def cutAt : List Char → Nat → Option (List Char × List Char)
  | text, 0 => some ([], text)
  | [], _ + 1 => none
  | head :: tail, position + 1 =>
    if head.utf8Size ≤ position + 1 then
      (cutAt tail (position + 1 - head.utf8Size)).map fun (before, after) => (head :: before, after)
    else none

/-- The part of a text between two byte positions, if both lie between characters. -/
def byteRange (text : List Char) (start stop : Nat) : Option (List Char) :=
  if stop < start then none
  else (cutAt text start).bind fun (_, after) => (cutAt after (stop - start)).map Prod.fst

@[simp] theorem byteLen_nil : byteLen [] = 0 := rfl

@[simp] theorem byteLen_cons (head : Char) (tail : List Char) :
    byteLen (head :: tail) = head.utf8Size + byteLen tail := by
  simp only [byteLen, List.map_cons, List.sum_cons]

@[simp] theorem byteLen_append (left right : List Char) :
    byteLen (left ++ right) = byteLen left + byteLen right := by
  simp only [byteLen, List.map_append, List.sum_append]

theorem byteLen_eq_zero {text : List Char} : byteLen text = 0 ↔ text = [] := by
  cases text with
  | nil => simp
  | cons head tail =>
    have positive := head.utf8Size_pos
    simp only [byteLen_cons, List.cons_ne_nil, iff_false]
    omega

theorem cutAt_eq_some {text before after : List Char} {position : Nat} :
    cutAt text position = some (before, after) ↔
      text = before ++ after ∧ byteLen before = position := by
  induction text generalizing position before with
  | nil =>
    cases position with
    | zero =>
      simp only [cutAt, Option.some.injEq, Prod.mk.injEq, List.nil_eq_append_iff, byteLen_eq_zero]
      tauto
    | succ position =>
      simp only [cutAt, reduceCtorEq, List.nil_eq_append_iff, false_iff]
      rintro ⟨⟨rfl, _⟩, long⟩
      cases long
  | cons head tail ih =>
    cases position with
    | zero =>
      simp only [cutAt, Option.some.injEq, Prod.mk.injEq, byteLen_eq_zero]
      constructor
      · rintro ⟨rfl, rfl⟩
        exact ⟨rfl, rfl⟩
      · rintro ⟨same, rfl⟩
        exact ⟨rfl, same⟩
    | succ position =>
      have positive := head.utf8Size_pos
      unfold cutAt
      constructor
      · intro found
        split at found
        · rename_i fits
          obtain ⟨⟨rest, own⟩, cut, same⟩ := Option.map_eq_some_iff.mp found
          cases same
          obtain ⟨whole, long⟩ := ih.mp cut
          rw [byteLen_cons, whole, long]
          exact ⟨rfl, by omega⟩
        · cases found
      · rintro ⟨whole, long⟩
        cases before with
        | nil => cases long
        | cons first rest =>
          obtain ⟨rfl, tails⟩ := List.cons.inj whole
          rw [byteLen_cons] at long
          have cut : cutAt tail (position + 1 - head.utf8Size) = some (rest, after) :=
            ih.mpr ⟨tails, by omega⟩
          rw [if_pos (by omega), cut]
          rfl

/-- A text is cut at one byte position in one way only. -/
theorem append_inj_byteLen {left right left' right' : List Char}
    (same : left ++ right = left' ++ right') (long : byteLen left = byteLen left') :
    left = left' ∧ right = right' := by
  have cut : cutAt (left ++ right) (byteLen left) = some (left, right) :=
    cutAt_eq_some.mpr ⟨rfl, rfl⟩
  have cut' : cutAt (left ++ right) (byteLen left) = some (left', right') :=
    cutAt_eq_some.mpr ⟨same, long.symm⟩
  exact Prod.mk.inj (Option.some.inj (cut.symm.trans cut'))

theorem byteRange_append {before after piece : List Char} {length : Nat} :
    byteRange (before ++ after) (byteLen before) (byteLen before + length) = some piece ↔
      ∃ rest, after = piece ++ rest ∧ byteLen piece = length := by
  have cut : cutAt (before ++ after) (byteLen before) = some (before, after) :=
    cutAt_eq_some.mpr ⟨rfl, rfl⟩
  have ordered : ¬ byteLen before + length < byteLen before := by omega
  unfold byteRange
  rw [if_neg ordered, cut, Option.bind_some, Nat.add_sub_cancel_left, Option.map_eq_some_iff]
  constructor
  · rintro ⟨⟨own, rest⟩, found, rfl⟩
    exact ⟨rest, cutAt_eq_some.mp found⟩
  · rintro ⟨rest, found⟩
    exact ⟨(piece, rest), cutAt_eq_some.mpr found, rfl⟩

end Nook.Lib
