import Mathlib.Data.List.Nodup

set_option autoImplicit false

namespace Nook.Lib

/-- A JSON value as a derived decoder tells it apart: the fields of an object in
their order, unsigned integers apart from the other numbers. -/
inductive Json where
  | null
  | bool (value : Bool)
  | natural (value : Nat)
  | number (text : List Char)
  | text (value : List Char)
  | array (items : List Json)
  | object (fields : List (String × Json))

/-- A reader and a writer of JSON texts. -/
class JsonText where
  parse : List Char → Option Json
  print : Json → List Char

/-- A value is read back from the text written of it. -/
def Json.ReadsBack [JsonText] (json : Json) : Prop :=
  JsonText.parse (JsonText.print json) = some json

theorem Json.ReadsBack.parse_print [JsonText] {json : Json} (readsBack : json.ReadsBack) :
    JsonText.parse (JsonText.print json) = some json := readsBack

namespace Json

/-- The one value a field has, if any; a repeated field is refused. -/
def fieldValue (fields : List (String × Json)) (name : String) : Option (Option Json) :=
  match fields.filter (·.1 = name) with
  | [] => some none
  | [field] => some (some field.2)
  | _ => none

/-- The values that a struct decoder finds for its fields: by name in an object,
by position in an array. A name it does not know is passed over. -/
def fieldValues (names : List String) : Json → Option (List (Option Json))
  | object fields => names.mapM (fieldValue fields)
  | array items =>
    if items.length ≤ names.length then
      some (items.map some ++ List.replicate (names.length - items.length) none)
    else none
  | _ => none

/-- A struct as it is written, without the fields that are skipped. -/
def struct (fields : List (String × Option Json)) : Json :=
  object (fields.filterMap fun field => field.2.map fun value => (field.1, value))

theorem fieldValue_struct {fields : List (String × Option Json)}
    (distinct : (fields.map Prod.fst).Nodup) (name : String) :
    fieldValue (fields.filterMap fun field => field.2.map fun value => (field.1, value)) name =
      some ((fields.lookup name).join) := by
  induction fields with
  | nil => rfl
  | cons head rest ih =>
    obtain ⟨own, held⟩ := head
    obtain ⟨absent, distinct⟩ := List.nodup_cons.mp distinct
    have later : (rest.filterMap fun field => field.2.map fun value => (field.1, value)).filter
        (·.1 = own) = [] := by
      rw [List.filter_eq_nil_iff]
      rintro entry member same
      obtain ⟨field, listed, made⟩ := List.mem_filterMap.mp member
      obtain ⟨value, _, rfl⟩ := Option.map_eq_some_iff.mp made
      have named : field.1 = own := by simpa using same
      exact absent (List.mem_map.mpr ⟨field, listed, named⟩)
    by_cases same : own = name
    · subst same
      rw [List.lookup_cons, beq_self_eq_true]
      unfold fieldValue
      cases held with
      | none => simp only [List.filterMap_cons, Option.map_none, later, Option.join_some]
      | some value =>
        simp only [List.filterMap_cons, Option.map_some, decide_true, List.filter_cons_of_pos,
          later, Option.join_some]
    · have passed : (name == own) = false := by simpa using fun equal => same equal.symm
      rw [List.lookup_cons, passed]
      refine Eq.trans ?_ (ih distinct)
      unfold fieldValue
      cases held with
      | none => simp only [List.filterMap_cons, Option.map_none]
      | some value =>
        simp only [List.filterMap_cons, Option.map_some, same, decide_false, Bool.false_eq_true,
          not_false_eq_true, List.filter_cons_of_neg]

/-- A decoder finds in a written struct what was written, and nothing else. -/
theorem fieldValues_struct {fields : List (String × Option Json)}
    (distinct : (fields.map Prod.fst).Nodup) (names : List String) :
    fieldValues names (struct fields) =
      some (names.map fun name => (fields.lookup name).join) := by
  induction names with
  | nil => rfl
  | cons head rest ih =>
    have later : rest.mapM (fieldValue
        (fields.filterMap fun field => field.2.map fun value => (field.1, value))) =
          some (rest.map fun name => (fields.lookup name).join) := ih
    change (head :: rest).mapM (fieldValue
      (fields.filterMap fun field => field.2.map fun value => (field.1, value))) = _
    rw [List.mapM_cons, fieldValue_struct distinct, later]
    rfl

end Json

end Nook.Lib
