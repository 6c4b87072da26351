import Mathlib.Data.List.Basic
import Mathlib.Order.Nat
import Stencil.Access

namespace Stencil

/-!
# The weight of what an access leads to

The weight of a value counts the values in it.  Going from a value to a field,
to an element or to what a search finds never gains weight, and the elements of
an array weigh less together than the array.  So a repetition inside another one
has the lighter payload to share among its rows.
-/

namespace Value

theorem weight_pos (value : Value) : 0 < value.weight := by
  cases value <;> simp [weight]

/-- The weight of a value that may be absent. -/
def heft (value : Option Value) : Nat := (value.map weight).getD 0

theorem weight_le_of_lookup {fields : List (String × Value)} {name : String} {value : Value}
    (found : fields.lookup name = some value) : value.weight ≤ weightFields fields := by
  induction fields with
  | nil => cases found
  | cons field rest ih =>
    obtain ⟨other, held⟩ := field
    rw [List.lookup_cons] at found
    rw [weightFields]
    cases same : name == other with
    | true =>
      simp only [same] at found
      cases found
      exact Nat.le_add_right _ _
    | false =>
      simp only [same] at found
      exact (ih found).trans (Nat.le_add_left _ _)

/-- A field weighs no more than the value it belongs to. -/
theorem weight_le_of_field? {value field : Value} {name : String}
    (found : value.field? name = some field) : field.weight ≤ value.weight := by
  unfold field? at found
  by_cases itself : name = ""
  · rw [if_pos itself] at found
    cases found
    exact le_rfl
  · rw [if_neg itself] at found
    cases value with
    | object fields =>
      rw [weight]
      exact (weight_le_of_lookup found).trans (Nat.le_succ _)
    | _ => cases found

theorem heft_field? (value : Option Value) (name : String) :
    heft (value.bind fun value => value.field? name) ≤ heft value := by
  cases value with
  | none => exact le_rfl
  | some value =>
    cases found : value.field? name with
    | none => simp [heft, found]
    | some field => simpa [heft, found] using weight_le_of_field? found

/-- The elements of an array weigh less than the array. -/
theorem weightItems_elements (value : Option Value) :
    weightItems (elements value) ≤ heft value - 1 := by
  match value with
  | some (.array items) => simp [elements, heft, weight]
  | some .null | some (.bool _) | some (.number _) | some (.string _) | some (.object _) | none =>
    simp [elements, weightItems]

theorem weightItems_le_of_sublist {fewer items : List Value} (kept : fewer.Sublist items) :
    weightItems fewer ≤ weightItems items := by
  induction kept with
  | slnil => exact le_rfl
  | cons item _ ih => exact ih.trans (Nat.le_add_left _ _)
  | cons_cons item _ ih => exact Nat.add_le_add_left ih _

theorem weight_le_weightItems {items : List Value} {item : Value} (member : item ∈ items) :
    item.weight ≤ weightItems items := by
  have kept := weightItems_le_of_sublist (List.singleton_sublist.mpr member)
  simpa [weightItems] using kept

end Value

namespace Condition

/-- Conditions only leave elements out. -/
theorem keep_sublist (conditions : List Condition) (items : List Value) :
    (keep conditions items).Sublist items := by
  have kept := (List.filter_sublist (l := items.zipIdx) (p := fun item =>
    allHold conditions item.1 item.2 items.length)).map Prod.fst
  simpa [keep] using kept

/-- The kept elements of a value weigh less than the value. -/
theorem weightItems_keep (conditions : List Condition) (value : Option Value) :
    Value.weightItems (keep conditions (Value.elements value)) ≤ Value.heft value - 1 :=
  (Value.weightItems_le_of_sublist (keep_sublist _ _)).trans (Value.weightItems_elements value)

theorem heft_head?_keep (conditions : List Condition) (value : Option Value) :
    Value.heft (keep conditions (Value.elements value)).head? ≤ Value.heft value := by
  cases first : (keep conditions (Value.elements value)).head? with
  | none => exact Nat.zero_le _
  | some item =>
    have light := Value.weight_le_weightItems (List.mem_of_head? first)
    exact (light.trans (weightItems_keep conditions value)).trans (Nat.sub_le _ _)

end Condition

/-- An access leads to nothing heavier than where it starts. -/
theorem Access.heft_reach (access : Access) (value : Option Value) :
    Value.heft (access.reach value) ≤ Value.heft value := by
  match access with
  | .field name => exact Value.heft_field? value name
  | .whole => exact le_rfl
  | .search (some name) conditions =>
    exact (Condition.heft_head?_keep conditions _).trans (Value.heft_field? value name)
  | .search none conditions => exact Condition.heft_head?_keep conditions value

end Stencil
