import Mathlib.Data.Rat.Defs

/-!
# JSON values

The values that an event carries in its metadata. A number of JSON is finite, so it is a rational;
an object is the list of its entries, in order.
-/

set_option autoImplicit false

namespace VmsLite.Data

inductive Json
  | null
  | bool (value : Bool)
  | number (value : ℚ)
  | string (text : List Char)
  | array (items : List Json)
  | object (entries : List (List Char × Json))

/-- A property of a value; only an object has properties of its own names. -/
def Json.property (name : List Char) : Json → Option Json
  | .object entries => entries.lookup name
  | _ => none

/-- Induction over the items of an array and the values of an object. -/
theorem Json.induct {motive : Json → Prop} (null : motive .null)
    (bool : ∀ value, motive (.bool value)) (number : ∀ value, motive (.number value))
    (string : ∀ text, motive (.string text))
    (array : ∀ items, (∀ item ∈ items, motive item) → motive (.array items))
    (object : ∀ entries, (∀ entry ∈ entries, motive entry.2) → motive (.object entries))
    (value : Json) : motive value := by
  match value with
  | .null => exact null
  | .bool value => exact bool value
  | .number value => exact number value
  | .string text => exact string text
  | .array items =>
    exact array items fun item _ ↦ induct null bool number string array object item
  | .object entries =>
    exact object entries fun entry _ ↦ induct null bool number string array object entry.2
termination_by sizeOf value
decreasing_by
  · have hitem := List.sizeOf_lt_of_mem ‹item ∈ items›
    simp only [Json.array.sizeOf_spec]
    omega
  · obtain ⟨key, value⟩ := entry
    have hentry := List.sizeOf_lt_of_mem ‹(key, value) ∈ entries›
    simp only [Json.object.sizeOf_spec, Prod.mk.sizeOf_spec] at hentry ⊢
    omega

end VmsLite.Data
