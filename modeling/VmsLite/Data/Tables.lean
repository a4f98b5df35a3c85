import Mathlib.Data.List.Basic
import Mathlib.Logic.Function.Basic

/-!
# Tables with keys and references

Tables of rows in the order in which they were written. A row has an id; a schema says which other
values are unique within a table and which values are ids of rows of another table. A write that
would break one of these is refused.
-/

set_option autoImplicit false

namespace VmsLite.Data

abbrev Tables (Model Row : Type) := Model → List Row

structure Schema (Model Row Id : Type) where
  id : Row → Id
  /-- The values that no two rows share; a row without a value is not bound. -/
  uniqueKeys : Model → List (Row → Option (List Id))
  /-- The values that are ids of rows of a table; a row without a value refers to none. -/
  references : Model → List ((Row → Option Id) × Model)

namespace Schema

variable {Model Row Id : Type} [DecidableEq Model] [DecidableEq Id]
  (schema : Schema Model Row Id)

/-- Two rows that cannot both be in a table. -/
def Clash (model : Model) (row other : Row) : Prop :=
  schema.id row = schema.id other ∨
    ∃ key ∈ schema.uniqueKeys model, key row ≠ none ∧ key row = key other

instance (model : Model) (row other : Row) : Decidable (schema.Clash model row other) :=
  inferInstanceAs (Decidable (_ ∨ _))

/-- The rows that a row refers to are there. -/
def Resolved (tables : Tables Model Row) (model : Model) (row : Row) : Prop :=
  ∀ reference ∈ schema.references model, ∀ id ∈ reference.1 row,
    ∃ other ∈ tables reference.2, schema.id other = id

instance (tables : Tables Model Row) (model : Model) (row : Row) :
    Decidable (schema.Resolved tables model row) :=
  inferInstanceAs (Decidable (∀ reference ∈ schema.references model, ∀ id ∈ reference.1 row,
    ∃ other ∈ tables reference.2, schema.id other = id))

def insert (tables : Tables Model Row) (model : Model) (row : Row) : Option (Tables Model Row) :=
  if (∀ other ∈ tables model, ¬ schema.Clash model row other) ∧ schema.Resolved tables model row then
    some (Function.update tables model (tables model ++ [row]))
  else none

/-- Put a row in the place of the one with its id. -/
def replace (tables : Tables Model Row) (model : Model) (row : Row) : Option (Tables Model Row) :=
  if (∀ other ∈ tables model, schema.id other = schema.id row ∨ ¬ schema.Clash model row other) ∧
      schema.Resolved tables model row then
    some (Function.update tables model ((tables model).map fun other ↦
      if schema.id other = schema.id row then row else other))
  else none

structure Valid (tables : Tables Model Row) : Prop where
  unique : ∀ model, (tables model).Pairwise fun row other ↦ ¬ schema.Clash model row other
  resolved : ∀ model, ∀ row ∈ tables model, schema.Resolved tables model row

section Writes

variable {schema} {tables after : Tables Model Row} {model : Model} {row other : Row}

omit [DecidableEq Model] [DecidableEq Id] in
theorem Clash.symm (hclash : schema.Clash model row other) : schema.Clash model other row := by
  rcases hclash with hid | ⟨key, hkey, hvalue, hsame⟩
  · exact Or.inl hid.symm
  · exact Or.inr ⟨key, hkey, hsame ▸ hvalue, hsame.symm⟩

theorem insert_eq_some_iff : schema.insert tables model row = some after ↔
    (∀ other ∈ tables model, ¬ schema.Clash model row other) ∧ schema.Resolved tables model row ∧
      after = Function.update tables model (tables model ++ [row]) := by
  unfold insert
  split_ifs with hallowed
  · rw [Option.some.injEq, eq_comm]
    exact ⟨fun hafter ↦ ⟨hallowed.1, hallowed.2, hafter⟩, fun hafter ↦ hafter.2.2⟩
  · exact ⟨nofun, fun hafter ↦ (hallowed ⟨hafter.1, hafter.2.1⟩).elim⟩

theorem replace_eq_some_iff : schema.replace tables model row = some after ↔
    (∀ other ∈ tables model, schema.id other = schema.id row ∨ ¬ schema.Clash model row other) ∧
      schema.Resolved tables model row ∧
      after = Function.update tables model ((tables model).map fun other ↦
        if schema.id other = schema.id row then row else other) := by
  unfold replace
  split_ifs with hallowed
  · rw [Option.some.injEq, eq_comm]
    exact ⟨fun hafter ↦ ⟨hallowed.1, hallowed.2, hafter⟩, fun hafter ↦ hafter.2.2⟩
  · exact ⟨nofun, fun hafter ↦ (hallowed ⟨hafter.1, hafter.2.1⟩).elim⟩

end Writes

end Schema

end VmsLite.Data
