import Protobuf.Keyed

/-! # Tables

A table is a list of entries whose keys ascend, so that a table is determined by its answers. -/

namespace Protobuf

/-- Entries ordered by key, each key once. -/
structure Table (κ : Type) [KeyOrder κ] (α : Type) where
  entries : List (κ × α) := []
  ordered : Keyed.Ordered entries := by exact List.Pairwise.nil

namespace Table

variable {κ α β : Type} [KeyOrder κ]

instance : Inhabited (Table κ α) := ⟨{}⟩

instance [Repr κ] [Repr α] : Repr (Table κ α) := ⟨fun table => reprPrec table.entries⟩

instance [DecidableEq α] : DecidableEq (Table κ α) := fun left right =>
  decidable_of_iff (left.entries = right.entries)
    ⟨fun same => by cases left; cases right; cases same; rfl, fun same => by rw [same]⟩

/-- The table without entries. -/
def empty : Table κ α := {}

/-- The value of a key. -/
def get? (table : Table κ α) (key : κ) : Option α :=
  Keyed.get? key table.entries

/-- Whether a key has a value. -/
def contains (table : Table κ α) (key : κ) : Bool :=
  (table.get? key).isSome

/-- The table with the value of a key set. -/
def insert (table : Table κ α) (key : κ) (value : α) : Table κ α :=
  ⟨Keyed.insert key value table.entries, table.ordered.insert key value⟩

/-- The table with the value of a key set, unless the key has one. -/
def insertNew (table : Table κ α) (key : κ) (value : α) : Table κ α :=
  ⟨Keyed.insertNew key value table.entries, table.ordered.insertNew key value⟩

/-- The keys, ascending. -/
def keys (table : Table κ α) : List κ :=
  table.entries.map (·.1)

/-- The values, by ascending key. -/
def values (table : Table κ α) : List α :=
  table.entries.map (·.2)

@[simp] theorem get?_empty (key : κ) : (empty : Table κ α).get? key = none := rfl

theorem get?_insert (table : Table κ α) (key other : κ) (value : α) :
    (table.insert key value).get? other = if other = key then some value else table.get? other :=
  Keyed.get?_insert key other value table.entries

theorem get?_insertNew (table : Table κ α) (key other : κ) (value : α) :
    (table.insertNew key value).get? other =
      if other = key then some ((table.get? key).getD value) else table.get? other :=
  Keyed.get?_insertNew key other value table.entries

/-- Tables that answer every lookup alike are equal. -/
@[ext] theorem ext {left right : Table κ α} (same : ∀ key, left.get? key = right.get? key) :
    left = right := by
  obtain ⟨entries, ordered⟩ := left
  obtain ⟨others, ordered'⟩ := right
  have equal : entries = others := ordered.ext ordered' same
  subst equal
  rfl

end Table

/-- A set of keys, listed in ascending order. -/
abbrev KeySet (κ : Type) [KeyOrder κ] := Table κ Unit

namespace KeySet

variable {κ : Type} [KeyOrder κ]

/-- The set with a key added. -/
def add (set : KeySet κ) (key : κ) : KeySet κ :=
  Table.insert set key ()

/-- The set with every key of a list added. -/
def addAll (set : KeySet κ) (keys : List κ) : KeySet κ :=
  keys.foldl add set

end KeySet

end Protobuf
