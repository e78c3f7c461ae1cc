/-! # Lists of entries ordered by key

Entries are pairs of a key and a value, kept with their keys ascending. `insert` replaces the
value of a key that is there already, `insertNew` leaves it alone. Looking up after either needs
no order; that the order is kept does. Main statement: two ordered lists that answer every
lookup alike are equal. -/

namespace Protobuf

/-- A strict total order on keys. -/
class KeyOrder (κ : Type) extends LT κ where
  decEq : DecidableEq κ
  decLt : DecidableLT κ
  lt_irrefl : ∀ a : κ, ¬ a < a
  lt_trans : ∀ {a b c : κ}, a < b → b < c → a < c
  lt_of_not : ∀ {a b : κ}, ¬ a < b → a ≠ b → b < a

instance (priority := low) instDecidableEqOfKeyOrder (κ : Type) [KeyOrder κ] : DecidableEq κ :=
  KeyOrder.decEq

instance (priority := low) instDecidableLTOfKeyOrder (κ : Type) [KeyOrder κ] : DecidableLT κ :=
  KeyOrder.decLt

instance instKeyOrderNat : KeyOrder Nat where
  decEq := inferInstance
  decLt := inferInstance
  lt_irrefl := Nat.lt_irrefl
  lt_trans := Nat.lt_trans
  lt_of_not h ne := Nat.lt_of_le_of_ne (Nat.le_of_not_lt h) (Ne.symm ne)

instance instKeyOrderString : KeyOrder String where
  decEq := inferInstance
  decLt := inferInstance
  lt_irrefl := String.lt_irrefl
  lt_trans := String.lt_trans
  lt_of_not {a b} h ne := by
    rcases (inferInstance : Std.Trichotomous (α := String) (· < ·)).rel_or_eq_or_rel_swap
      (a := a) (b := b) with lt | eq | gt
    · exact absurd lt h
    · exact absurd eq ne
    · exact gt

namespace Keyed

variable {κ α : Type} [KeyOrder κ]

/-- The value of a key. -/
def get? (key : κ) : List (κ × α) → Option α
  | [] => none
  | (k, v) :: rest => if key = k then some v else get? key rest

/-- The entries with the value of a key set. -/
def insert (key : κ) (value : α) : List (κ × α) → List (κ × α)
  | [] => [(key, value)]
  | (k, v) :: rest =>
    if key = k then (key, value) :: rest
    else if key < k then (key, value) :: (k, v) :: rest
    else (k, v) :: insert key value rest

/-- The entries with the value of a key set, unless the key has one. -/
def insertNew (key : κ) (value : α) (entries : List (κ × α)) : List (κ × α) :=
  if (get? key entries).isSome then entries else insert key value entries

/-- The entries without a key. -/
def erase (key : κ) (entries : List (κ × α)) : List (κ × α) :=
  entries.filter (·.1 ≠ key)

/-- Whether a key has a value. -/
def contains (key : κ) (entries : List (κ × α)) : Bool :=
  (get? key entries).isSome

/-- The keys ascend from left to right. -/
def Ordered (entries : List (κ × α)) : Prop :=
  entries.Pairwise (·.1 < ·.1)

@[simp] theorem get?_nil (key : κ) : get? key ([] : List (κ × α)) = none := rfl

theorem get?_insert (key other : κ) (value : α) (entries : List (κ × α)) :
    get? other (insert key value entries) =
      if other = key then some value else get? other entries := by
  induction entries with
  | nil => rfl
  | cons entry rest ih =>
    obtain ⟨k, v⟩ := entry
    grind [insert, get?]

theorem get?_insertNew (key other : κ) (value : α) (entries : List (κ × α)) :
    get? other (insertNew key value entries) =
      if other = key then some ((get? key entries).getD value) else get? other entries := by
  unfold insertNew
  cases held : get? key entries with
  | none => simp [get?_insert]
  | some old => by_cases same : other = key <;> simp [same, held]

theorem get?_erase (key other : κ) (entries : List (κ × α)) :
    get? other (erase key entries) = if other = key then none else get? other entries := by
  induction entries with
  | nil => simp [erase]
  | cons entry rest ih =>
    obtain ⟨k, v⟩ := entry
    unfold erase at ih ⊢
    by_cases same : k = key <;> grind [get?]

theorem mem_of_get?_eq_some {key : κ} {value : α} {entries : List (κ × α)}
    (held : get? key entries = some value) : (key, value) ∈ entries := by
  induction entries with
  | nil => cases held
  | cons entry rest ih =>
    obtain ⟨k, v⟩ := entry
    grind [get?]

theorem mem_insert {key : κ} {value : α} {entry : κ × α} {entries : List (κ × α)}
    (held : entry ∈ insert key value entries) : entry = (key, value) ∨ entry ∈ entries := by
  induction entries with
  | nil => simpa [insert] using held
  | cons head rest ih =>
    obtain ⟨k, v⟩ := head
    grind [insert]

theorem Ordered.insert {entries : List (κ × α)} (ordered : Ordered entries) (key : κ)
    (value : α) : Ordered (insert key value entries) := by
  induction entries with
  | nil => exact List.pairwise_singleton _ _
  | cons head rest ih =>
    obtain ⟨k, v⟩ := head
    have tail := List.pairwise_cons.1 ordered
    unfold Keyed.insert
    split
    · rename_i same
      subst same
      exact List.pairwise_cons.2 tail
    · rename_i ne
      split
      · rename_i before
        refine List.pairwise_cons.2 ⟨fun entry held => ?_, ordered⟩
        rcases List.mem_cons.1 held with rfl | later
        · exact before
        · exact KeyOrder.lt_trans before (tail.1 entry later)
      · rename_i after
        refine List.pairwise_cons.2 ⟨fun entry held => ?_, ih tail.2⟩
        rcases mem_insert held with rfl | later
        · exact KeyOrder.lt_of_not after ne
        · exact tail.1 entry later

theorem Ordered.insertNew {entries : List (κ × α)} (ordered : Ordered entries) (key : κ)
    (value : α) : Ordered (insertNew key value entries) := by
  unfold Keyed.insertNew
  split
  · exact ordered
  · exact ordered.insert key value

theorem Ordered.erase {entries : List (κ × α)} (ordered : Ordered entries) (key : κ) :
    Ordered (erase key entries) :=
  List.Pairwise.sublist (List.filter_sublist ..) ordered

theorem get?_eq_none_of_lt {key : κ} {entries : List (κ × α)}
    (before : ∀ entry ∈ entries, key < entry.1) : get? key entries = none := by
  induction entries with
  | nil => rfl
  | cons head rest ih =>
    obtain ⟨k, v⟩ := head
    have first := before (k, v) List.mem_cons_self
    have ne : key ≠ k := fun same => KeyOrder.lt_irrefl k (same ▸ first)
    simp only [get?, ne, if_false]
    exact ih fun entry held => before entry (List.mem_cons_of_mem _ held)

/-- Ordered entries that answer every lookup alike are the same entries. -/
theorem Ordered.ext {entries others : List (κ × α)} (ordered : Ordered entries)
    (ordered' : Ordered others) (same : ∀ key, get? key entries = get? key others) :
    entries = others := by
  induction entries generalizing others with
  | nil =>
    cases others with
    | nil => rfl
    | cons head rest => simpa [get?] using same head.1
  | cons head rest ih =>
    obtain ⟨k, v⟩ := head
    cases others with
    | nil => simpa [get?] using same k
    | cons head' rest' =>
      obtain ⟨k', v'⟩ := head'
      have tail := List.pairwise_cons.1 ordered
      have tail' := List.pairwise_cons.1 ordered'
      have keys : k = k' := by
        rcases (inferInstance : Decidable (k < k')) with notLt | lt
        · rcases (inferInstance : Decidable (k = k')) with ne | eq
          · have gt := KeyOrder.lt_of_not notLt ne
            have found := same k'
            have missing : get? k' ((k, v) :: rest) = none :=
              get?_eq_none_of_lt fun entry held => by
                rcases List.mem_cons.1 held with rfl | later
                · exact gt
                · exact KeyOrder.lt_trans gt (tail.1 entry later)
            rw [missing] at found
            simp [get?] at found
          · exact eq
        · have found := same k
          have missing : get? k ((k', v') :: rest') = none :=
            get?_eq_none_of_lt fun entry held => by
              rcases List.mem_cons.1 held with rfl | later
              · exact lt
              · exact KeyOrder.lt_trans lt (tail'.1 entry later)
          rw [missing] at found
          simp [get?] at found
      subst keys
      have values : v = v' := by simpa [get?] using same k
      subst values
      rw [ih tail.2 tail'.2 fun key => ?_]
      by_cases here : key = k
      · subst here
        rw [get?_eq_none_of_lt tail.1, get?_eq_none_of_lt tail'.1]
      · simpa [get?, here] using same key

end Keyed

end Protobuf
