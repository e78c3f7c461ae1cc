import Mathlib.Data.List.Induction
import Mathlib.Data.List.Nodup
import Protobuf.Value.Basic

/-! # Entries of maps

How setting entries one after another changes a map whose keys are told apart by equality. Main
statements: setting the entries of a second map and then those of a third is setting the entries
that the third makes of the second, `setEntries_assoc`, and entries set in an empty map leave the
last of each key, `lastOfEach_setEntries`.

## Implementation notes

Equality of values is not identity, so the keys are held to a class of values on which it is. -/

namespace Protobuf.Value

/-- Equality of values in a class is identity. -/
def SameIsEq (keys : Value → Prop) : Prop :=
  ∀ a b, keys a → keys b → (a.same b ↔ a = b)

/-- A map with further entries set. -/
def setEntries (entries more : List (Value × Value)) : List (Value × Value) :=
  more.foldl (fun entries (key, value) => setEntry key value entries) entries

variable {keys : Value → Prop} {key value : Value} {entries more : List (Value × Value)}

@[simp] theorem setEntries_nil : setEntries entries [] = entries := rfl

@[simp] theorem setEntries_cons (entry : Value × Value) :
    setEntries entries (entry :: more) = setEntries (setEntry entry.1 entry.2 entries) more := rfl

theorem setEntries_append (others : List (Value × Value)) :
    setEntries entries (more ++ others) = setEntries (setEntries entries more) others :=
  List.foldl_append

theorem mem_setEntry {entry : Value × Value} (identity : SameIsEq keys) (isKey : keys key)
    (areKeys : ∀ held ∈ entries, keys held.1) (held : entry ∈ setEntry key value entries) :
    entry = (key, value) ∨ entry ∈ entries := by
  induction entries with
  | nil => exact .inl (List.mem_singleton.1 held)
  | cons head rest ih =>
    obtain ⟨k, v⟩ := head
    obtain ⟨isKey', areKeys⟩ := List.forall_mem_cons.1 areKeys
    rw [setEntry] at held
    split at held
    · rename_i same
      obtain rfl := (identity k key isKey' isKey).1 same
      rcases List.mem_cons.1 held with rfl | later
      · exact .inl rfl
      · exact .inr (List.mem_cons_of_mem _ later)
    · rcases List.mem_cons.1 held with rfl | later
      · exact .inr List.mem_cons_self
      · rcases ih areKeys later with here | there
        · exact .inl here
        · exact .inr (List.mem_cons_of_mem _ there)

/-- The entry of a new key goes to the end. -/
theorem setEntry_of_not_mem (identity : SameIsEq keys) (isKey : keys key)
    (areKeys : ∀ held ∈ entries, keys held.1) (fresh : key ∉ entries.map (·.1)) :
    setEntry key value entries = entries ++ [(key, value)] := by
  induction entries with
  | nil => rfl
  | cons head rest ih =>
    obtain ⟨k, v⟩ := head
    obtain ⟨isKey', areKeys⟩ := List.forall_mem_cons.1 areKeys
    rw [List.map_cons, List.mem_cons, not_or] at fresh
    have differs : ¬k.same key := fun same => fresh.1 ((identity k key isKey' isKey).1 same).symm
    rw [setEntry, if_neg differs, List.cons_append, ih areKeys fresh.2]

/-- Setting the entry of a key that is there changes no key. -/
theorem keys_setEntry_of_mem (identity : SameIsEq keys) (isKey : keys key)
    (areKeys : ∀ held ∈ entries, keys held.1) (there : key ∈ entries.map (·.1)) :
    (setEntry key value entries).map (·.1) = entries.map (·.1) := by
  induction entries with
  | nil => cases there
  | cons head rest ih =>
    obtain ⟨k, v⟩ := head
    obtain ⟨isKey', areKeys⟩ := List.forall_mem_cons.1 areKeys
    have same := identity k key isKey' isKey
    rw [setEntry]
    by_cases here : k = key
    · rw [if_pos (same.2 here), List.map_cons, List.map_cons]
    · rw [if_neg fun equal => here (same.1 equal), List.map_cons, List.map_cons]
      rw [List.map_cons, List.mem_cons] at there
      rw [ih areKeys (there.resolve_left fun equal => here equal.symm)]

theorem nodup_setEntry (identity : SameIsEq keys) (isKey : keys key)
    (areKeys : ∀ held ∈ entries, keys held.1) (distinct : (entries.map (·.1)).Nodup) :
    ((setEntry key value entries).map (·.1)).Nodup := by
  by_cases there : key ∈ entries.map (·.1)
  · rwa [keys_setEntry_of_mem identity isKey areKeys there]
  · rw [setEntry_of_not_mem identity isKey areKeys there, List.map_append]
    exact distinct.append (List.nodup_singleton _) (by simpa using there)

theorem mem_keys_setEntry (identity : SameIsEq keys) (isKey : keys key)
    (areKeys : ∀ held ∈ entries, keys held.1) : key ∈ (setEntry key value entries).map (·.1) := by
  by_cases there : key ∈ entries.map (·.1)
  · rwa [keys_setEntry_of_mem identity isKey areKeys there]
  · simp [setEntry_of_not_mem identity isKey areKeys there]

theorem mem_setEntry_self (identity : SameIsEq keys) (isKey : keys key)
    (areKeys : ∀ held ∈ entries, keys held.1) : (key, value) ∈ setEntry key value entries := by
  induction entries with
  | nil => exact List.mem_singleton_self _
  | cons head rest ih =>
    obtain ⟨k, v⟩ := head
    obtain ⟨isKey', areKeys⟩ := List.forall_mem_cons.1 areKeys
    rw [setEntry]
    split
    · rename_i same
      rw [(identity k key isKey' isKey).1 same]
      exact List.mem_cons_self
    · exact List.mem_cons_of_mem _ (ih areKeys)

/-- Setting the entry of a key leaves those of other keys. -/
theorem mem_setEntry_of_ne (identity : SameIsEq keys) (isKey : keys key)
    (areKeys : ∀ held ∈ entries, keys held.1) {entry : Value × Value} (held : entry ∈ entries)
    (apart : entry.1 ≠ key) : entry ∈ setEntry key value entries := by
  induction entries with
  | nil => cases held
  | cons head rest ih =>
    obtain ⟨k, v⟩ := head
    obtain ⟨isKey', areKeys⟩ := List.forall_mem_cons.1 areKeys
    rw [setEntry]
    rcases List.mem_cons.1 held with rfl | later
    · rw [if_neg fun same => apart ((identity k key isKey' isKey).1 same)]
      exact List.mem_cons_self
    · split
      · exact List.mem_cons_of_mem _ later
      · exact List.mem_cons_of_mem _ (ih areKeys later)

/-- Of two values set for a key, the later one stays. -/
theorem setEntry_setEntry (identity : SameIsEq keys) (isKey : keys key)
    (areKeys : ∀ held ∈ entries, keys held.1) (earlier : Value) :
    setEntry key value (setEntry key earlier entries) = setEntry key value entries := by
  induction entries with
  | nil => simp [setEntry, (identity key key isKey isKey).2 rfl]
  | cons head rest ih =>
    obtain ⟨k, v⟩ := head
    by_cases same : k.same key
    · simp [setEntry, same]
    · simp [setEntry, same, ih (List.forall_mem_cons.1 areKeys).2]

/-- The value of a key that is there can be set before or after that of another key. -/
theorem setEntry_comm (identity : SameIsEq keys) {other held : Value} (isKey : keys key)
    (isKey' : keys other) (areKeys : ∀ held ∈ entries, keys held.1) (differs : key ≠ other)
    (there : key ∈ entries.map (·.1)) :
    setEntry key value (setEntry other held entries) =
      setEntry other held (setEntry key value entries) := by
  induction entries with
  | nil => cases there
  | cons head rest ih =>
    obtain ⟨k, v⟩ := head
    obtain ⟨isKey'', areKeys⟩ := List.forall_mem_cons.1 areKeys
    by_cases here : k = key
    · subst here
      have same : k.same k := (identity k k isKey isKey).2 rfl
      have apart : ¬k.same other := fun equal => differs ((identity k other isKey isKey').1 equal)
      simp [setEntry, same, apart]
    · have apart : ¬k.same key := fun equal => here ((identity k key isKey'' isKey).1 equal)
      have later : key ∈ rest.map (·.1) := by
        rw [List.map_cons, List.mem_cons] at there
        exact there.resolve_left fun equal => here equal.symm
      have again := ih areKeys later
      by_cases same : k.same other <;> simp [setEntry, apart, same, again]

theorem areKeys_setEntry (identity : SameIsEq keys) (isKey : keys key)
    (areKeys : ∀ held ∈ entries, keys held.1) :
    ∀ held ∈ setEntry key value entries, keys held.1 := by
  intro held there
  rcases mem_setEntry identity isKey areKeys there with rfl | before
  · exact isKey
  · exact areKeys held before

/-- The entry of a key that further entries leave alone can be set before or after them. -/
theorem setEntry_setEntries (identity : SameIsEq keys) (isKey : keys key)
    (areKeys : ∀ held ∈ entries, keys held.1) (areKeys' : ∀ held ∈ more, keys held.1)
    (there : key ∈ entries.map (·.1)) (untouched : key ∉ more.map (·.1)) :
    setEntry key value (setEntries entries more) =
      setEntries (setEntry key value entries) more := by
  induction more generalizing entries with
  | nil => rfl
  | cons head rest ih =>
    obtain ⟨k, v⟩ := head
    obtain ⟨isKey', areKeys'⟩ := List.forall_mem_cons.1 areKeys'
    rw [List.map_cons, List.mem_cons, not_or] at untouched
    have there' : key ∈ (setEntry k v entries).map (·.1) := by
      by_cases old : k ∈ entries.map (·.1)
      · rwa [keys_setEntry_of_mem identity isKey' areKeys old]
      · rw [setEntry_of_not_mem identity isKey' areKeys old, List.map_append]
        exact List.mem_append_left _ there
    rw [setEntries_cons, setEntries_cons,
      ih (areKeys_setEntry identity isKey' areKeys) areKeys' there' untouched.2,
      setEntry_comm identity isKey isKey' areKeys untouched.1 there]

/-- An entry set in the second of two maps is set in both together. -/
theorem setEntries_setEntry (identity : SameIsEq keys) (isKey : keys key)
    (areKeys : ∀ held ∈ entries, keys held.1) (areKeys' : ∀ held ∈ more, keys held.1)
    (distinct : (more.map (·.1)).Nodup) :
    setEntries entries (setEntry key value more) =
      setEntry key value (setEntries entries more) := by
  induction more generalizing entries with
  | nil => rfl
  | cons head rest ih =>
    obtain ⟨k, v⟩ := head
    obtain ⟨isKey', areKeys''⟩ := List.forall_mem_cons.1 areKeys'
    obtain ⟨fresh, distinct⟩ := List.nodup_cons.1 distinct
    have same := identity k key isKey' isKey
    rw [setEntry]
    by_cases here : k = key
    · -- The key is set in place, before entries that do not have it.
      subst here
      rw [if_pos (same.2 rfl), setEntries_cons, setEntries_cons,
        setEntry_setEntries identity isKey (areKeys_setEntry identity isKey areKeys) areKeys''
          (mem_keys_setEntry identity isKey areKeys) fresh,
        setEntry_setEntry identity isKey areKeys]
    · rw [if_neg fun equal => here (same.1 equal), setEntries_cons, setEntries_cons,
        ih (areKeys_setEntry identity isKey' areKeys) areKeys'' distinct]

theorem areKeys_setEntries (identity : SameIsEq keys) (areKeys : ∀ held ∈ entries, keys held.1)
    (areKeys' : ∀ held ∈ more, keys held.1) : ∀ held ∈ setEntries entries more, keys held.1 := by
  induction more generalizing entries with
  | nil => exact areKeys
  | cons head rest ih =>
    obtain ⟨isKey, areKeys'⟩ := List.forall_mem_cons.1 areKeys'
    exact ih (areKeys_setEntry identity isKey areKeys) areKeys'

theorem nodup_setEntries (identity : SameIsEq keys) (areKeys : ∀ held ∈ entries, keys held.1)
    (areKeys' : ∀ held ∈ more, keys held.1) (distinct : (entries.map (·.1)).Nodup) :
    ((setEntries entries more).map (·.1)).Nodup := by
  induction more generalizing entries with
  | nil => exact distinct
  | cons head rest ih =>
    obtain ⟨isKey, areKeys'⟩ := List.forall_mem_cons.1 areKeys'
    exact ih (areKeys_setEntry identity isKey areKeys) areKeys'
      (nodup_setEntry identity isKey areKeys distinct)

theorem mem_setEntries {entry : Value × Value} (identity : SameIsEq keys)
    (areKeys : ∀ held ∈ entries, keys held.1) (areKeys' : ∀ held ∈ more, keys held.1)
    (held : entry ∈ setEntries entries more) : entry ∈ entries ∨ entry ∈ more := by
  induction more generalizing entries with
  | nil => exact .inl held
  | cons head rest ih =>
    obtain ⟨isKey, areKeys'⟩ := List.forall_mem_cons.1 areKeys'
    rcases ih (areKeys_setEntry identity isKey areKeys) areKeys' held with here | later
    · rcases mem_setEntry identity isKey areKeys here with rfl | before
      · exact .inr List.mem_cons_self
      · exact .inl before
    · exact .inr (List.mem_cons_of_mem _ later)

/-- Setting entries groups either way. -/
theorem setEntries_assoc {others : List (Value × Value)} (identity : SameIsEq keys)
    (areKeys : ∀ held ∈ entries, keys held.1) (areKeys' : ∀ held ∈ more, keys held.1)
    (areKeys'' : ∀ held ∈ others, keys held.1) (distinct : (more.map (·.1)).Nodup) :
    setEntries (setEntries entries more) others = setEntries entries (setEntries more others) := by
  induction others generalizing more with
  | nil => rfl
  | cons head rest ih =>
    obtain ⟨isKey, areKeys''⟩ := List.forall_mem_cons.1 areKeys''
    rw [setEntries_cons, setEntries_cons,
      ← ih (areKeys_setEntry identity isKey areKeys') areKeys''
        (nodup_setEntry identity isKey areKeys' distinct),
      setEntries_setEntry identity isKey areKeys areKeys' distinct]

/-! ## What is left of pairs -/

/-- A split of a row with one more item at the end is at this item or before it. -/
theorem eq_append_cons_concat {α : Type} {items front back : List α} {last item : α}
    (split : items ++ [last] = front ++ item :: back) :
    (items = front ∧ last = item ∧ back = []) ∨
      ∃ between, back = between ++ [last] ∧ items = front ++ item :: between := by
  rcases List.eq_nil_or_concat back with rfl | ⟨between, other, rfl⟩
  · obtain ⟨rfl, same⟩ := List.append_inj' split rfl
    exact .inl ⟨rfl, List.singleton_injective same, rfl⟩
  · rw [List.concat_eq_append, ← List.cons_append, ← List.append_assoc] at split
    obtain ⟨rfl, same⟩ := List.append_inj' split rfl
    cases same
    exact .inr ⟨between, List.concat_eq_append, rfl⟩

/-- What pairs leave in a map when they are set one after another: an entry for each key, in the
order in which the keys first occur, with the value of the last pair of the key. -/
structure LastOfEach (pairs entries : List (Value × Value)) : Prop where
  distinct : (entries.map (·.1)).Nodup
  keys : ∀ key, key ∈ entries.map (·.1) ↔ key ∈ pairs.map (·.1)
  /-- In front of a key stand those that occur before it does. -/
  first : ∀ before key after, entries.map (·.1) = before ++ key :: after →
    ∃ front back, pairs.map (·.1) = front ++ key :: back ∧ key ∉ front ∧
      ∀ other, other ∈ before ↔ other ∈ front
  last : ∀ front pair back, pairs = front ++ pair :: back → pair.1 ∉ back.map (·.1) →
    pair ∈ entries

theorem lastOfEach_nil : LastOfEach [] [] where
  distinct := List.nodup_nil
  keys := fun key => Iff.rfl
  first := fun before key after split => by simp at split
  last := fun front pair back split => by simp at split

/-- One more pair leaves one more entry, or a new value for a key that has one. -/
theorem LastOfEach.concat {pairs : List (Value × Value)} (each : LastOfEach pairs entries)
    (identity : SameIsEq keys) (isKey : keys key) (areKeys : ∀ held ∈ entries, keys held.1) :
    LastOfEach (pairs ++ [(key, value)]) (setEntry key value entries) := by
  have entryLast : ∀ front pair back, pairs ++ [(key, value)] = front ++ pair :: back →
      pair.1 ∉ back.map (·.1) → pair ∈ setEntry key value entries := by
    intro front pair back split later
    rcases eq_append_cons_concat split with ⟨rfl, rfl, rfl⟩ | ⟨between, rfl, rfl⟩
    · exact mem_setEntry_self identity isKey areKeys
    · rw [List.map_append, List.mem_append, not_or] at later
      have before := each.last front pair between rfl later.1
      exact mem_setEntry_of_ne identity isKey areKeys before (by simpa using later.2)
  by_cases there : key ∈ entries.map (·.1)
  · have same : (setEntry key value entries).map (·.1) = entries.map (·.1) :=
      keys_setEntry_of_mem identity isKey areKeys there
    refine ⟨same ▸ each.distinct, fun other => ?_, fun before other after split => ?_, entryLast⟩
    · rw [same, each.keys, List.map_append, List.mem_append, List.map_singleton,
        List.mem_singleton, or_iff_left_of_imp]
      rintro rfl
      exact (each.keys _).1 there
    · obtain ⟨front, back, occurs, fresh, alike⟩ := each.first before other after (same ▸ split)
      exact ⟨front, back ++ [key], by simp [occurs], fresh, alike⟩
  · have same : setEntry key value entries = entries ++ [(key, value)] :=
      setEntry_of_not_mem identity isKey areKeys there
    refine ⟨?_, fun other => ?_, fun before other after split => ?_, entryLast⟩
    · exact nodup_setEntry identity isKey areKeys each.distinct
    · rw [same, List.map_append, List.map_append, List.mem_append, List.mem_append, each.keys]
    · rw [same, List.map_append, List.map_singleton] at split
      rcases eq_append_cons_concat split with ⟨rfl, rfl, rfl⟩ | ⟨between, rfl, occurs⟩
      · refine ⟨pairs.map (·.1), [], by simp, ?_, each.keys⟩
        exact fun occurs => there ((each.keys key).2 occurs)
      · obtain ⟨front, back, occurs, fresh, alike⟩ := each.first before other between occurs
        exact ⟨front, back ++ [key], by simp [occurs], fresh, alike⟩

/-- Setting pairs one after another leaves the last of each key. -/
theorem lastOfEach_setEntries (identity : SameIsEq keys) {pairs : List (Value × Value)}
    (areKeys : ∀ pair ∈ pairs, keys pair.1) : LastOfEach pairs (setEntries [] pairs) := by
  induction pairs using List.reverseRecOn with
  | nil => exact lastOfEach_nil
  | append_singleton front pair ih =>
    obtain ⟨before, last⟩ := List.forall_mem_append.1 areKeys
    have isKey : keys pair.1 := last pair (List.mem_singleton_self _)
    have held := areKeys_setEntries identity (List.forall_mem_nil _) before
    rw [setEntries_append]
    exact (ih before).concat identity isKey held

end Protobuf.Value
