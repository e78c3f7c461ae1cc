import Mathlib.Data.List.Nodup
import Protobuf.Table

/-! # Entries of ordered lists and tables

Ordered entries are exactly the answers to lookups, and what a table holds after many insertions
follows from the items that were inserted. -/

namespace Protobuf

/-- The only item that fits is the one that is found. -/
theorem find?_eq_some_of_unique {α : Type} {items : List α} {fits : α → Bool} {item : α}
    (held : item ∈ items) (here : fits item) (unique : ∀ other ∈ items, fits other → other = item) :
    items.find? fits = some item := by
  cases found : items.find? fits with
  | none => exact absurd here (List.find?_eq_none.1 found item held)
  | some other =>
    rw [unique other (List.mem_of_find?_eq_some found) (List.find?_some found)]

namespace Keyed

variable {κ α : Type} [KeyOrder κ]

/-- Ordered entries are the answers to lookups. -/
theorem Ordered.get?_eq_some_iff {entries : List (κ × α)} (ordered : Ordered entries) {key : κ}
    {value : α} : get? key entries = some value ↔ (key, value) ∈ entries := by
  constructor
  · exact mem_of_get?_eq_some
  · intro held
    induction entries with
    | nil => cases held
    | cons head rest ih =>
      obtain ⟨k, v⟩ := head
      have tail := List.pairwise_cons.1 ordered
      rcases List.mem_cons.1 held with same | later
      · cases same
        simp [get?]
      · have before : k < key := tail.1 (key, value) later
        have ne : key ≠ k := fun same => KeyOrder.lt_irrefl k (same ▸ before)
        rw [get?, if_neg ne]
        exact ih tail.2 later

theorem Ordered.nodup_keys {entries : List (κ × α)} (ordered : Ordered entries) :
    (entries.map (·.1)).Nodup := by
  refine List.pairwise_map.2 (ordered.imp fun before same => ?_)
  exact KeyOrder.lt_irrefl _ (same ▸ before)

theorem Ordered.nodup {entries : List (κ × α)} (ordered : Ordered entries) : entries.Nodup :=
  List.Nodup.of_map _ ordered.nodup_keys

/-- An entry that is set takes the place of the one with its key. -/
theorem Ordered.perm_insert {entries : List (κ × α)} (ordered : Ordered entries) (key : κ)
    (value : α) :
    (Keyed.insert key value entries).Perm ((key, value) :: Keyed.erase key entries) := by
  have apart : (key, value) ∉ Keyed.erase key entries := by simp [Keyed.erase]
  refine (List.perm_ext_iff_of_nodup (ordered.insert key value).nodup
    (List.nodup_cons.2 ⟨apart, (ordered.erase key).nodup⟩)).2 ?_
  rintro ⟨other, held⟩
  rw [← (ordered.insert key value).get?_eq_some_iff, get?_insert, List.mem_cons,
    ← (ordered.erase key).get?_eq_some_iff, get?_erase]
  by_cases same : other = key
  · simp [same, eq_comm]
  · simp [same]

/-- Of two values set for a key, the later one stays. -/
theorem insert_insert (key : κ) (earlier value : α) (entries : List (κ × α)) :
    insert key value (insert key earlier entries) = insert key value entries := by
  induction entries with
  | nil => simp [insert]
  | cons head rest ih =>
    obtain ⟨k, v⟩ := head
    by_cases same : key = k
    · simp [insert, same]
    · by_cases before : key < k
      · simp [insert, same, before]
      · simp [insert, same, before, ih]

/-- A new entry in front does not change the lookups that succeed behind it. -/
theorem get?_cons_of_isSome {key other : κ} {value : α} {rest : List (κ × α)}
    (fresh : get? key rest = none) (held : (get? other rest).isSome) :
    get? other ((key, value) :: rest) = get? other rest := by
  have apart : other ≠ key := by
    rintro rfl
    simp [fresh] at held
  rw [get?, if_neg apart]

theorem get?_isSome_of_mem {entries : List (κ × α)} {entry : κ × α} (held : entry ∈ entries) :
    (get? entry.1 entries).isSome := by
  induction entries with
  | nil => cases held
  | cons head rest ih =>
    obtain ⟨k, v⟩ := head
    by_cases same : entry.1 = k
    · simp [get?, same]
    · rw [get?, if_neg same]
      rcases List.mem_cons.1 held with rfl | later
      · exact absurd rfl same
      · exact ih later

end Keyed

namespace Table

variable {κ α ι : Type} [KeyOrder κ]

theorem get?_eq_some_iff {table : Table κ α} {key : κ} {value : α} :
    table.get? key = some value ↔ (key, value) ∈ table.entries :=
  table.ordered.get?_eq_some_iff

theorem mem_values_iff {table : Table κ α} {value : α} :
    value ∈ table.values ↔ ∃ key, table.get? key = some value := by
  simp only [get?_eq_some_iff]
  constructor
  · intro held
    obtain ⟨⟨key, value⟩, entry, rfl⟩ := List.mem_map.1 held
    exact ⟨key, entry⟩
  · rintro ⟨key, entry⟩
    exact List.mem_map.2 ⟨(key, value), entry, rfl⟩

theorem mem_keys_iff {table : Table κ α} {key : κ} : key ∈ table.keys ↔ table.contains key := by
  rw [contains, Option.isSome_iff_exists]
  simp only [get?_eq_some_iff]
  constructor
  · intro held
    obtain ⟨⟨key, value⟩, entry, rfl⟩ := List.mem_map.1 held
    exact ⟨value, entry⟩
  · rintro ⟨value, entry⟩
    exact List.mem_map.2 ⟨(key, value), entry, rfl⟩

/-- What is found after an insertion was inserted, or found before. -/
theorem eq_or_of_get?_insert {table : Table κ α} {key other : κ} {value found : α}
    (there : (table.insert key value).get? other = some found) :
    (other = key ∧ value = found) ∨ table.get? other = some found := by
  rw [get?_insert] at there
  split at there
  · rename_i same
    exact .inl ⟨same, Option.some.inj there⟩
  · exact .inr there

/-- Under a new key, a value is added to those that are found. -/
theorem get?_insert_eq_some_iff {table : Table κ α} {key other : κ} {value found : α}
    (missing : table.get? key = none) :
    (table.insert key value).get? other = some found ↔
      (other = key ∧ value = found) ∨ table.get? other = some found := by
  rw [get?_insert]
  split
  · rename_i same
    simp [same, missing]
  · rename_i apart
    simp [apart]

/-- Of items inserted under their keys one after another, the last with a key is found. -/
theorem get?_foldl_insert (key : ι → κ) (value : ι → α) (items : List ι) (table : Table κ α)
    (wanted : κ) :
    (items.foldl (fun table item => table.insert (key item) (value item)) table).get? wanted =
      ((items.reverse.find? (key · = wanted)).map value).or (table.get? wanted) := by
  induction items generalizing table with
  | nil => rfl
  | cons item rest ih =>
    rw [List.foldl_cons, ih, get?_insert, List.reverse_cons, List.find?_append]
    cases found : rest.reverse.find? (key · = wanted) with
    | some later => simp
    | none =>
      by_cases same : key item = wanted
      · simp [same]
      · have other : ¬wanted = key item := fun eq => same eq.symm
        simp [same, other]

/-- Of items inserted under their keys unless the key is taken, the first with a key is found. -/
theorem get?_foldl_insertNew (key : ι → κ) (value : ι → α) (items : List ι) (table : Table κ α)
    (wanted : κ) :
    (items.foldl (fun table item => table.insertNew (key item) (value item)) table).get? wanted =
      (table.get? wanted).or ((items.find? (key · = wanted)).map value) := by
  induction items generalizing table with
  | nil => simp
  | cons item rest ih =>
    rw [List.foldl_cons, ih, get?_insertNew, List.find?_cons]
    by_cases same : key item = wanted
    · subst same
      cases held : table.get? (key item) <;> simp
    · have other : ¬wanted = key item := fun eq => same eq.symm
      simp [same, other]

/-- Items with distinct keys are the entries of the table that they are inserted into. -/
theorem perm_entries_foldl_insertNew (key : ι → κ) {items : List ι}
    (distinct : (items.map key).Nodup) :
    (items.foldl (fun table item => table.insertNew (key item) item) empty).entries.Perm
      (items.map fun item => (key item, item)) := by
  have pairs : (items.map fun item => (key item, item)).Nodup := by
    refine List.Nodup.of_map Prod.fst ?_
    rwa [List.map_map]
  refine (List.perm_ext_iff_of_nodup (ordered _).nodup pairs).2 fun ⟨wanted, item⟩ => ?_
  rw [← get?_eq_some_iff, get?_foldl_insertNew key fun item => item]
  simp only [get?_empty, Option.none_or, Option.map_id_fun', id_eq, List.mem_map, Prod.mk.injEq]
  constructor
  · intro found
    exact ⟨item, List.mem_of_find?_eq_some found, by simpa using List.find?_some found, rfl⟩
  · rintro ⟨_, held, rfl, rfl⟩
    refine find?_eq_some_of_unique held (by simp) fun other held' same => ?_
    exact List.inj_on_of_nodup_map distinct held' held (by simpa using same)

/-- Items with distinct keys may be inserted in any order. -/
theorem foldl_insert_perm (key : ι → κ) (value : ι → α) {items others : List ι}
    (perm : items.Perm others) (distinct : (items.map key).Nodup) (table : Table κ α) :
    items.foldl (fun table item => table.insert (key item) (value item)) table =
      others.foldl (fun table item => table.insert (key item) (value item)) table := by
  refine perm.foldl_eq' (fun first held second held' table => ?_) table
  by_cases same : key first = key second
  · rw [List.inj_on_of_nodup_map distinct held held' same]
  · ext wanted : 1
    simp only [get?_insert]
    grind

/-- Items with distinct keys may be inserted in any order, also where a key that is taken is left
alone. -/
theorem foldl_insertNew_perm (key : ι → κ) (value : ι → α) {items others : List ι}
    (perm : items.Perm others) (distinct : (items.map key).Nodup) (table : Table κ α) :
    items.foldl (fun table item => table.insertNew (key item) (value item)) table =
      others.foldl (fun table item => table.insertNew (key item) (value item)) table := by
  refine perm.foldl_eq' (fun first held second held' table => ?_) table
  by_cases same : key first = key second
  · rw [List.inj_on_of_nodup_map distinct held held' same]
  · ext wanted : 1
    simp only [get?_insertNew]
    grind

/-- The table with every value changed. -/
def map {β : Type} (f : α → β) (table : Table κ α) : Table κ β :=
  ⟨table.entries.map (Prod.map id f), List.pairwise_map.2 table.ordered⟩

theorem get?_map {β : Type} (f : α → β) (table : Table κ α) (key : κ) :
    (table.map f).get? key = (table.get? key).map f := by
  ext value
  rw [get?_eq_some_iff, Option.map_eq_some_iff]
  simp [get?_eq_some_iff, map]

theorem keys_map {β : Type} (f : α → β) (table : Table κ α) : (table.map f).keys = table.keys := by
  simp [keys, map]

theorem values_map {β : Type} (f : α → β) (table : Table κ α) :
    (table.map f).values = table.values.map f := by
  simp [values, map]

/-- The entries of the keys that are kept. -/
def filter (keeps : κ → Bool) (table : Table κ α) : Table κ α :=
  ⟨table.entries.filter fun entry => keeps entry.1, table.ordered.filter _⟩

theorem get?_filter (keeps : κ → Bool) (table : Table κ α) (key : κ) :
    (table.filter keeps).get? key = if keeps key then table.get? key else none := by
  refine Option.ext fun value => ?_
  rw [get?_eq_some_iff, filter, List.mem_filter]
  split
  · rename_i kept
    rw [get?_eq_some_iff, and_iff_left kept]
  · rename_i dropped
    simp [dropped]

end Table

theorem KeySet.contains_add {κ : Type} [KeyOrder κ] {set : KeySet κ} {key other : κ} :
    (set.add key).contains other ↔ other = key ∨ set.contains other := by
  unfold add Table.contains
  rw [Table.get?_insert]
  split <;> simp_all

end Protobuf
