import Mathlib.Data.List.Perm.Subperm
import Protobuf.Emission.Identifier
import Protobuf.Proofs.Keyed

/-! # Identifiers that are free

Identifiers are words: no number of underscores behind one makes it a keyword. The search for a free
one ends after as many underscores as there are taken names, and what is taken one after the other
is distinct. Main statements: `freeIdentifier_spec` and `Claimed.claim`. -/

namespace Protobuf

/-- Exactly the added keys are in a set, and those that were there. -/
theorem KeySet.contains_addAll {κ : Type} [KeyOrder κ] {set : KeySet κ} {keys : List κ} {key : κ} :
    (set.addAll keys).contains key ↔ key ∈ keys ∨ set.contains key := by
  induction keys generalizing set with
  | nil => simp [addAll]
  | cons first rest ih =>
    have later : ((set.add first).addAll rest).contains key ↔ _ := ih
    rw [addAll, List.foldl_cons, ← addAll, later, contains_add, List.mem_cons, or_left_comm,
      or_assoc]

namespace Emission

variable {identifier : String} {taken : KeySet String} {reserved given : List String}

/-! ## Words -/

/-- A text that is something and no keyword. -/
def IsWord (text : String) : Prop :=
  text ≠ "" ∧ text ∉ keywords

/-- The only keyword that ends in an underscore is the underscore. -/
theorem eq_of_mem_keywords {front : String} (keyword : front ++ "_" ∈ keywords) : front = "" := by
  have only : ∀ text ∈ keywords, text.toList.getLast? = some '_' → text = "_" := by decide
  have same := only _ keyword (by simp)
  have letters := congrArg String.toList same
  rw [String.toList_append] at letters
  exact String.toList_eq_nil_iff.1 (List.append_left_eq_self.1 letters)

theorem isWord_escape (name : String) : IsWord (escape name) := by
  have word (text : String) (some : text ≠ "") :
      IsWord (if keywords.contains text then text ++ "_" else text) := by
    split
    · exact ⟨by simp, fun keyword => some (eq_of_mem_keywords keyword)⟩
    · rename_i other
      exact ⟨some, by simpa using other⟩
  unfold escape
  refine word _ ?_
  split
  · simp
  · rename_i some
    simp only [Bool.or_eq_true, decide_eq_true_eq, not_or] at some
    exact some.1

@[simp] theorem underscored_zero (identifier : String) : underscored identifier 0 = identifier := by
  simp [underscored]

theorem underscored_succ (identifier : String) (count : Nat) :
    underscored identifier (count + 1) = underscored identifier count ++ "_" := by
  refine String.toList_inj.1 ?_
  simp [underscored, List.replicate_succ']

theorem underscored_inj {count other : Nat} :
    underscored identifier count = underscored identifier other ↔ count = other := by
  refine ⟨fun same => ?_, congrArg _⟩
  have length := congrArg (·.toList.length) same
  simpa [underscored] using length

theorem IsWord.underscored (word : IsWord identifier) (count : Nat) :
    IsWord (underscored identifier count) := by
  induction count with
  | zero => rwa [underscored_zero]
  | succ count ih =>
    rw [underscored_succ]
    exact ⟨by simp, fun keyword => ih.1 (eq_of_mem_keywords keyword)⟩

/-! ## The search -/

/-- Of an identifier with no underscores behind it, with one, and so on up to as many as names are
taken, one is not taken. -/
theorem exists_free (taken : KeySet String) (identifier : String) :
    ∃ count ≤ taken.entries.length, taken.contains (underscored identifier count) = false := by
  by_contra all
  simp only [not_exists, not_and, Bool.not_eq_false] at all
  have candidates : ((List.range (taken.entries.length + 1)).map (underscored identifier)).Nodup :=
    List.nodup_range.map fun count other same => underscored_inj.1 same
  have among : (List.range (taken.entries.length + 1)).map (underscored identifier) ⊆
      taken.keys := by
    intro candidate held
    obtain ⟨count, inside, rfl⟩ := List.mem_map.1 held
    exact Table.mem_keys_iff.2 (all count (Nat.le_of_lt_succ (List.mem_range.1 inside)))
  have fits := (List.subperm_of_subset candidates among).length_le
  simp only [List.length_map, List.length_range, Table.keys] at fits
  omega

/-- The search for a free identifier ends, and finds the one with the fewest underscores. -/
theorem freeIdentifier_spec (taken : KeySet String) (identifier : String) :
    ∃ count ≤ taken.entries.length, freeIdentifier taken identifier = underscored identifier count ∧
      taken.contains (underscored identifier count) = false ∧
      ∀ fewer < count, taken.contains (underscored identifier fewer) := by
  obtain ⟨enough, le, free⟩ := exists_free taken identifier
  unfold freeIdentifier
  cases found : (List.range (taken.entries.length + 1)).find? fun count =>
      !taken.contains (underscored identifier count) with
  | none =>
    have taken := List.find?_eq_none.1 found enough (List.mem_range.2 (Nat.lt_succ_of_le le))
    simp [free] at taken
  | some count =>
    obtain ⟨free, within, fewer⟩ := List.find?_range_eq_some.1 found
    refine ⟨count, Nat.le_of_lt_succ (List.mem_range.1 within), rfl, by simpa using free, ?_⟩
    simpa using fewer

/-! ## Identifiers taken one after the other -/

theorem not_contains_claim (taken : KeySet String) (identifier : String) :
    taken.contains (claim taken identifier).1 = false := by
  obtain ⟨count, -, named, free, -⟩ := freeIdentifier_spec taken identifier
  simp only [claim, named, free]

theorem contains_claim_iff {other : String} :
    (claim taken identifier).2.contains other ↔
      other = (claim taken identifier).1 ∨ taken.contains other :=
  KeySet.contains_add

theorem IsWord.claim (word : IsWord identifier) (taken : KeySet String) :
    IsWord (claim taken identifier).1 := by
  obtain ⟨count, -, named, -⟩ := freeIdentifier_spec taken identifier
  simp only [Emission.claim, named]
  exact word.underscored count

/-- What was taken from a scope: words, distinct and none of the reserved ones. The scope has these
and the reserved ones. -/
structure Claimed (reserved given : List String) (taken : KeySet String) : Prop where
  nodup : given.Nodup
  fresh : ∀ identifier ∈ given, identifier ∉ reserved
  word : ∀ identifier ∈ given, IsWord identifier
  taken_iff : ∀ identifier, taken.contains identifier ↔
    identifier ∈ reserved ∨ identifier ∈ given

theorem contains_taking_iff : (taking reserved).contains identifier ↔ identifier ∈ reserved := by
  rw [taking, KeySet.contains_addAll]
  simp [Table.contains]

theorem claimed_taking (reserved : List String) : Claimed reserved [] (taking reserved) where
  nodup := .nil
  fresh := fun identifier held => absurd held List.not_mem_nil
  word := fun identifier held => absurd held List.not_mem_nil
  taken_iff identifier := by simp [contains_taking_iff]

/-- What is taken is new and a word, and is taken from then on. -/
theorem Claimed.claim (claimed : Claimed reserved given taken) (word : IsWord identifier) :
    Claimed reserved (given ++ [(claim taken identifier).1]) (claim taken identifier).2 := by
  have new : ¬((Emission.claim taken identifier).1 ∈ reserved ∨
      (Emission.claim taken identifier).1 ∈ given) := by
    rw [← claimed.taken_iff, not_contains_claim]
    exact Bool.false_ne_true
  obtain ⟨fresh, apart⟩ := not_or.1 new
  refine ⟨?_, ?_, ?_, fun other => ?_⟩
  · refine List.nodup_append.2 ⟨claimed.nodup, List.nodup_singleton _, ?_⟩
    rintro other held last here rfl
    exact apart (List.mem_singleton.1 here ▸ held)
  · exact List.forall_mem_append.2 ⟨claimed.fresh, List.forall_mem_singleton.2 fresh⟩
  · exact List.forall_mem_append.2 ⟨claimed.word, List.forall_mem_singleton.2 (word.claim taken)⟩
  · rw [contains_claim_iff, claimed.taken_iff, List.mem_append, List.mem_singleton, or_comm,
      or_assoc]

end Emission

end Protobuf
