import Mathlib.Data.List.TakeWhile
import Protobuf.Name

/-! # Names inside scopes

A full name stands inside the scopes that its parts spell. Two different names without dots in one
scope have nothing inside them in common. The derived name of an identifier has no dots either.
Main statements: `Name.eq_of_within` and `Name.undotted_pascal`. -/

namespace Protobuf

namespace Name

open Text

/-- A name of one part. -/
def Undotted (name : String) : Prop :=
  '.' ∉ name.toList

/-- A name is that of a scope or of something inside it. -/
def Within (scope name : String) : Prop :=
  ∃ rest, name.toList = scope.toList ++ rest ∧ (rest = [] ∨ rest.head? = some '.')

theorem undotted_simple (name : String) : Undotted (simple name) := by
  intro dotted
  rw [simple, String.toList_ofList, List.mem_reverse] at dotted
  simpa using List.mem_takeWhile_imp dotted

theorem toList_join_of_ne {scope : String} (inside : scope ≠ "") (part : String) :
    (join scope part).toList = scope.toList ++ '.' :: part.toList := by
  rw [join, if_neg inside, String.toList_append, String.toList_append, List.append_assoc]
  rfl

theorem simple_of_undotted {name : String} (undotted : Undotted name) : simple name = name := by
  have whole : name.toList.reverse.takeWhile (· ≠ '.') = name.toList.reverse := by
    refine List.takeWhile_eq_self_iff.2 fun c held => ?_
    exact decide_eq_true fun same => undotted (same ▸ List.mem_reverse.1 held)
  rw [simple, whole, List.reverse_reverse, String.ofList_toList]

/-- The last part of a name of one part in a scope is that part. -/
theorem simple_join {part : String} (undotted : Undotted part) (scope : String) :
    simple (join scope part) = part := by
  by_cases root : scope = ""
  · rw [join, if_pos root, simple_of_undotted undotted]
  · have others : ∀ c ∈ part.toList.reverse, decide (c ≠ '.') = true := fun c held =>
      decide_eq_true fun same => undotted (same ▸ List.mem_reverse.1 held)
    rw [simple, toList_join_of_ne root, List.reverse_append, List.reverse_cons,
      List.append_assoc, List.takeWhile_append_of_pos others, List.singleton_append,
      List.takeWhile_cons_of_neg (by simp), List.append_nil, List.reverse_reverse,
      String.ofList_toList]

theorem within_refl (name : String) : Within name name :=
  ⟨[], (List.append_nil _).symm, .inl rfl⟩

theorem within_join {scope : String} (inside : scope ≠ "") (part : String) :
    Within scope (join scope part) :=
  ⟨'.' :: part.toList, toList_join_of_ne inside part, .inr rfl⟩

theorem Within.trans {scope middle name : String} (outer : Within scope middle)
    (inner : Within middle name) : Within scope name := by
  obtain ⟨first, split, starts⟩ := outer
  obtain ⟨second, split', starts'⟩ := inner
  refine ⟨first ++ second, by rw [split', split, List.append_assoc], ?_⟩
  rcases starts with rfl | starts
  · exact starts'
  · exact .inr (by rw [List.head?_append, starts, Option.some_or])

/-- A name inside a scope is longer than the scope. -/
theorem Within.ne {scope part name : String} (inside : scope ≠ "")
    (within : Within (join scope part) name) : name ≠ scope := by
  rintro rfl
  obtain ⟨rest, split, -⟩ := within
  rw [toList_join_of_ne inside] at split
  have lengths := congrArg List.length split
  simp only [List.length_append, List.length_cons] at lengths
  omega

theorem takeWhile_append_of_undotted {part : String} (undotted : Undotted part) {rest : List Char}
    (starts : rest = [] ∨ rest.head? = some '.') :
    (part.toList ++ rest).takeWhile (· ≠ '.') = part.toList := by
  have others : ∀ c ∈ part.toList, decide (c ≠ '.') = true := fun c held =>
    decide_eq_true fun same => undotted (same ▸ held)
  rw [List.takeWhile_append_of_pos others]
  match rest, starts with
  | [], _ => simp
  | c :: after, .inr dot =>
    cases dot
    rw [List.takeWhile_cons_of_neg (by simp), List.append_nil]

/-- Two names of one part in a scope are the same one if some name is inside both. -/
theorem eq_of_within {scope part other name : String} (undotted : Undotted part)
    (undotted' : Undotted other) (within : Within (join scope part) name)
    (within' : Within (join scope other) name) : part = other := by
  obtain ⟨first, split, starts⟩ := within
  obtain ⟨second, split', starts'⟩ := within'
  have same : part.toList ++ first = other.toList ++ second := by
    have both := split.symm.trans split'
    by_cases root : scope = ""
    · simpa [join, root] using both
    · simpa [toList_join_of_ne root] using both
  have parts := congrArg (List.takeWhile (· ≠ '.')) same
  rw [takeWhile_append_of_undotted undotted starts,
    takeWhile_append_of_undotted undotted' starts'] at parts
  exact String.toList_inj.1 parts

/-! ## Derived names -/

/-- A text of letters of ASCII, digits and underscores. -/
def Spelled (text : List Char) : Prop :=
  ∀ c ∈ text, continuesIdentifier c

instance (text : List Char) : Decidable (Spelled text) :=
  decidable_of_iff (text.all continuesIdentifier) List.all_eq_true

theorem continues_of_starts {c : Char} (starts : startsIdentifier c) : continuesIdentifier c := by
  rw [continuesIdentifier, starts, Bool.true_or]

theorem toNat_lt_of_continues {c : Char} (continues : continuesIdentifier c) : c.toNat < 128 := by
  simp only [continuesIdentifier, startsIdentifier, Bool.or_eq_true, Bool.and_eq_true,
    decide_eq_true_iff, beq_iff_eq, Char.le_def, UInt32.le_iff_toNat_le] at continues
  rcases continues with ((⟨-, high⟩ | ⟨-, high⟩) | rfl) | ⟨-, high⟩
  · exact Nat.lt_of_le_of_lt high (by decide)
  · exact Nat.lt_of_le_of_lt high (by decide)
  · decide
  · exact Nat.lt_of_le_of_lt high (by decide)

/-- An identifier is a spelled text that starts with no digit. -/
theorem spelled_of_isIdentifierChars {text : List Char} (valid : isIdentifierChars text) :
    Spelled text := by
  cases text with
  | nil => exact fun c none => absurd none List.not_mem_nil
  | cons first rest =>
    rw [isIdentifierChars, Bool.and_eq_true, List.all_eq_true] at valid
    exact List.forall_mem_cons.2 ⟨continues_of_starts valid.1, valid.2⟩

theorem Spelled.undotted {text : List Char} (spelled : Spelled text) : '.' ∉ text :=
  fun dotted => absurd (spelled _ dotted) (by decide)

/-- What holds of the letters, digits and the underscore of ASCII can be told from their codes. -/
theorem of_continues (holds : Char → Prop)
    (each : ∀ n < 128, continuesIdentifier (Char.ofNat n) → holds (Char.ofNat n)) {c : Char}
    (continues : continuesIdentifier c) : holds c := by
  have here := each c.toNat (toNat_lt_of_continues continues)
  rw [Char.ofNat_toNat] at here
  exact here continues

/-- Letters stay letters in either case, and what has no case stays as it is. -/
theorem continues_case {c : Char} (continues : continuesIdentifier c) :
    Spelled (Case.upper c) ∧ Spelled (Case.lower c) :=
  of_continues (fun c => Spelled (Case.upper c) ∧ Spelled (Case.lower c)) (by decide) continues

theorem Spelled.lowerAfter {before text : List Char} (spelled : Spelled text) :
    Spelled (Case.lowerAfter before text) := by
  induction text generalizing before with
  | nil => exact fun d held => absurd held List.not_mem_nil
  | cons c rest ih =>
    obtain ⟨here, after⟩ := List.forall_mem_cons.1 spelled
    have small : c ≠ 'Σ' := by
      rintro rfl
      exact absurd here (by decide)
    rw [Case.lowerAfter, if_neg small]
    exact List.forall_mem_append.2 ⟨(continues_case here).2, ih after⟩

theorem Spelled.capitalize {flatten : Bool} {text : List Char} (spelled : Spelled text) :
    Spelled (capitalize flatten text) := by
  cases text with
  | nil => exact fun d held => absurd held List.not_mem_nil
  | cons c rest =>
    obtain ⟨here, after⟩ := List.forall_mem_cons.1 spelled
    refine List.forall_mem_append.2 ⟨(continues_case here).1, ?_⟩
    cases flatten with
    | true => exact Spelled.lowerAfter after
    | false => exact after

/-- The parts of a text are made of its characters. -/
theorem mem_of_mem_splitOn {separator : Char} {text part : List Char}
    (held : part ∈ splitOn separator text) : ∀ c ∈ part, c ∈ text := by
  induction text generalizing part with
  | nil =>
    obtain rfl := List.mem_singleton.1 held
    exact fun c none => absurd none List.not_mem_nil
  | cons first rest ih =>
    have deeper : ∀ other ∈ splitOn separator rest, ∀ c ∈ other, c ∈ first :: rest :=
      fun other held c among => List.mem_cons_of_mem _ (ih held c among)
    unfold splitOn at held
    split at held
    · rcases List.mem_cons.1 held with rfl | later
      · exact fun c none => absurd none List.not_mem_nil
      · exact deeper part later
    · split at held
      · rename_i head tail parts
        rcases List.mem_cons.1 held with rfl | later
        · intro c among
          rcases List.mem_cons.1 among with rfl | behind
          · exact List.mem_cons_self
          · exact deeper head (parts ▸ List.mem_cons_self) c behind
        · exact deeper part (parts ▸ List.mem_cons_of_mem _ later)
      · obtain rfl := List.mem_singleton.1 held
        intro c among
        exact List.mem_singleton.1 among ▸ List.mem_cons_self

theorem Spelled.pascalChars {text : List Char} (spelled : Spelled text) :
    Spelled (pascalChars text) := by
  unfold Name.pascalChars
  split
  · intro d held
    obtain ⟨part, among, inside⟩ := List.mem_flatMap.1 held
    have inText := mem_of_mem_splitOn (List.mem_filter.1 among).1
    exact Spelled.capitalize (fun c here => spelled c (inText c here)) d inside
  · exact spelled.capitalize

theorem Spelled.snakeAfter {before : Option Char} {text : List Char} (spelled : Spelled text) :
    Spelled (snakeAfter before text) := by
  induction text generalizing before with
  | nil => exact fun d held => absurd held List.not_mem_nil
  | cons c rest ih =>
    obtain ⟨here, after⟩ := List.forall_mem_cons.1 spelled
    have mark : ∀ starts : Bool, Spelled (if starts then ['_'] else []) := by decide
    refine List.forall_mem_append.2 ⟨?_, ih after⟩
    split
    · exact List.forall_mem_append.2 ⟨mark _, (continues_case here).2⟩
    · exact List.forall_mem_singleton.2 here

theorem Spelled.upperAll {text : List Char} (spelled : Spelled text) :
    Spelled (Case.upperAll text) := by
  intro d held
  obtain ⟨c, among, inside⟩ := List.mem_flatMap.1 held
  exact (continues_case (spelled c among)).1 d inside

/-- The Pascal case of an identifier is a single part. -/
theorem undotted_pascal {name : String} (valid : isIdentifier name) : Undotted (pascal name) := by
  rw [Undotted, pascal, String.toList_ofList]
  exact (spelled_of_isIdentifierChars valid).pascalChars.undotted

end Name

end Protobuf
