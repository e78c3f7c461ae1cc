import Mathlib.Data.List.TakeWhile
import Mathlib.Data.Option.Basic
import Protobuf.Proofs.Name
import Protobuf.Schema.Reference

/-! # Type tokens

What a token looks like: a path is a row of identifiers with dots between them, and a map token has
a key and a value in angle brackets, with blanks around either. Main statements: the tests for both
accept exactly these, `Reference.isName_iff` and `Reference.mapParts?_eq_some_iff`. -/

namespace Protobuf

open Text

/-- The parts of a text are those that splitting a list gives. -/
theorem Name.splitOn_eq (separator : Char) (text : List Char) :
    splitOn separator text = text.splitOn separator := by
  induction text with
  | nil => rfl
  | cons c rest ih =>
    rw [splitOn, ih]
    unfold List.splitOn
    rw [List.splitOnP_cons_eq_if_modifyHead]
    by_cases here : c = separator
    · simp [here]
    · cases parts : rest.splitOnP (· == separator) with
      | nil => exact (List.splitOnP_ne_nil _ _ parts).elim
      | cons part parts => simp [here]

theorem drop_length_takeWhile (kind : Char → Bool) (text : List Char) :
    text.drop (text.takeWhile kind).length = text.dropWhile kind := by
  have left : (text.takeWhile kind ++ text.dropWhile kind).drop (text.takeWhile kind).length =
      text.dropWhile kind := List.drop_left
  rwa [List.takeWhile_append_dropWhile] at left

/-- A text is taken apart where its characters stop to be of a kind. -/
theorem takeWhile_dropWhile_iff {kind : Char → Bool} {text word rest : List Char} :
    text.takeWhile kind = word ∧ text.dropWhile kind = rest ↔
      text = word ++ rest ∧ (∀ c ∈ word, kind c) ∧ ∀ c ∈ rest.head?, kind c = false := by
  constructor
  · rintro ⟨rfl, rfl⟩
    refine ⟨List.takeWhile_append_dropWhile.symm, fun c held => List.mem_takeWhile_imp held,
      fun c first => ?_⟩
    have := List.head?_dropWhile_not kind text
    rw [first] at this
    simpa using this
  · rintro ⟨rfl, inside, stops⟩
    rw [List.takeWhile_append_of_pos inside, List.dropWhile_append_of_pos inside]
    cases rest with
    | nil => simp
    | cons c rest =>
      have stop := stops c rfl
      simp [stop]

namespace Reference

open Name (startsIdentifier continuesIdentifier isIdentifierChars)

variable {text rest word token key value : List Char}

/-! ## Paths -/

/-- A path: identifiers with dots between them. -/
def IsPath (name : List Char) : Prop :=
  ∃ parts ≠ [], (∀ part ∈ parts, isIdentifierChars part) ∧ name = ['.'].intercalate parts

theorem all_splitOn_iff : (Name.splitOn '.' text).all isIdentifierChars ↔ IsPath text := by
  rw [Name.splitOn_eq, List.all_eq_true]
  constructor
  · intro valid
    exact ⟨_, List.splitOnP_ne_nil _ _, valid, (List.intercalate_splitOn '.').symm⟩
  · rintro ⟨parts, some, valid, rfl⟩
    have undotted : ∀ part ∈ parts, '.' ∉ part := fun part held =>
      (Name.spelled_of_isIdentifierChars (valid part held)).undotted
    rwa [List.splitOn_intercalate '.' undotted some]

/-- A path starts like an identifier. -/
theorem IsPath.exists_cons (path : IsPath text) :
    ∃ first more, text = first :: more ∧ startsIdentifier first := by
  obtain ⟨_ | ⟨part, parts⟩, some, valid, rfl⟩ := path
  · exact absurd rfl some
  · have here := valid part List.mem_cons_self
    cases part with
    | nil => cases here
    | cons first more =>
      rw [isIdentifierChars, Bool.and_eq_true] at here
      cases parts with
      | nil => exact ⟨first, more, by simp [List.intercalate], here.1⟩
      | cons next parts => exact ⟨first, _, by rw [List.intercalate_cons_cons]; rfl, here.1⟩

/-- A path is made of its identifiers and the dots between them. -/
theorem IsPath.dotted (path : IsPath text) : ∀ c ∈ text, continuesIdentifier c || c = '.' := by
  obtain ⟨parts, -, valid, rfl⟩ := path
  induction parts with
  | nil => exact fun c held => absurd held List.not_mem_nil
  | cons part parts ih =>
    obtain ⟨here, after⟩ := List.forall_mem_cons.1 valid
    have first : ∀ c ∈ part, continuesIdentifier c || c = '.' := fun c held => by
      rw [Name.spelled_of_isIdentifierChars here c held, Bool.true_or]
    cases parts with
    | nil => simpa [List.intercalate] using first
    | cons next parts =>
      rw [List.intercalate_cons_cons]
      simp only [List.forall_mem_append]
      exact ⟨⟨first, by simp⟩, ih after⟩

theorem not_isPath_dot : ¬IsPath ('.' :: text) := by
  intro path
  obtain ⟨first, more, same, starts⟩ := path.exists_cons
  obtain ⟨rfl, -⟩ := List.cons.inj same
  exact absurd starts (by decide)

/-- A name is a path, or one behind a dot. -/
theorem isName_iff : isName token ↔ IsPath token ∨ ∃ path, token = '.' :: path ∧ IsPath path := by
  unfold isName
  split
  · rename_i path
    rw [all_splitOn_iff]
    simp [not_isPath_dot]
  · rename_i relative
    rw [all_splitOn_iff, or_iff_left]
    rintro ⟨path, rfl, -⟩
    exact relative path rfl

/-! ## Pieces of a text -/

theorem behind?_eq_some_iff {front : List Char} :
    behind? front text = some rest ↔ text = front ++ rest := by
  induction front generalizing text with
  | nil => simp [behind?]
  | cons c front ih =>
    cases text with
    | nil => simp [behind?]
    | cons d text =>
      by_cases same : c = d
      · simp [behind?, same, ih]
      · simp [behind?, same, Ne.symm same]

/-- A word is what goes on from a character that may start an identifier. -/
theorem takeWord_eq_some_iff {goesOn : Char → Bool}
    (going : ∀ c, startsIdentifier c → goesOn c) :
    takeWord goesOn text = some (word, rest) ↔
      text = word ++ rest ∧ (∃ first more, word = first :: more ∧ startsIdentifier first) ∧
        (∀ c ∈ word, goesOn c) ∧ ∀ c ∈ rest.head?, goesOn c = false := by
  cases text with
  | nil =>
    simp only [takeWord, reduceCtorEq, false_iff]
    rintro ⟨split, ⟨first, more, rfl, -⟩, -⟩
    cases split
  | cons c text =>
    by_cases starts : startsIdentifier c
    · simp only [takeWord, starts, if_true, Option.some.injEq, Prod.mk.injEq,
        takeWhile_dropWhile_iff]
      constructor
      · rintro ⟨split, inside, stops⟩
        refine ⟨split, ?_, inside, stops⟩
        cases word with
        | nil =>
          rw [List.nil_append] at split
          have stop := stops c (by rw [← split]; rfl)
          rw [going c starts] at stop
          cases stop
        | cons first more =>
          obtain ⟨rfl, -⟩ := List.cons.inj split
          exact ⟨c, more, rfl, starts⟩
      · rintro ⟨split, -, inside, stops⟩
        exact ⟨split, inside, stops⟩
    · simp only [takeWord, starts, Bool.false_eq_true, if_false, reduceCtorEq, false_iff]
      rintro ⟨split, ⟨first, more, rfl, starts'⟩, -⟩
      obtain ⟨rfl, -⟩ := List.cons.inj split
      exact starts starts'

/-- Blanks in front are left out, and nothing else. -/
theorem dropLeft_eq_iff : Blank.dropLeft text = rest ↔
    ∃ blanks, text = blanks ++ rest ∧ (∀ c ∈ blanks, Blank.isBlank c) ∧
      ∀ c ∈ rest.head?, Blank.isBlank c = false := by
  simp only [← takeWhile_dropWhile_iff, exists_eq_left', Blank.dropLeft]

/-! ## Map tokens -/

/-- What may stand in a map token for the value: letters, digits, underscores and dots, starting
like an identifier or with a dot in front of one. A path is spelled so, and so is a path behind a
dot. -/
def IsDotted (name : List Char) : Prop :=
  ∃ dot word, name = dot ++ word ∧ (dot = [] ∨ dot = ['.']) ∧
    (∃ first more, word = first :: more ∧ startsIdentifier first) ∧
    ∀ c ∈ word, continuesIdentifier c || c = '.'

/-- A map token, its key and its value. -/
inductive MapToken : List Char → List Char → List Char → Prop
  | intro {front inside key behind before value after : List Char}
    (blank : ∀ c ∈ front ++ inside ++ behind ++ before ++ after, Blank.isBlank c)
    (identifier : isIdentifierChars key) (dotted : IsDotted value) :
    MapToken ("map".toList ++ (front ++ '<' :: (inside ++ (key ++ (behind ++ ',' ::
      (before ++ (value ++ (after ++ ['>'])))))))) key value

theorem MapToken.valid (parts : MapToken token key value) :
    isIdentifierChars key ∧ IsDotted value := by
  obtain ⟨-, identifier, dotted⟩ := parts
  exact ⟨identifier, dotted⟩

/-- A map token has brackets in it. -/
theorem MapToken.mem_bracket (parts : MapToken token key value) : '<' ∈ token := by
  obtain ⟨-, -, -⟩ := parts
  simp

/-- No character that goes on a name, and none that stands between two parts, is blank. -/
theorem isBlank_eq_false {c : Char} (visible : continuesIdentifier c ∨ c ∈ ['.', '<', ',', '>']) :
    Blank.isBlank c = false := by
  rcases visible with continues | held
  · exact Name.of_continues (Blank.isBlank · = false) (by decide) continues
  · simp only [List.mem_cons, List.not_mem_nil, or_false] at held
    rcases held with rfl | rfl | rfl | rfl <;> rfl

theorem isIdentifierChars_iff : isIdentifierChars word ↔
    (∃ first more, word = first :: more ∧ startsIdentifier first) ∧
      ∀ c ∈ word, continuesIdentifier c := by
  cases word with
  | nil => simp [isIdentifierChars]
  | cons first more =>
    simp only [isIdentifierChars, Bool.and_eq_true, List.all_eq_true, List.forall_mem_cons]
    constructor
    · rintro ⟨starts, inside⟩
      exact ⟨⟨first, more, rfl, starts⟩, Name.continues_of_starts starts, inside⟩
    · rintro ⟨⟨_, _, same, starts⟩, -, inside⟩
      obtain ⟨rfl, -⟩ := List.cons.inj same
      exact ⟨starts, inside⟩

/-- The value of a map token is read as a dot or none, and the word behind it. -/
theorem takeDotted_iff :
    (∃ name, (text.takeWhile (· = '.')).length ≤ 1 ∧
      takeWord (fun c => continuesIdentifier c || c = '.')
        (text.drop (text.takeWhile (· = '.')).length) = some (name, rest) ∧
      text.takeWhile (· = '.') ++ name = value) ↔
    text = value ++ rest ∧ IsDotted value ∧
      ∀ c ∈ rest.head?, (continuesIdentifier c || c = '.') = false := by
  have going : ∀ c, startsIdentifier c → (continuesIdentifier c || decide (c = '.')) := by
    intro c starts
    rw [Name.continues_of_starts starts, Bool.true_or]
  rw [drop_length_takeWhile]
  constructor
  · rintro ⟨name, short, taken, rfl⟩
    obtain ⟨split, starts, inside, stops⟩ := (takeWord_eq_some_iff going).1 taken
    refine ⟨?_, ⟨_, name, rfl, ?_, starts, inside⟩, stops⟩
    · rw [List.append_assoc, ← split, List.takeWhile_append_dropWhile]
    · have dots : ∀ c ∈ text.takeWhile (· = '.'), c = '.' := fun c held => by
        simpa using List.mem_takeWhile_imp held
      match text.takeWhile (· = '.'), short, dots with
      | [], _, _ => exact .inl rfl
      | [c], _, dots => exact .inr (by rw [dots c List.mem_cons_self])
  · rintro ⟨rfl, ⟨dot, word, rfl, alone, ⟨first, more, rfl, starts⟩, inside⟩, stops⟩
    have apart : first ≠ '.' := by
      rintro rfl
      exact absurd starts (by decide)
    have parts : (dot ++ first :: more ++ rest).takeWhile (· = '.') = dot ∧
        (dot ++ first :: more ++ rest).dropWhile (· = '.') = first :: more ++ rest := by
      refine takeWhile_dropWhile_iff.2 ⟨List.append_assoc .., fun c held => ?_, fun c head => ?_⟩
      · rcases alone with rfl | rfl
        · cases held
        · simpa using held
      · obtain rfl := Option.some.inj head
        simpa using apart
    rw [parts.1, parts.2]
    refine ⟨first :: more, ?_, ?_, rfl⟩
    · rcases alone with rfl | rfl <;> simp
    · exact (takeWord_eq_some_iff going).2 ⟨rfl, ⟨first, more, rfl, starts⟩, inside, stops⟩

/-- Blanks in front of a token end at its first character. -/
theorem stops_of_visible {c : Char} (visible : continuesIdentifier c ∨ c ∈ ['.', '<', ',', '>'])
    (rest : List Char) : ∀ d ∈ (c :: rest).head?, Blank.isBlank d = false := by
  intro d head
  obtain rfl := Option.some.inj head
  exact isBlank_eq_false visible

/-- Blanks in front of a mark end what is of a kind without blanks. -/
theorem stops_of_blank {kind : Char → Bool} {blanks : List Char} {mark : Char}
    (blank : ∀ c ∈ blanks, Blank.isBlank c) (other : kind mark = false)
    (visible : ∀ c, kind c → Blank.isBlank c = false) (rest : List Char) :
    ∀ c ∈ (blanks ++ mark :: rest).head?, kind c = false := by
  intro c head
  cases blanks with
  | nil =>
    obtain rfl := Option.some.inj head
    exact other
  | cons first blanks =>
    obtain rfl := Option.some.inj head
    refine Bool.eq_false_iff.2 fun inside => ?_
    have here := blank first List.mem_cons_self
    rw [visible first inside] at here
    cases here

/-- What is read of a map token from left to right. -/
theorem mapParts?_eq_some_iff_exists : mapParts? token = some (key, value) ↔
    ∃ opening inside behind before after,
      token = "map".toList ++ opening ∧ Blank.dropLeft opening = '<' :: inside ∧
      takeWord continuesIdentifier (Blank.dropLeft inside) = some (key, behind) ∧
      Blank.dropLeft behind = ',' :: before ∧
      (∃ name, ((Blank.dropLeft before).takeWhile (· = '.')).length ≤ 1 ∧
        takeWord (fun c => continuesIdentifier c || c = '.') ((Blank.dropLeft before).drop
          ((Blank.dropLeft before).takeWhile (· = '.')).length) = some (name, after) ∧
        (Blank.dropLeft before).takeWhile (· = '.') ++ name = value) ∧
      Blank.dropLeft after = ['>'] := by
  simp only [mapParts?, Option.bind_eq_bind, Option.bind_eq_some_iff, behind?_eq_some_iff,
    Prod.exists, List.singleton_append]
  constructor
  · rintro ⟨opening, rfl, inside, opened, word, behind, read, before, parted, _, short, name, after,
      read', closed⟩
    split at closed
    · rename_i closes
      obtain ⟨rfl, rfl⟩ := Prod.mk.inj (Option.some.inj closed)
      exact ⟨opening, inside, behind, before, after, rfl, opened, read, parted,
        ⟨name, (Option.guard_eq_some' _).1 short, read', rfl⟩, closes⟩
    · cases closed
  · rintro ⟨opening, inside, behind, before, after, rfl, opened, read, parted,
      ⟨name, short, read', rfl⟩, closes⟩
    refine ⟨opening, rfl, inside, opened, key, behind, read, before, parted, (),
      (Option.guard_eq_some' _).2 short, name, after, read', ?_⟩
    rw [if_pos closes]

/-- A token is taken for a map exactly if it is a map token, with the key and the value it has. -/
theorem mapParts?_eq_some_iff : mapParts? token = some (key, value) ↔ MapToken token key value := by
  have going : ∀ c, startsIdentifier c → continuesIdentifier c := fun c => Name.continues_of_starts
  simp only [mapParts?_eq_some_iff_exists, takeWord_eq_some_iff going, takeDotted_iff,
    dropLeft_eq_iff]
  constructor
  · rintro ⟨_, _, behind, _, after, rfl, ⟨first, rfl, blank₁, -⟩,
      ⟨⟨second, rfl, blank₂, -⟩, starts, inside, -⟩, ⟨third, rfl, blank₃, -⟩,
      ⟨⟨fourth, rfl, blank₄, -⟩, dotted, -⟩, ⟨fifth, rfl, blank₅, -⟩⟩
    refine .intro ?_ (isIdentifierChars_iff.2 ⟨starts, inside⟩) dotted
    simp only [List.forall_mem_append]
    exact ⟨⟨⟨⟨blank₁, blank₂⟩, blank₃⟩, blank₄⟩, blank₅⟩
  · rintro ⟨blank, identifier, dotted⟩
    simp only [List.forall_mem_append] at blank
    obtain ⟨⟨⟨⟨blank₁, blank₂⟩, blank₃⟩, blank₄⟩, blank₅⟩ := blank
    obtain ⟨starts, inside⟩ := isIdentifierChars_iff.1 identifier
    refine ⟨_, _, _, _, _, rfl, ⟨_, rfl, blank₁, stops_of_visible (.inr (by simp)) _⟩,
      ⟨⟨_, rfl, blank₂, ?_⟩, starts, inside, ?_⟩,
      ⟨_, rfl, blank₃, stops_of_visible (.inr (by simp)) _⟩,
      ⟨⟨_, rfl, blank₄, ?_⟩, dotted, ?_⟩,
      ⟨_, rfl, blank₅, stops_of_visible (.inr (by simp)) _⟩⟩
    · obtain ⟨first, more, rfl, starts⟩ := starts
      exact stops_of_visible (.inl (Name.continues_of_starts starts)) _
    · exact stops_of_blank blank₃ (by decide) (fun c inside => isBlank_eq_false (.inl inside)) _
    · obtain ⟨dot, word, rfl, rfl | rfl, ⟨first, more, rfl, starts⟩, -⟩ := dotted
      · exact stops_of_visible (.inl (Name.continues_of_starts starts)) _
      · exact stops_of_visible (.inr (by simp)) _
    · refine stops_of_blank blank₅ (by decide) (fun c inside => ?_) _
      rcases Bool.or_eq_true .. ▸ inside with continues | dot
      · exact isBlank_eq_false (.inl continues)
      · exact isBlank_eq_false (.inr (of_decide_eq_true dot ▸ List.mem_cons_self))

end Reference

end Protobuf
