import Mathlib.Data.List.Pairwise
import Protobuf.Proofs.Keyed
import Protobuf.Proofs.Schema.Token
import Protobuf.Proofs.Success

/-! # What type tokens stand for

A token stands for a built-in type, for a declared type, or for a map of what its parts stand for.
Which declared type a path means depends on the scope that it is seen in: it is looked up in every
scope around, and the innermost one that has it counts. Main statement: `resolve_exact`.

## Implementation notes

The scopes around a place are described without the search: a scope is around a place whose name
starts with that of the scope, up to a dot or to the end. Of two of them, the longer one is inside
the other.
-/

namespace Protobuf

open Text

namespace Name

/-! ## Scopes around a place -/

/-- A scope is around a place: it is the root, the place itself, or what stands in front of one of
the dots in its name. -/
def Encloses (around scope : String) : Prop :=
  around = "" ∨ Within around scope

/-- What is in front of the last dot is the next scope outward; without a dot, it is the root. -/
theorem outer_spec (scope : String) : (Undotted scope ∧ outer scope = "") ∨
    ∃ part, '.' ∉ part ∧ scope.toList = (outer scope).toList ++ '.' :: part := by
  have parts := takeWhile_dropWhile_iff.1
    ⟨Eq.refl (scope.toList.reverse.takeWhile (· ≠ '.')),
      Eq.refl (scope.toList.reverse.dropWhile (· ≠ '.'))⟩
  unfold outer
  generalize scope.toList.reverse.takeWhile (· ≠ '.') = last at parts
  generalize scope.toList.reverse.dropWhile (· ≠ '.') = back at parts ⊢
  obtain ⟨split, undotted, stops⟩ := parts
  have letters : scope.toList = back.reverse ++ last.reverse := by
    rw [← List.reverse_append, ← split, List.reverse_reverse]
  have undotted : '.' ∉ last.reverse := fun held => by
    simpa using undotted '.' (List.mem_reverse.1 held)
  cases back with
  | nil => exact .inl ⟨by rwa [Undotted, letters], rfl⟩
  | cons c front =>
    obtain rfl : c = '.' := by simpa using stops c rfl
    exact .inr ⟨last.reverse, undotted, by simp [letters]⟩

theorem Encloses.of_outer {around scope : String} (encloses : Encloses around (outer scope)) :
    Encloses around scope := by
  rcases encloses with root | within
  · exact .inl root
  · rcases outer_spec scope with ⟨-, root⟩ | ⟨part, -, split⟩
    · obtain ⟨rest, empty, -⟩ := within
      rw [root] at empty
      exact .inl (String.toList_eq_nil_iff.1 (List.append_eq_nil_iff.1 empty.symm).1)
    · exact .inr (within.trans ⟨_, split, .inr rfl⟩)

/-- A scope around a place is the place itself or around the next scope outward. -/
theorem encloses_iff {around scope : String} (inside : scope ≠ "") :
    Encloses around scope ↔ around = scope ∨ Encloses around (outer scope) := by
  refine ⟨fun encloses => ?_, ?_⟩
  · rcases encloses with rfl | ⟨rest, split, rfl | starts⟩
    · exact .inr (.inl rfl)
    · rw [List.append_nil] at split
      exact .inl (String.toList_inj.1 split).symm
    · obtain ⟨more, rfl⟩ := List.head?_eq_some_iff.1 starts
      rcases outer_spec scope with ⟨undotted, -⟩ | ⟨part, last, split'⟩
      · exact absurd (split ▸ by simp) undotted
      -- The place goes on behind the scope with a dot, which the last dot cannot be in front of.
      · refine .inr (.inr ?_)
        rcases List.append_eq_append_iff.1 (split.symm.trans split') with
          ⟨front, here, there⟩ | ⟨front, here, there⟩
        · cases front with
          | nil => exact ⟨[], here, .inl rfl⟩
          | cons c front =>
            obtain ⟨rfl, -⟩ := List.cons.inj there
            exact ⟨'.' :: front, here, .inr rfl⟩
        · cases front with
          | nil =>
            rw [List.append_nil] at here
            exact ⟨[], by rw [here, List.append_nil], .inl rfl⟩
          | cons c front =>
            obtain ⟨rfl, same⟩ := List.cons.inj there
            exact absurd (same ▸ by simp) last
  · rintro (rfl | encloses)
    · exact .inr (within_refl _)
    · exact encloses.of_outer

/-- The scopes that are searched are those around a place. -/
theorem mem_enclosing_iff {around scope : String} :
    around ∈ enclosing scope ↔ Encloses around scope := by
  fun_induction enclosing scope with
  | case1 =>
    rw [List.mem_singleton]
    refine ⟨.inl, ?_⟩
    rintro (root | ⟨rest, empty, -⟩)
    · exact root
    · exact String.toList_eq_nil_iff.1 (List.append_eq_nil_iff.1 empty.symm).1
  | case2 scope inside ih => rw [List.mem_cons, ih, encloses_iff inside]

theorem Encloses.length_le {around scope : String} (encloses : Encloses around scope) :
    around.length ≤ scope.length := by
  rcases encloses with rfl | ⟨rest, split, -⟩
  · exact Nat.zero_le _
  · rw [← String.length_toList, ← String.length_toList, split, List.length_append]
    exact Nat.le_add_right ..

/-- Each scope that is searched is longer than those behind it. -/
theorem pairwise_enclosing (scope : String) :
    (enclosing scope).Pairwise fun around further => further.length < around.length := by
  fun_induction enclosing scope with
  | case1 => exact List.pairwise_singleton ..
  | case2 scope inside ih =>
    refine .cons (fun further held => ?_) ih
    have shorter := length_outer_lt inside
    rw [String.length_toList, String.length_toList] at shorter
    exact Nat.lt_of_le_of_lt (mem_enclosing_iff.1 held).length_le shorter

/-- No more scopes are searched than the name of the place has parts, and the root. -/
theorem length_enclosing_le (scope : String) :
    (enclosing scope).length ≤ scope.toList.count '.' + 2 := by
  fun_induction enclosing scope with
  | case1 => simp
  | case2 scope inside ih =>
    rw [List.length_cons]
    rcases outer_spec scope with ⟨-, root⟩ | ⟨part, -, split⟩
    · rw [root, enclosing, if_pos rfl, List.length_singleton]
      exact Nat.le_add_left ..
    · rw [split, List.count_append, List.count_cons_self]
      omega

end Name

/-- Of items by falling measure, the first that fits is the one of the greatest measure. -/
theorem find?_eq_some_iff_of_pairwise {α : Type} {measure : α → Nat} {fits : α → Bool}
    {items : List α} (falling : items.Pairwise fun item later => measure later < measure item)
    {item : α} : items.find? fits = some item ↔
      item ∈ items ∧ fits item ∧ ∀ other ∈ items, fits other → measure other ≤ measure item := by
  induction items with
  | nil => simp
  | cons first rest ih =>
    obtain ⟨below, falling⟩ := List.pairwise_cons.1 falling
    by_cases here : fits first
    · rw [List.find?_cons_of_pos here, Option.some.injEq]
      constructor
      · rintro rfl
        refine ⟨List.mem_cons_self, here, List.forall_mem_cons.2 ⟨fun _ => Nat.le_refl _, ?_⟩⟩
        exact fun other later _ => Nat.le_of_lt (below other later)
      · rintro ⟨held, -, greatest⟩
        rcases List.mem_cons.1 held with rfl | later
        · rfl
        · have above := greatest first List.mem_cons_self here
          exact absurd (below item later) (Nat.not_lt.2 above)
    · rw [List.find?_cons_of_neg here, ih falling, List.mem_cons, List.forall_mem_cons]
      constructor
      · rintro ⟨later, fit, greatest⟩
        exact ⟨.inr later, fit, fun fit => absurd fit here, greatest⟩
      · rintro ⟨rfl | later, fit, -, greatest⟩
        · exact absurd fit here
        · exact ⟨later, fit, greatest⟩

/-- A token of a built-in type stands for no other one. -/
theorem Builtin.ofToken?_eq_some_iff {token : String} {type : Builtin} :
    ofToken? token = some type ↔ token = type.token := by
  constructor
  · intro found
    have named := List.find?_some found
    exact (of_decide_eq_true named).symm
  · rintro rfl
    cases type <;> rfl

namespace Reference

open Name (Encloses continuesIdentifier enclosing)

variable {known : KnownTypes} {scope full token : String} {name key value text : List Char}
  {type : FieldType}

/-! ## Names -/

/-- The full name that a path has in the innermost of the scopes around a place in which it is
known. -/
def Nearest (known : KnownTypes) (scope name full : String) : Prop :=
  ∃ around, Encloses around scope ∧ full = Name.join around name ∧ known.contains full ∧
    ∀ other, Encloses other scope → known.contains (Name.join other name) →
      other.length ≤ around.length

/-- What a token other than a map token stands for. -/
inductive Names (known : KnownTypes) (scope : String) : List Char → FieldType → Prop
  | builtin (type : Builtin) : Names known scope type.token.toList (.builtin type)
  | relative {name : List Char} {full : String} {kind : TypeKind} (path : IsPath name)
    (declared : ∀ type : Builtin, name ≠ type.token.toList)
    (nearest : Nearest known scope (String.ofList name) full)
    (found : known.get? full = some kind) :
    Names known scope name (kind.refer full)
  | absolute {name : List Char} {kind : TypeKind} (path : IsPath name)
    (found : known.get? (String.ofList name) = some kind) :
    Names known scope ('.' :: name) (kind.refer (String.ofList name))

/-- What a token stands for. -/
inductive Denotes (known : KnownTypes) (scope : String) : List Char → FieldType → Prop
  | name {token : List Char} {type : FieldType} (names : Names known scope token type) :
    Denotes known scope token type
  | map {token key value : List Char} {keyType valueType : FieldType}
    (parts : MapToken token key value) (names : Names known scope key keyType)
    (names' : Names known scope value valueType) :
    Denotes known scope token (.map keyType valueType)

/-- The search through the scopes finds the innermost one in which a path is known. -/
theorem find?_enclosing_iff {name : String} :
    ((enclosing scope).map (Name.join · name)).find? (known.contains ·) = some full ↔
      Nearest known scope name full := by
  rw [List.find?_map, Option.map_eq_some_iff]
  refine exists_congr fun around => ?_
  rw [find?_eq_some_iff_of_pairwise (Name.pairwise_enclosing scope)]
  simp only [Name.mem_enclosing_iff, Function.comp]
  constructor
  · rintro ⟨⟨encloses, there, innermost⟩, rfl⟩
    exact ⟨encloses, rfl, there, innermost⟩
  · rintro ⟨encloses, rfl, there, innermost⟩
    exact ⟨⟨encloses, there, innermost⟩, rfl⟩

/-- A path is looked up in the scopes around, and one behind a dot at the root. -/
theorem fullName?_eq_some_iff (name : isName text) : fullName? known scope text = some full ↔
    (IsPath text ∧ ((enclosing scope).map (Name.join · (String.ofList text))).find?
      (known.contains ·) = some full) ∨
      ∃ path, text = '.' :: path ∧ IsPath path ∧ full = String.ofList path := by
  rcases isName_iff.1 name with path | ⟨path, rfl, isPath⟩
  · obtain ⟨first, more, rfl, starts⟩ := path.exists_cons
    have apart : first ≠ '.' := by
      rintro rfl
      exact not_isPath_dot path
    simp [fullName?, apart, path]
  · simp [fullName?, not_isPath_dot, isPath, eq_comm]

/-- What is looked up for a token that is none of a built-in type. -/
theorem lookup_eq_some_iff (undeclared : ∀ other : Builtin, text ≠ other.token.toList) :
    (do
      guard (isName text)
      let name ← fullName? known scope text
      let kind ← known.get? name
      return kind.refer name) = some type ↔ Names known scope text type := by
  simp only [Option.bind_eq_bind, Option.bind_eq_some_iff, Option.pure_def, Option.some.injEq]
  constructor
  · rintro ⟨_, named, full, called, kind, found, rfl⟩
    have name := (Option.guard_eq_some' _).1 named
    rcases (fullName?_eq_some_iff name).1 called with ⟨path, nearest⟩ | ⟨path, rfl, isPath, rfl⟩
    · exact .relative path undeclared (find?_enclosing_iff.1 nearest) found
    · exact .absolute isPath found
  · intro names
    cases names with
    | builtin other => exact absurd rfl (undeclared other)
    | relative path _ nearest found =>
      have name := isName_iff.2 (.inl path)
      exact ⟨(), (Option.guard_eq_some' _).2 name, _, (fullName?_eq_some_iff name).2
        (.inl ⟨path, find?_enclosing_iff.2 nearest⟩), _, found, rfl⟩
    | absolute path found =>
      have name := isName_iff.2 (.inr ⟨_, rfl, path⟩)
      exact ⟨(), (Option.guard_eq_some' _).2 name, _, (fullName?_eq_some_iff name).2
        (.inr ⟨_, rfl, path, rfl⟩), _, found, rfl⟩

/-- The token of a built-in type stands for that type alone. -/
theorem names_token_iff {declared : Builtin} :
    Names known scope declared.token.toList type ↔ type = .builtin declared := by
  constructor
  · intro names
    generalize token : declared.token.toList = text at names
    cases names with
    | builtin other =>
      have same := Builtin.ofToken?_eq_some_iff.2 (String.toList_inj.1 token).symm
      rw [Builtin.ofToken?_eq_some_iff.2 rfl] at same
      rw [Option.some.inj same]
    | relative _ undeclared => exact absurd token.symm (undeclared declared)
    | absolute =>
      -- No token of a built-in type starts with a dot.
      cases declared <;> cases token
  · rintro rfl
    exact .builtin declared

/-- A token other than a map token is read as what it stands for. -/
theorem resolveNamed_eq_ok_iff :
    resolveNamed known scope text = .ok type ↔ Names known scope text type := by
  unfold resolveNamed
  cases builtin : Builtin.ofToken? (String.ofList text) with
  | some declared =>
    obtain rfl : text = declared.token.toList := by
      rw [← Builtin.ofToken?_eq_some_iff.1 builtin, String.toList_ofList]
    rw [names_token_iff]
    simp [eq_comm]
  | none =>
    have undeclared : ∀ other : Builtin, text ≠ other.token.toList := by
      rintro other rfl
      rw [String.ofList_toList, Builtin.ofToken?_eq_some_iff.2 rfl] at builtin
      cases builtin
    rw [← lookup_eq_some_iff undeclared]
    simp only
    split
    · rename_i found
      rw [found, Option.some.injEq, Except.ok.injEq]
    · rename_i missing
      rw [missing]
      simp

/-- A token other than a map token that stands for nothing is named in the error. -/
theorem resolveNamed_eq_error {error : UnsupportedType}
    (failed : resolveNamed known scope text = .error error) : error = ⟨String.ofList text⟩ := by
  unfold resolveNamed at failed
  split at failed
  · cases failed
  · simp only at failed
    split at failed
    · cases failed
    · exact (Except.error.inj failed).symm

/-! ## Tokens -/

/-- A text without blanks has none at its ends. -/
theorem trim_of_visible (visible : ∀ c ∈ text, Blank.isBlank c = false) :
    Blank.trim text = text := by
  have dropLeft {text : List Char} (visible : ∀ c ∈ text, Blank.isBlank c = false) :
      Blank.dropLeft text = text :=
    dropLeft_eq_iff.2 ⟨[], rfl, fun c held => absurd held List.not_mem_nil,
      fun c head => visible c (List.mem_of_mem_head? head)⟩
  have back : ∀ c ∈ text.reverse, Blank.isBlank c = false := fun c held =>
    visible c (List.mem_reverse.1 held)
  rw [Blank.trim, dropLeft visible, Blank.dropRight, dropLeft back, List.reverse_reverse]

theorem resolve_of_none {token : String} (single : mapParts? (Blank.trim token.toList) = none) :
    resolve known scope token = resolveNamed known scope (Blank.trim token.toList) := by
  unfold resolve
  simp only [single]

theorem resolve_of_some {token : String}
    (read : mapParts? (Blank.trim token.toList) = some (key, value)) :
    resolve known scope token = do
      let keyType ← resolveNamed known scope key
      let valueType ← resolveNamed known scope value
      return .map keyType valueType := by
  unfold resolve
  simp only [read]

/-- A text of letters, digits, underscores and dots is no map token. -/
theorem mapParts?_of_dotted (dotted : ∀ c ∈ text, continuesIdentifier c || c = '.') :
    mapParts? text = none := by
  refine Option.eq_none_iff_forall_ne_some.2 fun parts found => ?_
  have bracket := (mapParts?_eq_some_iff.1 found).mem_bracket
  exact absurd (dotted _ bracket) (by decide)

/-- A token of letters, digits, underscores and dots is read as a name. -/
theorem resolve_of_dotted (dotted : ∀ c ∈ text, continuesIdentifier c || c = '.') :
    resolve known scope (String.ofList text) = resolveNamed known scope text := by
  have visible : ∀ c ∈ text, Blank.isBlank c = false := by
    intro c held
    rcases Bool.or_eq_true .. ▸ dotted c held with continues | dot
    · exact isBlank_eq_false (.inl continues)
    · exact isBlank_eq_false (.inr (of_decide_eq_true dot ▸ List.mem_cons_self))
  have trimmed : Blank.trim (String.ofList text).toList = text := by
    rw [String.toList_ofList, trim_of_visible visible]
  have single : mapParts? (Blank.trim (String.ofList text).toList) = none := by
    rw [trimmed, mapParts?_of_dotted dotted]
  rw [resolve_of_none single, trimmed]

/-- A map token is read as a map of what its parts are read as. -/
theorem resolve_of_mapToken {token : String}
    (parts : MapToken (Blank.trim token.toList) key value) :
    resolve known scope token = do
      let keyType ← resolve known scope (String.ofList key)
      let valueType ← resolve known scope (String.ofList value)
      return .map keyType valueType := by
  obtain ⟨identifier, dotted⟩ := parts.valid
  have keyDotted : ∀ c ∈ key, continuesIdentifier c || c = '.' := fun c held => by
    rw [Name.spelled_of_isIdentifierChars identifier c held, Bool.true_or]
  have valueDotted : ∀ c ∈ value, continuesIdentifier c || c = '.' := by
    obtain ⟨dot, word, rfl, alone, -, inside⟩ := dotted
    refine List.forall_mem_append.2 ⟨fun c held => ?_, inside⟩
    rcases alone with rfl | rfl
    · cases held
    · simp [List.mem_singleton.1 held]
  rw [resolve_of_dotted keyDotted, resolve_of_dotted valueDotted]
  exact resolve_of_some (mapParts?_eq_some_iff.2 parts)

/-- What a name stands for is no map. -/
theorem Names.isMap_eq_false (names : Names known scope text type) : type.isMap = false := by
  cases names with
  | builtin => rfl
  | @relative _ _ kind => cases kind <;> rfl
  | @absolute _ kind => cases kind <;> rfl

/-- What stands for a name is no map token. -/
theorem Names.mapParts?_eq_none (names : Names known scope text type) : mapParts? text = none := by
  refine mapParts?_of_dotted ?_
  cases names with
  | builtin builtin => exact List.all_eq_true.1 (by cases builtin <;> decide)
  | relative path => exact path.dotted
  | absolute path => exact List.forall_mem_cons.2 ⟨rfl, path.dotted⟩

/-- A token is read as what it stands for. -/
theorem resolve_eq_ok_iff {token : String} :
    resolve known scope token = .ok type ↔ Denotes known scope (Blank.trim token.toList) type := by
  cases read : mapParts? (Blank.trim token.toList) with
  | none =>
    rw [resolve_of_none read, resolveNamed_eq_ok_iff]
    refine ⟨.name, fun denotes => ?_⟩
    cases denotes with
    | name names => exact names
    | map parts =>
      rw [mapParts?_eq_some_iff.2 parts] at read
      cases read
  | some parts =>
    obtain ⟨key, value⟩ := parts
    rw [resolve_of_some read]
    simp only [bind_eq_ok_iff, resolveNamed_eq_ok_iff, pure_eq_ok, Except.ok.injEq]
    constructor
    · rintro ⟨keyType, names, valueType, names', rfl⟩
      exact .map (mapParts?_eq_some_iff.1 read) names names'
    · intro denotes
      cases denotes with
      | name names =>
        rw [names.mapParts?_eq_none] at read
        cases read
      | map parts names names' =>
        rw [mapParts?_eq_some_iff.2 parts] at read
        cases read
        exact ⟨_, names, _, names', rfl⟩

end Reference

open Reference Name in
/-- A token is read as what it stands for. A map token is read as a map of what its parts are read
as, neither of which is a map, and fails as they do; any other token that stands for nothing is
named in the error. The scopes that are searched are those around the place, of which there are no
more than its name has parts, and the root. -/
theorem resolve_exact (known : KnownTypes) (scope token : String) :
    (∀ type, resolve known scope token = .ok type ↔
      Denotes known scope (Blank.trim token.toList) type) ∧
    (∀ key value, MapToken (Blank.trim token.toList) key value →
      resolve known scope token = do
        let keyType ← resolve known scope (String.ofList key)
        let valueType ← resolve known scope (String.ofList value)
        return .map keyType valueType) ∧
    (∀ key value, resolve known scope token = .ok (.map key value) →
      key.isMap = false ∧ value.isMap = false) ∧
    ((∀ key value, ¬MapToken (Blank.trim token.toList) key value) →
      (∀ type, ¬Denotes known scope (Blank.trim token.toList) type) →
        resolve known scope token = .error ⟨String.ofList (Blank.trim token.toList)⟩) ∧
    (∀ around, around ∈ enclosing scope ↔ Encloses around scope) ∧
    (enclosing scope).length ≤ scope.toList.count '.' + 2 := by
  refine ⟨fun type => resolve_eq_ok_iff, fun key value => resolve_of_mapToken,
    fun key value read => ?_, fun single unknown => ?_, fun around => mem_enclosing_iff,
    length_enclosing_le scope⟩
  · generalize map : FieldType.map key value = type at read
    cases resolve_eq_ok_iff.1 read with
    | name names =>
      have plain := names.isMap_eq_false
      rw [← map] at plain
      cases plain
    | map _ names names' =>
      cases map
      exact ⟨names.isMap_eq_false, names'.isMap_eq_false⟩
  · cases read : resolve known scope token with
    | ok type => exact absurd (resolve_eq_ok_iff.1 read) (unknown type)
    | error error =>
      have none : mapParts? (Blank.trim token.toList) = none :=
        Option.eq_none_iff_forall_ne_some.2 fun parts found =>
          single _ _ (mapParts?_eq_some_iff.1 found)
      rw [resolve_of_none none] at read
      rw [resolveNamed_eq_error read]

/-- Two types of one name, one in a package and one in a message of the package. -/
def KnownTypes.items : KnownTypes :=
  ((Table.empty.insert "p.Item" .message).insert "p.Order" .message).insert "p.Order.Item" .enum

/-- Inside the message, the type in it is meant, by the value of a map as well; a name that no scope
has is in the error. -/
theorem resolve_exact_items :
    (∃ key value, resolve .items "p.Order" " map< string,Item >" = .ok (.map key value) ∧
      key = .builtin .string ∧ value = .enum "p.Order.Item" ∧ value.isMap = false) ∧
    resolve .items "p.Order" "Part " = .error ⟨"Part"⟩ := by
  obtain ⟨-, whole, plain, -⟩ := resolve_exact .items "p.Order" " map< string,Item >"
  obtain ⟨-, -, -, unknown, -⟩ := resolve_exact .items "p.Order" "Part "
  have parts : Reference.MapToken (Blank.trim " map< string,Item >".toList) "string".toList
      "Item".toList := Reference.mapParts?_eq_some_iff.1 (by decide)
  have read : resolve .items "p.Order" " map< string,Item >" =
      .ok (.map (.builtin .string) (.enum "p.Order.Item")) :=
    (whole _ _ parts).trans (by cbv)
  refine ⟨⟨_, _, read, rfl, rfl, (plain _ _ read).2⟩, unknown ?_ ?_⟩
  · intro key value parts
    have single : Reference.mapParts? (Blank.trim "Part ".toList) = none := by decide
    rw [Reference.mapParts?_eq_some_iff.2 parts] at single
    cases single
  · intro type denotes
    have failed : resolve .items "p.Order" "Part " = .error ⟨"Part"⟩ := by cbv
    rw [Reference.resolve_eq_ok_iff.2 denotes] at failed
    cases failed

end Protobuf
