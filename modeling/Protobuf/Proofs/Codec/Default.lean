import Protobuf.Proofs.Codec.Lawful

/-! # Defaults

The check of a schema and the making of its codecs each tell which defaults are values of a type.
They agree: a default is accepted exactly if it becomes a value. Main statement: `default_kept`, by
which the codecs of an accepted schema keep each default as the value that it stands for.

## Main definitions

* `DefaultValue.StandsFor`: the value that a default of a type stands for, a number with the same
  number in the width of the type, a name with the first value of an enum that has it.

## Implementation notes

Both sides are compared with this relation, not with each other: there is such a value exactly if
the default fits, and it is the one that codecs have. -/

namespace Protobuf

open Number Text

/-! ## Words within bounds -/

namespace Number.Bounds

variable {number : Int} {value : Value}

theorem toNat_toUInt32 (low : 0 ≤ number) (high : number < 2 ^ 32) :
    (number.toNat.toUInt32.toNat : Int) = number := by
  have below : number.toNat < 2 ^ 32 := by omega
  rw [UInt32.toNat_ofNat_of_lt' below, Int.toNat_of_nonneg low]

theorem toNat_toUInt64 (low : 0 ≤ number) (high : number < 2 ^ 64) :
    (number.toNat.toUInt64.toNat : Int) = number := by
  have below : number.toNat < 2 ^ 64 := by omega
  rw [UInt64.toNat_ofNat_of_lt' below, Int.toNat_of_nonneg low]

/-- Where words stand for the numbers within bounds, each for one, a number within the bounds is
made the word that stands for it. -/
theorem made_eq_some_iff {Word : Type} (bounds : Bounds) (make : Int → Word) (read : Word → Int)
    (low : ∀ word, bounds.low ≤ read word) (high : ∀ word, read word < bounds.high + 1)
    (make_read : ∀ word, make (read word) = word)
    (read_make : ∀ {number}, bounds.low ≤ number → number < bounds.high + 1 →
      read (make number) = number)
    {build : Word → Value} :
    (if bounds.holds number then some (build (make number)) else none) = some value ↔
      ∃ word, read word = number ∧ build word = value := by
  rw [Option.ite_none_right_eq_some, Option.some.injEq, Validate.holds_iff]
  constructor
  · rintro ⟨⟨least, most⟩, rfl⟩
    exact ⟨make number, read_make least (Int.lt_add_one_of_le most), rfl⟩
  · rintro ⟨word, rfl, rfl⟩
    exact ⟨⟨low word, Int.le_of_lt_add_one (high word)⟩, by rw [make_read]⟩

theorem signed32_eq_some_iff {build : Int32 → Value} :
    (if signed32.holds number then some (build (.ofInt number)) else none) = some value ↔
      ∃ word : Int32, word.toInt = number ∧ build word = value :=
  made_eq_some_iff signed32 Int32.ofInt Int32.toInt Int32.le_toInt Int32.toInt_lt Int32.ofInt_toInt
    Int32.toInt_ofInt_of_le

theorem signed64_eq_some_iff {build : Int64 → Value} :
    (if signed64.holds number then some (build (.ofInt number)) else none) = some value ↔
      ∃ word : Int64, word.toInt = number ∧ build word = value :=
  made_eq_some_iff signed64 Int64.ofInt Int64.toInt Int64.le_toInt Int64.toInt_lt Int64.ofInt_toInt
    Int64.toInt_ofInt_of_le

theorem unsigned32_eq_some_iff {build : UInt32 → Value} :
    (if unsigned32.holds number then some (build number.toNat.toUInt32) else none) = some value ↔
      ∃ word : UInt32, (word.toNat : Int) = number ∧ build word = value :=
  made_eq_some_iff unsigned32 (·.toNat.toUInt32) (fun word => (word.toNat : Int))
    (fun _ => Int.natCast_nonneg _) (fun word => Int.ofNat_lt.2 word.toNat_lt)
    (fun _ => UInt32.ofNat_toNat) toNat_toUInt32

theorem unsigned64_eq_some_iff {build : UInt64 → Value} :
    (if unsigned64.holds number then some (build number.toNat.toUInt64) else none) = some value ↔
      ∃ word : UInt64, (word.toNat : Int) = number ∧ build word = value :=
  made_eq_some_iff unsigned64 (·.toNat.toUInt64) (fun word => (word.toNat : Int))
    (fun _ => Int.natCast_nonneg _) (fun word => Int.ofNat_lt.2 word.toNat_lt)
    (fun _ => UInt64.ofNat_toNat) toNat_toUInt64

end Number.Bounds

/-! ## The value of a default -/

/-- The values of the enum that a type refers to; none if it refers to no enum that is known. -/
def Registry.enumValues (registry : Registry) : FieldType → List EnumValue
  | .enum name => ((registry.enum? name).map (·.values)).getD []
  | _ => []

namespace DefaultValue

/-- A default of a type stands for a value. -/
inductive StandsFor (registry : Registry) : FieldType → DefaultValue → Value → Prop
  | bool (value : Bool) : StandsFor registry (.builtin .bool) (.bool value) (.bool value)
  | signed32 {type : Builtin} {number : Int} {word : Int32}
    (kind : type = .int32 ∨ type = .sint32 ∨ type = .sfixed32) (same : word.toInt = number) :
    StandsFor registry (.builtin type) (.integer number) (.int32 word)
  | signed64 {type : Builtin} {number : Int} {word : Int64}
    (kind : type = .int64 ∨ type = .sint64 ∨ type = .sfixed64) (same : word.toInt = number) :
    StandsFor registry (.builtin type) (.integer number) (.int64 word)
  | unsigned32 {type : Builtin} {number : Int} {word : UInt32}
    (kind : type = .uint32 ∨ type = .fixed32) (same : word.toNat = number) :
    StandsFor registry (.builtin type) (.integer number) (.uint32 word)
  | unsigned64 {type : Builtin} {number : Int} {word : UInt64}
    (kind : type = .uint64 ∨ type = .fixed64) (same : word.toNat = number) :
    StandsFor registry (.builtin type) (.integer number) (.uint64 word)
  | wholeFloat (number : Int) :
    StandsFor registry (.builtin .float) (.integer number) (.float (.ofInt number))
  | wholeDouble (number : Int) :
    StandsFor registry (.builtin .double) (.integer number) (.double (.ofInt number))
  | float (value : Binary64) :
    StandsFor registry (.builtin .float) (.float value) (.float value.narrow)
  | double (value : Binary64) :
    StandsFor registry (.builtin .double) (.float value) (.double value)
  | string (value : String) :
    StandsFor registry (.builtin .string) (.text value) (.string value)
  | bytes (value : String) :
    StandsFor registry (.builtin .bytes) (.text value) (.bytes (Utf8.encode value))
  | named {name text : String} {type : EnumType} {before after : List EnumValue}
    {declared : EnumValue} (known : registry.enum? name = some type)
    (split : type.values = before ++ declared :: after) (same : declared.name = text)
    (first : ∀ other ∈ before, other.name ≠ text) :
    StandsFor registry (.enum name) (.text text) (.enum declared.number)
  | numbered {name : String} {number : Int} {word : Int32} (same : word.toInt = number) :
    StandsFor registry (.enum name) (.integer number) (.enum word)

variable {registry : Registry} {type : FieldType} {default : DefaultValue} {value : Value}

/-! ## What fits stands for a value -/

/-- A default that stands for a value of a type fits the type. -/
theorem StandsFor.fits (stands : default.StandsFor registry type value) :
    default.Fits registry type := by
  cases stands with
  | bool => exact .bool
  | @signed32 type number word kind same =>
    exact .signed32 kind (same ▸ word.le_toInt) (same ▸ word.toInt_lt)
  | @signed64 type number word kind same =>
    exact .signed64 kind (same ▸ word.le_toInt) (same ▸ word.toInt_lt)
  | @unsigned32 type number word kind same =>
    exact .unsigned32 kind (same ▸ Int.natCast_nonneg _) (same ▸ by exact_mod_cast word.toNat_lt)
  | @unsigned64 type number word kind same =>
    exact .unsigned64 kind (same ▸ Int.natCast_nonneg _) (same ▸ by exact_mod_cast word.toNat_lt)
  | wholeFloat => exact .whole (.inl rfl)
  | wholeDouble => exact .whole (.inr rfl)
  | float => exact .real (.inl rfl)
  | double => exact .real (.inr rfl)
  | string => exact .text (.inl rfl)
  | bytes => exact .text (.inr rfl)
  | @named name text type before after declared known split same first =>
    refine .named fun other known' => ?_
    obtain rfl : type = other := Option.some.inj (known.symm.trans known')
    exact ⟨declared, split ▸ List.mem_append_right _ List.mem_cons_self, same⟩
  | @numbered name number word same =>
    exact .numbered (same ▸ word.le_toInt) (same ▸ word.toInt_lt)

/-- A default that fits a type that is known stands for a value of the type. -/
theorem Fits.exists_standsFor (fitting : default.Fits registry type)
    (resolved : registry.resolves type) : ∃ value, default.StandsFor registry type value := by
  cases fitting with
  | bool => exact ⟨_, .bool _⟩
  | signed32 kind low high => exact ⟨_, .signed32 kind (Int32.toInt_ofInt_of_le low high)⟩
  | signed64 kind low high => exact ⟨_, .signed64 kind (Int64.toInt_ofInt_of_le low high)⟩
  | unsigned32 kind low high => exact ⟨_, .unsigned32 kind (Bounds.toNat_toUInt32 low high)⟩
  | unsigned64 kind low high => exact ⟨_, .unsigned64 kind (Bounds.toNat_toUInt64 low high)⟩
  | whole kind =>
    rcases kind with rfl | rfl
    · exact ⟨_, .wholeFloat _⟩
    · exact ⟨_, .wholeDouble _⟩
  | real kind =>
    rcases kind with rfl | rfl
    · exact ⟨_, .float _⟩
    · exact ⟨_, .double _⟩
  | text kind =>
    rcases kind with rfl | rfl
    · exact ⟨_, .string _⟩
    · exact ⟨_, .bytes _⟩
  | @named name text listed =>
    obtain ⟨type, known⟩ := Option.isSome_iff_exists.1 resolved
    obtain ⟨declared, found⟩ :=
      Option.isSome_iff_exists.1 (EnumType.isSome_valueNamed?_iff.2 (listed type known))
    obtain ⟨same, before, after, split, first⟩ := List.find?_eq_some_iff_append.1 found
    exact ⟨_, .named known split (by simpa using same) fun other held => by
      simpa using first other held⟩
  | numbered low high => exact ⟨_, .numbered (Int32.toInt_ofInt_of_le low high)⟩

end DefaultValue

/-! ## What codecs have for it -/

namespace Scalar

open Number.Bounds DefaultValue

variable {registry : Registry} {default : DefaultValue} {value : Value}

/-- What an integer becomes as a default of a built-in type is what it stands for. -/
theorem standsFor_of_integer {values : List EnumValue} {type : Builtin} {number : Int}
    (given : (ofBuiltin type).ofDefault? values (.integer number) = some value) :
    (DefaultValue.integer number).StandsFor registry (.builtin type) value := by
  cases type with
  | int32 | sint32 | sfixed32 =>
    obtain ⟨word, same, rfl⟩ := signed32_eq_some_iff.1 given
    exact .signed32 (by simp) same
  | int64 | sint64 | sfixed64 =>
    obtain ⟨word, same, rfl⟩ := signed64_eq_some_iff.1 given
    exact .signed64 (by simp) same
  | uint32 | fixed32 =>
    obtain ⟨word, same, rfl⟩ := unsigned32_eq_some_iff.1 given
    exact .unsigned32 (by simp) same
  | uint64 | fixed64 =>
    obtain ⟨word, same, rfl⟩ := unsigned64_eq_some_iff.1 given
    exact .unsigned64 (by simp) same
  | float =>
    cases given
    exact .wholeFloat number
  | double =>
    cases given
    exact .wholeDouble number
  | bool | string | bytes => cases given

/-- What a default of a built-in type becomes is what it stands for. -/
theorem ofDefault?_builtin_iff {values : List EnumValue} {type : Builtin} :
    (ofBuiltin type).ofDefault? values default = some value ↔
      default.StandsFor registry (.builtin type) value := by
  constructor
  · intro given
    cases default with
    | bool flag =>
      cases type with
      | bool =>
        cases given
        exact .bool flag
      | _ => cases given
    | integer number => exact standsFor_of_integer given
    | float real =>
      cases type with
      | float =>
        cases given
        exact .float real
      | double =>
        cases given
        exact .double real
      | _ => cases given
    | text text =>
      cases type with
      | string =>
        cases given
        exact .string text
      | bytes =>
        cases given
        exact .bytes text
      | _ => cases given
  · intro stands
    cases stands with
    | signed32 kind same =>
      rcases kind with rfl | rfl | rfl <;> exact signed32_eq_some_iff.2 ⟨_, same, rfl⟩
    | signed64 kind same =>
      rcases kind with rfl | rfl | rfl <;> exact signed64_eq_some_iff.2 ⟨_, same, rfl⟩
    | unsigned32 kind same =>
      rcases kind with rfl | rfl <;> exact unsigned32_eq_some_iff.2 ⟨_, same, rfl⟩
    | unsigned64 kind same =>
      rcases kind with rfl | rfl <;> exact unsigned64_eq_some_iff.2 ⟨_, same, rfl⟩
    | _ => rfl

/-- What a default of an enum becomes is what it stands for. -/
theorem ofDefault?_enum_iff {name : String} :
    (numeric .enum).ofDefault? (registry.enumValues (.enum name)) default = some value ↔
      default.StandsFor registry (.enum name) value := by
  constructor
  · intro given
    cases default with
    | text text =>
      obtain ⟨declared, found, rfl⟩ := Option.map_eq_some_iff.1 given
      obtain ⟨same, before, after, split, first⟩ := List.find?_eq_some_iff_append.1 found
      cases known : registry.enum? name with
      | none => simp [Registry.enumValues, known] at split
      | some type =>
        rw [Registry.enumValues, known, Option.map_some, Option.getD_some] at split
        exact .named known split (of_decide_eq_true same) fun other held => by
          simpa using first other held
    | integer number =>
      obtain ⟨word, same, rfl⟩ := signed32_eq_some_iff.1 given
      exact .numbered same
    | _ => cases given
  · intro stands
    cases stands with
    | @named _ text type before after declared known split same first =>
      have found : (registry.enumValues (.enum name)).find? (·.name = text) = some declared := by
        rw [Registry.enumValues, known, Option.map_some, Option.getD_some, split]
        exact List.find?_eq_some_iff_append.2 ⟨decide_eq_true same, before, after, rfl,
          fun other held => by simpa using first other held⟩
      exact Option.map_eq_some_iff.2 ⟨declared, found, rfl⟩
    | numbered same => exact signed32_eq_some_iff.2 ⟨_, same, rfl⟩

/-- What a default of a type becomes is what it stands for. -/
theorem ofDefault?_eq_some_iff {type : FieldType} {scalar : Scalar}
    (known : ofType? type = some scalar) :
    scalar.ofDefault? (registry.enumValues type) default = some value ↔
      default.StandsFor registry type value := by
  cases type with
  | builtin type =>
    cases known
    exact ofDefault?_builtin_iff
  | enum name =>
    cases known
    exact ofDefault?_enum_iff
  | message | map => cases known

end Scalar

/-- A default fits a type of the registry exactly if it becomes a value. -/
theorem DefaultValue.fits_iff_isSome {registry : Registry} {type : FieldType} {scalar : Scalar}
    (known : Scalar.ofType? type = some scalar) (resolved : registry.resolves type)
    {default : DefaultValue} : Validate.fits registry type default ↔
      (scalar.ofDefault? (registry.enumValues type) default).isSome := by
  rw [Validate.fits_iff, Option.isSome_iff_exists]
  constructor
  · intro fitting
    obtain ⟨value, stands⟩ := fitting.exists_standsFor resolved
    exact ⟨value, (Scalar.ofDefault?_eq_some_iff known).2 stands⟩
  · rintro ⟨value, given⟩
    exact ((Scalar.ofDefault?_eq_some_iff known).1 given).fits

/-! ## Codecs of a schema -/

/-- Only types of single values have defaults. -/
theorem DefaultValue.StandsFor.exists_scalar {registry : Registry} {type : FieldType}
    {default : DefaultValue} {value : Value} (stands : default.StandsFor registry type value) :
    ∃ scalar, Scalar.ofType? type = some scalar := by
  cases stands <;> exact ⟨_, rfl⟩

/-- The default of the plan of a field is what the default of the field stands for. -/
theorem FieldPlan.default_ofField_eq_some_iff {registry : Registry} {message : String}
    {field : Field} {value : Value} : (ofField registry message field).default = some value ↔
      ∃ default, field.default = some default ∧ default.StandsFor registry field.type value := by
  have planned : (ofField registry message field).default = field.default.bind fun default =>
      (Scalar.ofType? field.type).bind fun scalar =>
        scalar.ofDefault? (registry.enumValues field.type) default := rfl
  rw [planned, Option.bind_eq_some_iff]
  refine exists_congr fun default => and_congr_right fun _ => ?_
  rw [Option.bind_eq_some_iff]
  constructor
  · rintro ⟨scalar, known, given⟩
    exact (Scalar.ofDefault?_eq_some_iff known).1 given
  · intro stands
    obtain ⟨scalar, known⟩ := stands.exists_scalar
    exact ⟨scalar, known, (Scalar.ofDefault?_eq_some_iff known).2 stands⟩

/-- A default of a type of single values fits exactly if it becomes a value. So the codec of each
message of an accepted schema has for each default that is declared the value that it stands for,
and a field that is not set reads as this value. -/
theorem default_kept :
    (∀ (registry : Registry) (type : FieldType) (scalar : Scalar),
      Scalar.ofType? type = some scalar → registry.resolves type → ∀ default,
        (Validate.fits registry type default ↔
          (scalar.ofDefault? (registry.enumValues type) default).isSome)) ∧
    ∀ schema : Schema, schema.Accepted → ∀ type ∈ schema.types, ∀ field ∈ type.fields,
      ∀ default, field.default = some default →
        ∃ codec plan value, (CodecSet.ofSchema schema).get? type.name = some codec ∧
          codec.writer? field.tag = some plan ∧ plan.field = field.name ∧
          plan.default = some value ∧ codec.default? field.tag = some value ∧
          default.StandsFor (.ofSchema schema) field.type value := by
  refine ⟨fun registry type scalar known resolved default =>
    DefaultValue.fits_iff_isSome known resolved, ?_⟩
  intro schema accepted type held field among default declared
  have fitting : default.Fits (.ofSchema schema) field.type :=
    ((accepted.wellFormed held).fields field among).default default declared
  obtain ⟨value, stands⟩ :=
    fitting.exists_standsFor ((accepted.valid held).fields field among).resolved
  have kept : (FieldPlan.ofField (.ofSchema schema) type.name field).default = some value :=
    FieldPlan.default_ofField_eq_some_iff.2 ⟨default, declared, stands⟩
  have found := (CodecSet.get?_ofSchema_iff accepted).2 ⟨type, held, rfl, rfl⟩
  have written := (accepted.valid held).writer?_ofType among
  refine ⟨_, _, value, found, written, rfl, kept, ?_, stands⟩
  rw [MessageCodec.default?, written, Option.map_some, kept, Option.getD_some]

/-- Jobs with a level that may go by either of two names, a number with the least of 64 bits as its
default, and a mark. -/
def Schema.jobs : Schema :=
  let level : FieldType := .enum "Level"
  { messages := [{ name := "Job", fields := [
      ⟨"level", 1, level, .optional, none, some (.text "TOP"), false⟩,
      ⟨"start", 2, .builtin .sint64, .optional, none, some (.integer (-2 ^ 63)), false⟩,
      ⟨"mark", 3, .builtin .bytes, .optional, none, some (.text "é"), false⟩] }]
    enums := [{ name := "Level", values := [⟨"LOW", 0⟩, ⟨"HIGH", 7⟩, ⟨"TOP", 7⟩] }] }

theorem Schema.accepted_jobs : jobs.Accepted :=
  ⟨by decide, by decide⟩

/-- The name of the second alias is a level, and an unset level reads as its number. -/
theorem default_kept_jobs :
    Scalar.ofType? (.enum "Level") = some (.numeric .enum) ∧
    (Registry.ofSchema .jobs).resolves (.enum "Level") ∧
    Validate.fits (.ofSchema .jobs) (.enum "Level") (.text "TOP") ∧ Schema.jobs.Accepted ∧
    ∃ codec, (CodecSet.ofSchema .jobs).get? "Job" = some codec ∧
      codec.default? 1 = some (.enum 7) := by
  have fitting : Validate.fits (.ofSchema .jobs) (.enum "Level") (.text "TOP") :=
    (default_kept.1 (.ofSchema .jobs) (.enum "Level") (.numeric .enum) rfl (by decide)
      (.text "TOP")).2 (by decide)
  obtain ⟨codec, plan, value, found, -, -, -, read, stands⟩ := default_kept.2 .jobs
    Schema.accepted_jobs _ (List.mem_cons_self) _ (List.mem_cons_self) (.text "TOP") rfl
  have given := (Scalar.ofDefault?_eq_some_iff rfl).2 stands
  obtain rfl : Value.enum 7 = value := Option.some.inj given
  exact ⟨rfl, by decide, fitting, Schema.accepted_jobs, codec, found, read⟩

end Protobuf
