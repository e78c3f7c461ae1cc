import Protobuf.Proofs.Codec.Conforms
import Protobuf.Proofs.Codec.Generate
import Protobuf.Proofs.Codec.Replay
import Protobuf.Proofs.Schema.Typing

/-! # Messages of a schema and of its codecs

A message is one of its type in an accepted schema exactly if it conforms to the codecs of the
schema, whatever their limits, and schema and codecs leave out the same zeros.

## Implementation notes

Both notions go down through a message alike, so the induction is on how deep it nests, with one
lemma for single values and one for fields. -/

namespace Protobuf

open Wire

theorem Builtin.holds_iff {type : Builtin} {value : Value} :
    type.Holds value ↔ (Scalar.ofBuiltin type).Holds value := by
  cases type <;> cases value <;>
    simp [Builtin.Holds, Scalar.ofBuiltin, Scalar.Holds, Scalar.write?, Numeric.write?,
      Numeric.toWord?]

namespace CodecSet

variable {schema : Schema} {limits : Limits}

/-- A field of a type is read by the plan of the field. -/
theorem reader?_ofType_iff (accepted : schema.Accepted) {type : MessageType}
    (held : type ∈ schema.types) {tag : Nat} {plan : FieldPlan} :
    (MessageCodec.ofType (.ofSchema schema) type).reader? tag = some plan ↔
      ∃ field ∈ type.fields, field.tag = tag ∧
        plan = .ofField (.ofSchema schema) type.name field := by
  have good := coherent_ofType accepted held
  rw [good.reader?_eq_some_iff]
  constructor
  · rintro ⟨planned, rfl⟩
    obtain ⟨field, declared, rfl⟩ := List.mem_map.1 planned
    exact ⟨field, declared, rfl, rfl⟩
  · rintro ⟨field, declared, rfl, rfl⟩
    exact ⟨List.mem_map.2 ⟨field, declared, rfl⟩, rfl⟩

/-- A tag has no plan exactly if the type does not declare it. -/
theorem reader?_ofType_eq_none_iff (accepted : schema.Accepted) {type : MessageType}
    (held : type ∈ schema.types) {tag : Nat} :
    (MessageCodec.ofType (.ofSchema schema) type).reader? tag = none ↔
      ∀ field ∈ type.fields, field.tag ≠ tag := by
  simp only [Option.eq_none_iff_forall_ne_some, ne_eq, reader?_ofType_iff accepted held]
  constructor
  · exact fun none field declared same => none _ ⟨field, declared, same, rfl⟩
  · rintro none plan ⟨field, declared, same, -⟩
    exact none field declared same

theorem holds_builtin_iff {type : Builtin} {value : Value} :
    schema.Holds (.builtin type) value ↔ (Scalar.ofBuiltin type).Holds value := by
  rw [← Builtin.holds_iff]
  constructor
  · intro holds
    cases holds with
    | builtin holds => exact holds
  · exact .builtin

/-- A schema and codecs agree on which messages are of their types, as far as these nest less than
a bound. -/
def AgreeBelow (schema : Schema) (set : CodecSet) (bound : Nat) : Prop :=
  ∀ message : Message, message.depth < bound → (schema.Conforms message ↔ Conforms set message)

/-- A single value is one of a type exactly if it fits the form of the type, if that is so for
messages inside it. -/
theorem holds_iff_fits {set : CodecSet} {bound : Nat} (below : AgreeBelow schema set bound)
    {type : FieldType} {form : FieldForm} (ofType : FieldForm.OfType type form) {value : Value}
    (shallow : value.levels ≤ bound) : schema.Holds type value ↔ Fits set form value := by
  cases ofType with
  | builtin type =>
    rw [holds_builtin_iff]
    constructor
    · exact .single
    · intro fits
      cases fits with
      | single holds => exact holds
  | enum name =>
    constructor
    · intro holds
      cases holds with
      | enum => exact .single rfl
    · intro fits
      cases fits with
      | single holds =>
        obtain ⟨word, written⟩ := Scalar.holds_numeric_iff.1 holds
        cases value with
        | enum number => exact .enum
        | _ => cases written
  | message name =>
    constructor
    · intro holds
      cases holds with
      | message named conforms =>
        rw [Value.levels_message] at shallow
        exact .message named ((below _ shallow).1 conforms)
    · intro fits
      cases fits with
      | message named conforms =>
        rw [Value.levels_message] at shallow
        exact .message named ((below _ shallow).2 conforms)

/-- A value fits a form of any number of values exactly if it is a list of values that each fit. -/
theorem fits_many_iff {set : CodecSet} {form many : FieldForm} (each : FieldForm.Many form many)
    {value : Value} :
    Fits set many value ↔
      ∃ elements, value = .list elements ∧ ∀ element ∈ elements, Fits set form element := by
  cases each with
  | repeated scalar =>
    constructor
    · intro fits
      cases fits with
      | repeated hold => exact ⟨_, rfl, fun element held => .single (hold element held)⟩
    · rintro ⟨elements, rfl, fit⟩
      refine .repeated fun element held => ?_
      cases fit element held with
      | single holds => exact holds
  | packed kind =>
    constructor
    · intro fits
      cases fits with
      | packed hold => exact ⟨_, rfl, fun element held => .single (hold element held)⟩
    · rintro ⟨elements, rfl, fit⟩
      refine .packed fun element held => ?_
      cases fit element held with
      | single holds => exact holds
  | messages type =>
    constructor
    · intro fits
      cases fits with
      | messages fit => exact ⟨_, rfl, fit⟩
    · rintro ⟨elements, rfl, fit⟩
      exact .messages fit

/-- A value fits the form of a map exactly if it is a map of keys and values that each fit. -/
theorem fits_map_iff {set : CodecSet} {entry : String} {key : Scalar} {form : FieldForm}
    (found : set.get? entry = some (entryCodec entry key form)) {value : Value} :
    Fits set (.map entry) value ↔ ∃ entries, value = .map entries ∧
      (∀ held ∈ entries, key.Holds held.1) ∧ (∀ held ∈ entries, Fits set form held.2) ∧
      (entries.map (·.1)).Nodup := by
  constructor
  · intro fits
    cases fits with
    | @map _ key' form' entries found' keys values distinct =>
      obtain ⟨rfl, rfl⟩ := entryCodec_unique found found'
      exact ⟨entries, rfl, keys, values, distinct⟩
  · rintro ⟨entries, rfl, keys, values, distinct⟩
    exact .map found keys values distinct

/-- A value is what a field holds exactly if it fits the form of the field, if that is so for
messages inside it. -/
theorem fieldHolds_iff_fits (accepted : schema.Accepted) {bound : Nat}
    (below : AgreeBelow schema ((ofSchema schema).withLimits limits) bound)
    {type : MessageType} (held : type ∈ schema.types) {field : Field}
    (declared : field ∈ type.fields) {value : Value} (shallow : value.levels ≤ bound) :
    schema.FieldHolds field value ↔
      Fits ((ofSchema schema).withLimits limits) (FieldForm.ofField type.name field) value := by
  have formed := FieldForm.formed_ofField type.name field
  generalize FieldForm.ofField type.name field = form at formed
  cases formed with
  | single ofType single =>
    rw [Schema.fieldHolds_iff_of_single ofType.isMap single]
    exact holds_iff_fits below ofType shallow
  | many ofType repeated each =>
    rw [Schema.fieldHolds_iff_of_repeated ofType.isMap repeated, fits_many_iff each]
    apply exists_congr
    intro elements
    apply and_congr_right
    rintro rfl
    apply forall₂_congr
    intro element there
    have inside := Value.levels_le_elementLevels there
    rw [Value.levels] at shallow
    exact holds_iff_fits below ofType (by omega)
  | map kind =>
    have valid := (accepted.valid held).fields field declared
    have single : field.cardinality.isRepeated = false := by rw [(valid.map _ _ kind).1]; rfl
    obtain ⟨builtin, form, rfl, -, ofType, found⟩ := exists_entryCodec accepted held declared kind
    have found' : ((ofSchema schema).withLimits limits).get? _ = _ := found
    rw [Schema.fieldHolds_iff_of_map kind single, fits_map_iff found']
    apply exists_congr
    intro entries
    apply and_congr_right
    rintro rfl
    apply and_congr
    · exact forall₂_congr fun entry _ => holds_builtin_iff
    · apply and_congr_left
      intro distinct
      apply forall₂_congr
      intro entry there
      have inside := (Value.levels_lt_entryLevels there).2
      rw [Value.levels] at shallow
      exact holds_iff_fits below ofType (by omega)

/-- Rivals in the codec of a type are the rivals in the type. -/
theorem rivals_ofType_iff (accepted : schema.Accepted) {type : MessageType}
    (held : type ∈ schema.types) {tag other : Nat} :
    (MessageCodec.ofType (.ofSchema schema) type).Rivals tag other ↔ type.Rivals tag other := by
  constructor
  · exact fun rivals => ⟨rivals.1, exists_of_rivals_ofType rivals⟩
  · rintro ⟨apart, field, declared, field', declared', rfl, rfl, grouped, same⟩
    obtain ⟨group, grouped⟩ := Option.isSome_iff_exists.1 grouped
    have good := coherent_ofType accepted held
    exact good.rivals_of_oneof (List.mem_map_of_mem declared) (List.mem_map_of_mem declared') apart
      grouped (same.symm.trans grouped)

/-- Among declared fields, no rival of one that is set is set exactly if no two members of a group
are. -/
theorem exclusive_ofType_iff (accepted : schema.Accepted) {type : MessageType}
    (held : type ∈ schema.types) {message : Message}
    (declared : ∀ tag, (message.get? tag).isSome → ∃ field ∈ type.fields, field.tag = tag) :
    (∀ tag other, (MessageCodec.ofType (.ofSchema schema) type).Rivals tag other →
      (message.get? tag).isSome → message.get? other = none) ↔
    ∀ field ∈ type.fields, ∀ other ∈ type.fields, field.oneof.isSome →
      field.oneof = other.oneof → (message.get? field.tag).isSome →
      (message.get? other.tag).isSome → field.tag = other.tag := by
  have group : ∀ field ∈ type.fields,
      (MessageCodec.ofType (.ofSchema schema) type).group? field.tag = field.oneof := by
    intro field among
    rw [MessageCodec.group?, (reader?_ofType_iff accepted held).2 ⟨field, among, rfl, rfl⟩]
    rfl
  constructor
  · intro exclusive field among other among' grouped same there there'
    by_contra apart
    have rivals : MessageCodec.Rivals (.ofType (.ofSchema schema) type) field.tag other.tag := by
      refine ⟨apart, ?_, ?_⟩
      · rwa [group field among]
      · rw [group field among, group other among', same]
    simp [exclusive field.tag other.tag rivals there] at there'
  · intro exclusive tag other rivals there
    by_contra missing
    have there' := Option.isSome_iff_ne_none.2 missing
    obtain ⟨field, among, rfl⟩ := declared tag there
    obtain ⟨field', among', rfl⟩ := declared other there'
    have grouped := rivals.2
    rw [group field among, group field' among'] at grouped
    exact rivals.1 (exclusive field among field' among' grouped.1 grouped.2 there there')

/-- A message conforms to the codec of a type exactly if it is one of this type, if that is so for
messages inside it. -/
theorem conformsTo_iff (accepted : schema.Accepted) {type : MessageType}
    (held : type ∈ schema.types) {message : Message} (named : type.name = message.typeName)
    (below : AgreeBelow schema ((ofSchema schema).withLimits limits) message.depth) :
    ConformsTo ((ofSchema schema).withLimits limits) (.ofType (.ofSchema schema) type) message ↔
      schema.Conforms message := by
  have reader := @reader?_ofType_iff _ accepted _ held
  constructor
  · intro conforms
    have declared : ∀ tag, (message.get? tag).isSome → ∃ field ∈ type.fields, field.tag = tag := by
      intro tag there
      obtain ⟨value, there⟩ := Option.isSome_iff_exists.1 there
      obtain ⟨plan, planned, -⟩ := conforms.fits tag value there
      obtain ⟨field, among, same, -⟩ := reader.1 planned
      exact ⟨field, among, same⟩
    refine .intro held named conforms.ordered declared ?_
      ((exclusive_ofType_iff accepted held declared).1 conforms.exclusive) ?_
    · intro field declared value there
      refine (fieldHolds_iff_fits accepted below held declared
        (MessageOf.levels_le_depth there)).2 ?_
      exact conforms.fits_plan there (reader.2 ⟨field, declared, rfl, rfl⟩)
    · intro record among
      obtain ⟨isRecord, unplanned⟩ := conforms.unknown record among
      exact ⟨isRecord, (reader?_ofType_eq_none_iff accepted held).1 unplanned⟩
  · intro conforms
    cases conforms with
    | @intro _ type' held' named' ordered declared holds exclusive unknown =>
      obtain rfl := accepted.eq_of_name held' held (named'.trans named.symm)
      refine ⟨ordered, ?_, (exclusive_ofType_iff accepted held declared).2 exclusive, ?_⟩
      · intro tag value there
        obtain ⟨field, among, rfl⟩ := declared tag (by rw [there]; rfl)
        refine ⟨_, reader.2 ⟨field, among, rfl, rfl⟩, ?_⟩
        exact (fieldHolds_iff_fits accepted below held among (MessageOf.levels_le_depth there)).1
          (holds field among value there)
      · intro record among
        obtain ⟨isRecord, apart⟩ := unknown record among
        exact ⟨isRecord, (reader?_ofType_eq_none_iff accepted held).2 apart⟩

/-- An accepted schema and its codecs agree on all messages, however deep these nest. -/
theorem agreeBelow_ofSchema (accepted : schema.Accepted) (limits : Limits) (bound : Nat) :
    AgreeBelow schema ((ofSchema schema).withLimits limits) bound := by
  rintro message -
  induction message using MessageOf.induct with
  | nest message below =>
    constructor
    · intro conforms
      cases id conforms with
      | @intro _ type held named =>
        have found : ((ofSchema schema).withLimits limits).get? message.typeName = _ :=
          (get?_ofSchema_iff accepted).2 ⟨type, held, named, rfl⟩
        exact (conforms_iff found).2 ((conformsTo_iff accepted held named below).2 conforms)
    · intro conforms
      obtain ⟨codec, found, conforms⟩ := conforms.exists_codec
      obtain ⟨type, held, named, rfl⟩ := (get?_ofSchema_iff accepted).1 found
      exact (conformsTo_iff accepted held named below).1 conforms

/-- A message is one of its type in an accepted schema exactly if it conforms to the codecs. -/
theorem conforms_ofSchema_iff (accepted : schema.Accepted) (limits : Limits) {message : Message} :
    Conforms ((ofSchema schema).withLimits limits) message ↔ schema.Conforms message :=
  (agreeBelow_ofSchema accepted limits (message.depth + 1) message (Nat.lt_succ_self _)).symm

/-- A field leaves zeros out exactly if its presence cannot be told. -/
theorem omitsZero_ofField (registry : Registry) (message : String) (field : Field) :
    (FieldPlan.ofField registry message field).omitsZero = !field.hasExplicitPresence := by
  have form : (FieldPlan.ofField registry message field).form = .ofField message field := rfl
  have optional : (FieldPlan.ofField registry message field).optional =
      decide (field.cardinality = .optional) := rfl
  have oneof : (FieldPlan.ofField registry message field).oneof = field.oneof := rfl
  unfold FieldPlan.omitsZero FieldPlan.presence Field.hasExplicitPresence
  rw [form, optional, oneof, FieldForm.isRepeated_ofField]
  cases repeated : field.isRepeated with
  | true => simp
  | false =>
    have single := repeated
    rw [Field.isRepeated, Bool.or_eq_false_iff] at single
    obtain ⟨ofForm, ofType⟩ := FieldForm.exists_ofType single.2
    rw [ofType.ofField single.1]
    have isMessage : field.isMessage = true ↔ ∃ type, ofForm = .message type := by
      unfold Field.isMessage
      generalize field.type = type at ofType
      cases ofType <;> simp
    cases group : field.oneof with
    | some group => simp
    | none =>
      cases embedded : field.isMessage with
      | true =>
        obtain ⟨type, rfl⟩ := isMessage.1 embedded
        simp
      | false =>
        have scalar : ∀ type, ofForm ≠ .message type := fun type same => by
          rw [isMessage.2 ⟨type, same⟩] at embedded
          cases embedded
        cases ofForm with
        | message type => exact absurd rfl (scalar type)
        | _ => by_cases optional : field.cardinality = .optional <;> simp [optional]

/-- Schema and codecs leave out the same zeros. -/
theorem omits_ofSchema (accepted : schema.Accepted) (limits : Limits) :
    ((ofSchema schema).withLimits limits).omits = schema.omits := by
  funext name tag
  rw [omits, Schema.omits, get?_withLimits]
  cases there : schema.type? name with
  | none =>
    have missing : (ofSchema schema).get? name = none := by
      apply Option.eq_none_iff_forall_ne_some.2
      intro codec found
      obtain ⟨type, held, named, -⟩ := (get?_ofSchema_iff accepted).1 found
      simpa [named] using List.find?_eq_none.1 there type held
    rw [missing]
    rfl
  | some type =>
    have held := List.mem_of_find?_eq_some there
    have named : type.name = name := by simpa using List.find?_some there
    rw [(get?_ofSchema_iff accepted).2 ⟨type, held, named, rfl⟩, Option.bind_some, Option.bind_some]
    cases tagged : type.fieldTagged? tag with
    | none =>
      have missing : (MessageCodec.ofType (.ofSchema schema) type).reader? tag = none := by
        apply Option.eq_none_iff_forall_ne_some.2
        intro plan found
        obtain ⟨field, declared, same, -⟩ := (reader?_ofType_iff accepted held).1 found
        simpa [same] using List.find?_eq_none.1 tagged field declared
      rw [missing]
      rfl
    | some field =>
      have same : field.tag = tag := by simpa using List.find?_some tagged
      rw [(reader?_ofType_iff accepted held).2
        ⟨field, List.mem_of_find?_eq_some tagged, same, rfl⟩]
      exact omitsZero_ofField (.ofSchema schema) type.name field

end CodecSet

end Protobuf
