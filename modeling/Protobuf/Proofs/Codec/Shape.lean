import Protobuf.Proofs.Codec.Typing
import Protobuf.Proofs.Codec.Writable
import Protobuf.Proofs.Schema.Shape

/-! # What is written has the right shape

The codecs of an accepted schema write a message exactly if it has the shape of its type, except
that a field whose presence cannot be told may hold a zero of any kind, which is left out before
its kind is looked at. Main statement: `CodecSet.encode_isOk_iff_shaped`.

## Implementation notes

As in `Proofs.Codec.Typing`, the induction is on how deep a message nests. An entry of a map is
written as a message of two fields, so that lemmas about fields of single values serve for keys and
values too. -/

namespace Protobuf

open Wire

/-- A field is written unless it is zero exactly if it leaves out zeros. -/
theorem FieldPlan.presence_ofField_eq_implicit_iff (registry : Registry) (message : String)
    (field : Field) :
    (FieldPlan.ofField registry message field).presence = .implicit ↔ field.OmitsZero := by
  have omits := CodecSet.omitsZero_ofField registry message field
  have repeats : (FieldPlan.ofField registry message field).presence = .repeated ↔
      field.isRepeated := by
    rw [FieldPlan.presence_eq_repeated_iff, ← FieldForm.isRepeated_ofField message]
    rfl
  unfold FieldPlan.omitsZero at omits
  unfold Field.OmitsZero
  cases repeated : field.isRepeated with
  | true => simp [repeats.2 repeated]
  | false =>
    have never : (FieldPlan.ofField registry message field).presence ≠ .repeated := fun same => by
      rw [repeats.1 same] at repeated
      cases repeated
    simp only [decide_eq_false never, Bool.or_false] at omits
    rw [← decide_eq_true_eq (p := _ = Presence.implicit), omits]
    simp

namespace CodecSet

variable {schema : Schema} {set : CodecSet} {bound : Nat}

/-- A value can be written in a form of any number of values exactly if it is a list of values that
can each be written. -/
theorem writable_many_iff {form many : FieldForm} (each : FieldForm.Many form many)
    {value : Value} :
    Writable set many value ↔
      ∃ elements, value = .list elements ∧ ∀ element ∈ elements, Writable set form element := by
  cases each with
  | repeated scalar =>
    constructor
    · intro writable
      cases writable with
      | repeated hold => exact ⟨_, rfl, fun element held => .single (hold element held)⟩
    · rintro ⟨elements, rfl, each⟩
      refine .repeated fun element held => ?_
      cases each element held with
      | single holds => exact holds
  | packed kind =>
    constructor
    · intro writable
      cases writable with
      | packed hold => exact ⟨_, rfl, fun element held => .single (hold element held)⟩
    · rintro ⟨elements, rfl, each⟩
      refine .packed fun element held => ?_
      cases each element held with
      | single holds => exact holds
  | messages type =>
    constructor
    · intro writable
      cases writable with
      | messages each => exact ⟨_, rfl, each⟩
    · rintro ⟨elements, rfl, each⟩
      exact .messages each

/-- Exactly the messages of the right shape can be written, as far as they nest less than a
bound. -/
def ShapedBelow (schema : Schema) (set : CodecSet) (bound : Nat) : Prop :=
  ∀ message : Message, message.depth < bound →
    ((∃ bytes, set.encode message = .ok bytes) ↔ schema.Shaped Value.isZero message)

/-- A single value can be written exactly if it has the shape of its type, if that is so for
messages inside it. -/
theorem writable_iff_hasShape (below : ShapedBelow schema set bound) {type : FieldType}
    {form : FieldForm} (ofType : FieldForm.OfType type form) {value : Value}
    (shallow : value.levels ≤ bound) :
    Writable set form value ↔ schema.HasShape Value.isZero type value := by
  cases ofType with
  | builtin type =>
    constructor
    · intro writable
      cases writable with
      | single holds => exact .builtin (Builtin.holds_iff.2 holds)
    · intro shape
      cases shape with
      | builtin holds => exact .single (Builtin.holds_iff.1 holds)
  | enum name =>
    constructor
    · intro writable
      cases writable with
      | single holds =>
        obtain ⟨word, written⟩ := Scalar.holds_numeric_iff.1 holds
        cases value with
        | enum number => exact .enum
        | _ => cases written
    · intro shape
      cases shape with
      | enum => exact .single rfl
  | message name =>
    constructor
    · intro writable
      cases writable with
      | message done =>
        rw [Value.levels_message] at shallow
        exact .message rfl ((below _ shallow).1 ⟨_, done⟩)
    · intro shape
      cases shape with
      | message named shaped =>
        subst named
        rw [Value.levels_message] at shallow
        obtain ⟨bytes, done⟩ := (below _ shallow).2 shaped
        exact .message done

/-- What a field that is no map may hold. -/
theorem writes_ofField_iff_of_unmapped (below : ShapedBelow schema set bound) (registry : Registry)
    (message : String) {field : Field} (unmapped : field.type.isMap = false) {value : Value}
    (shallow : value.levels ≤ bound) :
    Writes set (.ofField registry message field) value ↔
      schema.FieldHasShape Value.isZero field value := by
  obtain ⟨form, ofType⟩ := FieldForm.exists_ofType unmapped
  have form' : (FieldPlan.ofField registry message field).form = .ofField message field := rfl
  rw [Writes, FieldPlan.presence_ofField_eq_implicit_iff, form']
  cases repeated : field.cardinality.isRepeated with
  | false =>
    rw [Schema.fieldHasShape_iff_of_single unmapped repeated, ofType.ofField repeated,
      writable_iff_hasShape below ofType shallow]
  | true =>
    have shown : ¬field.OmitsZero := fun omits => by
      have never := omits.1
      rw [Field.isRepeated, repeated, Bool.true_or] at never
      cases never
    rw [Schema.fieldHasShape_iff_of_repeated unmapped repeated,
      writable_many_iff (ofType.many message repeated), or_iff_right fun zero => shown zero.1]
    apply exists_congr
    intro elements
    apply and_congr_right
    rintro rfl
    apply forall₂_congr
    intro element there
    have inside := Value.levels_le_elementLevels there
    rw [Value.levels] at shallow
    exact writable_iff_hasShape below ofType (by omega)

/-- The entry message of a key and a value can be written exactly if both have their shape. -/
theorem exists_encode_entryOf_iff (coherent : set.Coherent) (below : ShapedBelow schema set bound)
    {entry : String} {key : Builtin} {type : FieldType} {form : FieldForm}
    (ofType : FieldForm.OfType type form)
    (found : set.get? entry = some (entryCodec entry (.ofBuiltin key) form))
    {held : Value × Value} (shallowKey : held.1.levels ≤ bound) (shallow : held.2.levels ≤ bound) :
    (∃ bytes, set.encode (Value.entryOf entry held) = .ok bytes) ↔
      schema.FieldHasShape Value.isZero (.entryKey (.builtin key)) held.1 ∧
      schema.FieldHasShape Value.isZero (.entryValue type) held.2 := by
  have unmapped : type.isMap = false := by cases ofType <;> rfl
  have unmappedKey : (Field.entryKey (.builtin key)).type.isMap = false := rfl
  have unmappedValue : (Field.entryValue type).type.isMap = false := unmapped
  have plan : FieldPlan.ofField {} entry (.entryValue type) =
      ⟨"value", 2, form, none, false, none⟩ := by cases ofType <;> rfl
  have typed : set.get? (Value.entryOf entry held).typeName =
      some (entryCodec entry (.ofBuiltin key) form) := found
  rw [← writes_ofField_iff_of_unmapped below {} entry unmappedKey shallowKey,
    ← writes_ofField_iff_of_unmapped below {} entry unmappedValue shallow, plan,
    exists_encode_iff (coherent _ _ found) typed]
  constructor
  · rintro ⟨-, holds, -⟩
    exact ⟨holds _ List.mem_cons_self _ rfl,
      holds _ (List.mem_cons_of_mem _ List.mem_cons_self) _ rfl⟩
  · rintro ⟨first, second⟩
    refine ⟨fun tag there => ?_, fun plan planned value there => ?_,
      fun tag other rivals => absurd rivals MessageCodec.not_rivals_entryCodec⟩
    · rw [get?_entryOf] at there
      split at there
      · rename_i one
        subst one
        rfl
      · split at there
        · rename_i two
          subst two
          rfl
        · cases there
    · simp only [entryCodec, List.mem_cons, List.not_mem_nil, or_false] at planned
      rcases planned with rfl | rfl
      · cases there
        exact first
      · cases there
        exact second

/-- What a declared field may hold. -/
theorem writes_ofField_iff (accepted : schema.Accepted)
    (below : ShapedBelow schema (ofSchema schema) bound) {type : MessageType}
    (held : type ∈ schema.types) {field : Field} (declared : field ∈ type.fields) {value : Value}
    (shallow : value.levels ≤ bound) :
    Writes (ofSchema schema) (.ofField (.ofSchema schema) type.name field) value ↔
      schema.FieldHasShape Value.isZero field value := by
  cases isMap : field.type.isMap with
  | false => exact writes_ofField_iff_of_unmapped below _ _ isMap shallow
  | true =>
    obtain ⟨key, type', kind⟩ := FieldType.exists_of_isMap isMap
    have valid := (accepted.valid held).fields field declared
    have single : field.cardinality.isRepeated = false := by rw [(valid.map _ _ kind).1]; rfl
    obtain ⟨builtin, form, rfl, -, ofType, found⟩ := exists_entryCodec accepted held declared kind
    have shown : ¬field.OmitsZero := fun omits => by
      have never := omits.1
      rw [Field.isRepeated, Field.isMap, isMap, Bool.or_true] at never
      cases never
    have map : (FieldPlan.ofField (.ofSchema schema) type.name field).form =
        .map (Name.join type.name (entryName field.name)) := FieldForm.ofField_map kind
    rw [Writes, FieldPlan.presence_ofField_eq_implicit_iff, or_iff_right fun zero => shown zero.1,
      map, Schema.fieldHasShape_iff_of_map kind single]
    have each (entries : List (Value × Value)) (shallow : Value.entryLevels entries ≤ bound) :
        (∀ held ∈ entries, ∃ bytes, (ofSchema schema).encode (Value.entryOf
            (Name.join type.name (entryName field.name)) held) = .ok bytes) ↔
          (∀ entry ∈ entries,
            schema.FieldHasShape Value.isZero (.entryKey (.builtin builtin)) entry.1) ∧
          ∀ entry ∈ entries, schema.FieldHasShape Value.isZero (.entryValue type') entry.2 := by
      rw [← forall₂_and]
      apply forall₂_congr
      intro entry there
      have inside := Value.levels_lt_entryLevels there
      exact exists_encode_entryOf_iff (coherent_ofSchema accepted) below ofType found (by omega)
        (by omega)
    constructor
    · intro writable
      cases writable with
      | map done =>
        rw [Value.levels] at shallow
        exact ⟨_, rfl, (each _ shallow).1 done⟩
    · rintro ⟨entries, rfl, shapes⟩
      rw [Value.levels] at shallow
      exact .map ((each _ shallow).2 shapes)

/-- A message of a type can be written exactly if it has the shape of the type, if that is so for
messages inside it. -/
theorem exists_encode_iff_shaped_of_below (accepted : schema.Accepted) {type : MessageType}
    (held : type ∈ schema.types) {message : Message} (named : type.name = message.typeName)
    (below : ShapedBelow schema (ofSchema schema) message.depth) :
    (∃ bytes, (ofSchema schema).encode message = .ok bytes) ↔
      schema.Shaped Value.isZero message := by
  have reader := @reader?_ofType_iff _ accepted _ held
  have found := (get?_ofSchema_iff accepted).2 ⟨type, held, named, rfl⟩
  have writes {field : Field} (declared : field ∈ type.fields) {value : Value}
      (there : message.get? field.tag = some value) :=
    writes_ofField_iff accepted below held declared (MessageOf.levels_le_depth there)
  rw [exists_encode_iff (coherent_ofSchema accepted _ _ found) found]
  constructor
  · rintro ⟨planned, holds, exclusive⟩
    have declared : ∀ tag, (message.get? tag).isSome → ∃ field ∈ type.fields, field.tag = tag := by
      intro tag there
      obtain ⟨plan, planned⟩ := Option.isSome_iff_exists.1 (planned tag there)
      obtain ⟨field, among, same, -⟩ := reader.1 planned
      exact ⟨field, among, same⟩
    refine .intro held named declared (fun field among value there => ?_)
      ((exclusive_ofType_iff accepted held declared).1 exclusive)
    exact (writes among there).1 (holds _ (List.mem_map_of_mem among) value there)
  · intro shaped
    cases shaped with
    | @intro _ type' held' named' declared shape exclusive =>
      obtain rfl := accepted.eq_of_name held' held (named'.trans named.symm)
      refine ⟨?_, ?_, (exclusive_ofType_iff accepted held declared).2 exclusive⟩
      · intro tag there
        obtain ⟨field, among, same⟩ := declared tag there
        exact Option.isSome_iff_exists.2 ⟨_, reader.2 ⟨field, among, same, rfl⟩⟩
      · intro plan planned value there
        obtain ⟨field, among, rfl⟩ := List.mem_map.1 planned
        exact (writes among there).2 (shape field among value there)

/-- Messages can be written exactly if they have the shape of their types, however deep they
nest. -/
theorem shapedBelow_ofSchema (accepted : schema.Accepted) (bound : Nat) :
    ShapedBelow schema (ofSchema schema) bound := by
  rintro message -
  induction message using MessageOf.induct with
  | nest message below =>
    constructor
    · rintro ⟨bytes, done⟩
      obtain ⟨codec, found⟩ := exists_codec_of_encode done
      obtain ⟨type, held, named, -⟩ := (get?_ofSchema_iff accepted).1 found
      exact (exists_encode_iff_shaped_of_below accepted held named below).1 ⟨bytes, done⟩
    · intro shaped
      cases id shaped with
      | intro held named =>
        exact (exists_encode_iff_shaped_of_below accepted held named below).2 shaped

/-- The codecs of an accepted schema, with any limits, write a message exactly if it has the shape
of its type, up to zeros of any kind in fields that leave out zeros. -/
theorem encode_isOk_iff_shaped (accepted : schema.Accepted) (limits : Limits) (message : Message) :
    (∃ bytes, ((ofSchema schema).withLimits limits).encode message = .ok bytes) ↔
      schema.Shaped Value.isZero message := by
  rw [encode_withLimits]
  exact shapedBelow_ofSchema accepted (message.depth + 1) message (Nat.lt_succ_self _)

/-- A node with a child that has two labels is not written, so it does not have the shape of its
type. -/
theorem encode_isOk_iff_shaped_tree :
    ¬Schema.tree.Shaped Value.isZero ⟨"Node", [(2, .map [(.string "a",
      .message ⟨"Node", [(4, .string ""), (5, .bool true)], []⟩)])], []⟩ := by
  rw [← encode_isOk_iff_shaped Schema.accepted_tree {}]
  rintro ⟨bytes, done⟩
  have conflict : Except.error (CodecError.oneofConflict "Node" "label") = Except.ok bytes := done
  cases conflict

/-- A node whose number is a text is written as no bytes, for an empty text is zero. -/
theorem encode_misplaced_zero :
    Schema.tree.Accepted ∧
      ¬Schema.tree.Shaped (fun _ => false) ⟨"Node", [(1, .string "")], []⟩ ∧
      ((ofSchema .tree).withLimits {}).encode ⟨"Node", [(1, .string "")], []⟩ = .ok [] := by
  refine ⟨Schema.accepted_tree, fun shaped => ?_, by with_unfolding_all rfl⟩
  cases shaped with
  | @intro _ type held named declared shape exclusive =>
    have node : ∃ type ∈ Schema.tree.types, type.name = "Node" ∧
        ({ name := "id", tag := 1, type := .builtin .uint32 } : Field) ∈ type.fields := by decide
    obtain ⟨type', held', named', among⟩ := node
    obtain rfl := Schema.accepted_tree.eq_of_name held held' (named.trans named'.symm)
    cases shape _ among _ rfl with
    | excused _ zero => cases zero
    | single _ shape =>
      cases shape with
      | builtin holds => exact holds

end CodecSet

end Protobuf
