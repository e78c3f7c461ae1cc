import Protobuf.Proofs.Codec.Coherent
import Protobuf.Proofs.Schema.Accepted

/-! # Codecs of an accepted schema

Each type of an accepted schema has the codec derived from it, and no other codecs are there. Main
statement: these codecs are coherent. -/

namespace Protobuf

open Wire

theorem Field.exists_of_isMessage {field : Field} (embedded : field.isMessage) :
    ∃ name, field.type = .message name := by
  unfold Field.isMessage at embedded
  split at embedded
  · rename_i name kind
    exact ⟨name, kind⟩
  · cases embedded

theorem FieldType.exists_of_isMap {type : FieldType} (mapped : type.isMap) :
    ∃ key value, type = .map key value := by
  cases type with
  | map key value => exact ⟨key, value, rfl⟩
  | builtin | enum | message => cases mapped

namespace FieldForm

/-- The form of a single value of a type. -/
inductive OfType : FieldType → FieldForm → Prop
  | builtin (type : Builtin) : OfType (.builtin type) (.single (.ofBuiltin type))
  | enum (name : String) : OfType (.enum name) (.single (.numeric .enum))
  | message (name : String) : OfType (.message name) (.message name)

variable {type : FieldType} {form : FieldForm} {message : String} {field : Field}

theorem ofField_map {key value : FieldType} (kind : field.type = .map key value) :
    ofField message field = .map (Name.join message (entryName field.name)) := by
  simp only [ofField, kind]

theorem ofField_message {name : String} (kind : field.type = .message name)
    (single : field.cardinality.isRepeated = false) : ofField message field = .message name := by
  simp only [ofField, kind, single]

theorem ofField_messages {name : String} (kind : field.type = .message name)
    (repeated : field.cardinality.isRepeated) : ofField message field = .messages name := by
  simp only [ofField, kind, repeated]

theorem OfType.isRepeated (ofType : OfType type form) : form.isRepeated = false := by
  cases ofType <;> rfl

theorem OfType.isMap (ofType : OfType type form) : type.isMap = false := by
  cases ofType <;> rfl

theorem OfType.eq_of_target? {target : String} (ofType : OfType type form)
    (named : form.target? = some target) : type = .message target := by
  cases ofType with
  | builtin | enum => cases named
  | message name => rw [Option.some.inj named]

theorem exists_ofType (single : type.isMap = false) : ∃ form, OfType type form := by
  cases type with
  | builtin type => exact ⟨_, .builtin type⟩
  | enum name => exact ⟨_, .enum name⟩
  | message name => exact ⟨_, .message name⟩
  | map => cases single

/-- A type of single values has the form of its kind. -/
theorem OfType.of_scalar {scalar : Scalar} (known : Scalar.ofType? type = some scalar) :
    OfType type (.single scalar) := by
  cases type with
  | builtin type =>
    cases known
    exact .builtin type
  | enum name =>
    cases known
    exact .enum name
  | message | map => cases known

theorem OfType.ofField (ofType : OfType field.type form)
    (single : field.cardinality.isRepeated = false) : ofField message field = form := by
  unfold FieldForm.ofField
  generalize field.type = type at ofType
  cases ofType <;> simp [single]

/-- A form of any number of values and the form of each of them. -/
inductive Many : FieldForm → FieldForm → Prop
  | repeated (scalar : Scalar) : Many (.single scalar) (.repeated scalar)
  | packed (kind : Numeric) : Many (.single (.numeric kind)) (.packed kind)
  | messages (type : String) : Many (.message type) (.messages type)

theorem Many.isRepeated {many : FieldForm} (each : Many form many) : many.isRepeated := by
  cases each <;> rfl

theorem Many.target? {many : FieldForm} (each : Many form many) : many.target? = form.target? := by
  cases each <;> rfl

theorem Many.closed {set : CodecSet} {many : FieldForm} (each : Many form many)
    (closed : form.Closed set) : many.Closed set := by
  cases each with
  | repeated => exact .repeated _
  | packed => exact .packed _
  | messages =>
    cases closed with
    | message found => exact .messages found

theorem OfType.many (ofType : OfType field.type form) (message : String)
    (repeated : field.cardinality.isRepeated) : Many form (FieldForm.ofField message field) := by
  unfold FieldForm.ofField
  generalize field.type = type at ofType
  cases ofType with
  | builtin type =>
    cases scalar : Scalar.ofBuiltin type with
    | numeric kind =>
      simp only [repeated, scalar]
      split
      · exact .packed kind
      · exact .repeated _
    | _ =>
      simp only [repeated, scalar]
      exact .repeated _
  | enum name =>
    simp only [repeated]
    split
    · exact .packed .enum
    · exact .repeated _
  | message name =>
    simp only [repeated]
    exact .messages name

/-- How a field comes by its form. -/
inductive Formed (message : String) (field : Field) : FieldForm → Prop
  | single {form : FieldForm} (ofType : OfType field.type form)
    (single : field.cardinality.isRepeated = false) : Formed message field form
  | many {form many : FieldForm} (ofType : OfType field.type form)
    (repeated : field.cardinality.isRepeated) (each : Many form many) : Formed message field many
  | map {key value : FieldType} (kind : field.type = .map key value) :
    Formed message field (.map (Name.join message (entryName field.name)))

theorem formed_ofField (message : String) (field : Field) :
    Formed message field (ofField message field) := by
  cases isMap : field.type.isMap with
  | true =>
    obtain ⟨key, value, kind⟩ := FieldType.exists_of_isMap isMap
    exact ofField_map kind ▸ .map kind
  | false =>
    obtain ⟨form, ofType⟩ := exists_ofType isMap
    cases repeated : field.cardinality.isRepeated with
    | true => exact .many ofType repeated (ofType.many message repeated)
    | false => exact ofType.ofField repeated ▸ .single ofType repeated

/-- A field has any number of values exactly if it is repeated or a map. -/
theorem isRepeated_ofField (message : String) (field : Field) :
    (FieldForm.ofField message field).isRepeated = field.isRepeated := by
  have formed := formed_ofField message field
  generalize ofField message field = form at formed
  rw [Field.isRepeated, Field.isMap]
  cases formed with
  | single ofType single => rw [ofType.isRepeated, single, ofType.isMap, Bool.or_false]
  | many ofType repeated each => rw [each.isRepeated, repeated, Bool.true_or]
  | map kind =>
    rw [kind, FieldType.isMap, Bool.or_true]
    rfl

/-- Only a map field has the form of a map, and its entries are in the message. -/
theorem exists_of_ofField_eq_map {entry : String}
    (form : FieldForm.ofField message field = .map entry) :
    ∃ key value, field.type = .map key value ∧
      entry = Name.join message (entryName field.name) := by
  have formed := form ▸ formed_ofField message field
  cases formed with
  | single ofType =>
    generalize field.type = type at ofType
    cases ofType
  | many _ _ each => cases each
  | map kind => exact ⟨_, _, kind, rfl⟩

end FieldForm

/-- The maps among the fields of an entry message have entry messages of their own. -/
theorem FieldType.exists_entry_of_mem {type key value : FieldType} {scope fieldName : String}
    {entry : MessageType} (held : entry ∈ type.entryMessages scope fieldName) {field : Field}
    (declared : field ∈ entry.fields) (kind : field.type = .map key value) :
    ∃ inner ∈ type.entryMessages scope fieldName,
      inner.name = Name.join entry.name (entryName field.name) := by
  induction type generalizing scope fieldName with
  | map outerKey outerValue ihKey ihValue =>
    rw [entryMessages, List.mem_cons, List.mem_append] at held
    rcases held with rfl | inKey | inValue
    · simp only [entryMessage, List.mem_cons, List.not_mem_nil, or_false] at declared
      rcases declared with rfl | rfl
      · obtain rfl : outerKey = .map key value := kind
        exact ⟨_, List.mem_cons_of_mem _ (List.mem_append_left _ (mem_entryMessages ..)), rfl⟩
      · obtain rfl : outerValue = .map key value := kind
        exact ⟨_, List.mem_cons_of_mem _ (List.mem_append_right _ (mem_entryMessages ..)), rfl⟩
    · obtain ⟨inner, there, named⟩ := ihKey inKey
      exact ⟨inner, List.mem_cons_of_mem _ (List.mem_append_left _ there), named⟩
    · obtain ⟨inner, there, named⟩ := ihValue inValue
      exact ⟨inner, List.mem_cons_of_mem _ (List.mem_append_right _ there), named⟩
  | _ => cases held

/-- The maps of a message and of its entry messages have entry messages in it. -/
theorem MessageType.exists_entry_of_map {outer type : MessageType}
    (inside : type ∈ outer :: outer.entryMessages) {field : Field} (declared : field ∈ type.fields)
    {key value : FieldType} (kind : field.type = .map key value) :
    ∃ entry ∈ outer.entryMessages, entry.name = Name.join type.name (entryName field.name) := by
  rcases List.mem_cons.1 inside with rfl | among
  · exact ⟨_, MessageType.mem_entryMessages declared kind, rfl⟩
  · obtain ⟨scope, owned, among⟩ := List.mem_flatMap.1 among
    obtain ⟨inner, there, named⟩ := FieldType.exists_entry_of_mem among declared kind
    exact ⟨inner, List.mem_flatMap.2 ⟨scope, owned, there⟩, named⟩

namespace CodecSet

variable {schema : Schema}

/-- Every message of the registry of a schema is one of the schema. -/
theorem mem_values_ofSchema_iff (accepted : schema.Accepted) {type : MessageType} :
    type ∈ (Registry.ofSchema schema).messages.values ↔ type ∈ schema.allMessages := by
  rw [Table.mem_values_iff]
  constructor
  · rintro ⟨name, found⟩
    have first : schema.allMessages.find? (·.name = name) = some type :=
      (Schema.message?_ofSchema name).symm.trans found
    exact List.mem_of_find?_eq_some first
  · exact fun held => ⟨type.name, accepted.message?_of_mem held⟩

theorem codecs_foldl_addMessage (registry : Registry) (types : List MessageType)
    (set : CodecSet) :
    (types.foldl (addMessage registry) set).codecs =
      (types.flatMap fun type => type :: type.entryMessages).foldl
        (fun table type => table.insert type.name (.ofType registry type)) set.codecs := by
  have each : ∀ (items : List MessageType) (set : CodecSet),
      (items.foldl (fun set type => set.insert (.ofType registry type)) set).codecs =
        items.foldl (fun table type => table.insert type.name (.ofType registry type))
          set.codecs := by
    intro items
    induction items with
    | nil => exact fun set => rfl
    | cons item rest ih => exact fun set => ih _
  induction types generalizing set with
  | nil => rfl
  | cons type rest ih => rw [List.foldl_cons, ih, addMessage, each, List.flatMap_cons,
      List.foldl_append]

section OfRegistry

variable {registry : Registry} {name : String} {codec : MessageCodec}

/-- The codec of a name is that of the last message or entry message with that name. -/
theorem get?_ofRegistry (registry : Registry) (name : String) :
    (ofRegistry registry).get? name =
      ((registry.messages.values.flatMap fun type =>
        type :: type.entryMessages).reverse.find? (·.name = name)).map (.ofType registry) := by
  have table := codecs_foldl_addMessage registry registry.messages.values {}
  refine ((congrArg (Table.get? · name) table).trans (Table.get?_foldl_insert MessageType.name
    (MessageCodec.ofType registry) _ _ name)).trans ?_
  rw [Table.get?_empty, Option.or_none]

/-- Every message of a registry and each of its entry messages has some codec. -/
theorem isSome_get?_ofRegistry {outer type : MessageType}
    (held : outer ∈ registry.messages.values) (inside : type ∈ outer :: outer.entryMessages) :
    ((ofRegistry registry).get? type.name).isSome := by
  rw [get?_ofRegistry, Option.isSome_map, List.find?_isSome]
  exact ⟨type, List.mem_reverse.2 (List.mem_flatMap.2 ⟨outer, held, inside⟩), by simp⟩

/-- In generated codecs, the entries of each map have a codec. -/
theorem isSome_get?_of_map (found : (ofRegistry registry).get? name = some codec)
    {plan : FieldPlan} (planned : plan ∈ codec.fields) {entry : String}
    (form : plan.form = .map entry) : ((ofRegistry registry).get? entry).isSome := by
  rw [get?_ofRegistry, Option.map_eq_some_iff] at found
  obtain ⟨type, last, rfl⟩ := found
  obtain ⟨outer, held, inside⟩ :=
    List.mem_flatMap.1 (List.mem_reverse.1 (List.mem_of_find?_eq_some last))
  obtain ⟨field, declared, rfl⟩ := List.mem_map.1 planned
  obtain ⟨key, value, kind, rfl⟩ := FieldForm.exists_of_ofField_eq_map form
  obtain ⟨entry, among, named⟩ := MessageType.exists_entry_of_map inside declared kind
  exact named ▸ isSome_get?_ofRegistry held (List.mem_cons_of_mem _ among)

end OfRegistry

/-- Exactly the types of an accepted schema have codecs, each the one derived from it. -/
theorem get?_ofSchema_iff (accepted : schema.Accepted) {name : String} {codec : MessageCodec} :
    (ofSchema schema).get? name = some codec ↔
      ∃ type ∈ schema.types, type.name = name ∧ codec = .ofType (.ofSchema schema) type := by
  have held : ∀ type, type ∈ (((Registry.ofSchema schema).messages.values.flatMap fun type =>
      type :: type.entryMessages).reverse) ↔ type ∈ schema.types := by
    intro type
    simp only [List.mem_reverse, List.mem_flatMap, mem_values_ofSchema_iff accepted,
      Schema.types]
  rw [ofSchema, get?_ofRegistry, Option.map_eq_some_iff]
  constructor
  · rintro ⟨type, last, rfl⟩
    exact ⟨type, (held type).1 (List.mem_of_find?_eq_some last),
      by simpa using List.find?_some last, rfl⟩
  · rintro ⟨type, declared, rfl, rfl⟩
    refine ⟨type, ?_, rfl⟩
    refine find?_eq_some_of_unique ((held type).2 declared) (by simp) fun other held' same => ?_
    exact accepted.eq_of_name ((held other).1 held') declared (by simpa using same)

theorem get?_ofSchema_of_mem (accepted : schema.Accepted) {type : MessageType}
    (held : type ∈ schema.types) :
    (ofSchema schema).get? type.name = some (.ofType (.ofSchema schema) type) :=
  (get?_ofSchema_iff accepted).2 ⟨type, held, rfl, rfl⟩

/-- The codec of an entry message is that of a kind of key and a form of one value. -/
theorem ofType_entryMessage (registry : Registry) (name : String) (key : Builtin)
    {value : FieldType} {form : FieldForm} (ofType : FieldForm.OfType value form) :
    MessageCodec.ofType registry (entryMessage name (.builtin key) value) =
      entryCodec name (.ofBuiltin key) form := by
  cases ofType <;> rfl

theorem isKey_ofBuiltin {type : Builtin} (valid : type.isValidMapKey) :
    (Scalar.ofBuiltin type).isKey := by
  cases type <;> first | rfl | exact absurd valid (by decide)

/-- The entries of a map field have a codec, that of their kind of key and form of value. -/
theorem exists_entryCodec (accepted : schema.Accepted) {type : MessageType}
    (held : type ∈ schema.types) {field : Field} (declared : field ∈ type.fields)
    {key value : FieldType} (isMap : field.type = .map key value) :
    ∃ (builtin : Builtin) (form : FieldForm), key = .builtin builtin ∧
      builtin.isValidMapKey ∧ FieldForm.OfType value form ∧
      (ofSchema schema).get? (Name.join type.name (entryName field.name)) =
        some (entryCodec (Name.join type.name (entryName field.name)) (.ofBuiltin builtin)
          form) := by
  obtain ⟨-, keyed, single⟩ := ((accepted.valid held).fields field declared).map key value isMap
  have entry := accepted.entryMessage_mem held declared isMap
  obtain ⟨form, ofType⟩ := FieldForm.exists_ofType single
  cases key with
  | builtin builtin =>
    exact ⟨builtin, form, rfl, keyed, ofType, (get?_ofSchema_iff accepted).2
      ⟨_, entry, rfl, (ofType_entryMessage _ _ builtin ofType).symm⟩⟩
  | _ => simp [FieldType.isValidMapKey] at keyed

/-- The types that the plan of a declared field names have codecs. -/
theorem closed_ofField (accepted : schema.Accepted) {type : MessageType}
    (held : type ∈ schema.types) {field : Field} (declared : field ∈ type.fields) :
    (FieldForm.ofField type.name field).Closed (ofSchema schema) := by
  have closed {form : FieldForm} (ofType : FieldForm.OfType field.type form) :
      form.Closed (ofSchema schema) := by
    generalize kind : field.type = fieldType at ofType
    cases ofType with
    | builtin => exact .single _
    | enum => exact .single _
    | message name =>
      obtain ⟨target, there, rfl⟩ := accepted.exists_of_message held declared kind
      exact .message
        (get?_ofSchema_of_mem accepted (Schema.mem_types_of_mem_allMessages there))
  have formed := FieldForm.formed_ofField type.name field
  generalize FieldForm.ofField type.name field = form at formed
  cases formed with
  | single ofType => exact closed ofType
  | many ofType _ each => exact each.closed (closed ofType)
  | map kind =>
    obtain ⟨builtin, form, -, keyed, ofType, found⟩ :=
      exists_entryCodec accepted held declared kind
    exact .map (isKey_ofBuiltin keyed) ofType.isRepeated found

/-- The codecs of an accepted schema are coherent. -/
theorem coherent_ofSchema (accepted : schema.Accepted) : (ofSchema schema).Coherent := by
  intro name codec found
  obtain ⟨type, held, rfl, rfl⟩ := (get?_ofSchema_iff accepted).1 found
  have valid := accepted.valid held
  have ofPlan : ∀ plan ∈ (MessageCodec.ofType (.ofSchema schema) type).fields,
      ∃ field ∈ type.fields, plan = .ofField (.ofSchema schema) type.name field := by
    intro plan planned
    obtain ⟨field, declared, rfl⟩ := List.mem_map.1 planned
    exact ⟨field, declared, rfl⟩
  have contains_iff : ∀ (tags : KeySet Nat) tag, tags.contains tag = true ↔ tag ∈ tags.keys := by
    intro tags tag
    simp only [Table.contains, Option.isSome_iff_exists, Table.get?_eq_some_iff, Table.keys,
      List.mem_map, Prod.exists, exists_and_right, exists_eq_right]
  refine ⟨rfl, ?_, ?_, ?_, ?_, ?_, ?_, ?_⟩
  · have tags := List.pairwise_map.2 valid.tags
    simpa [MessageCodec.ofType, FieldPlan.ofField, Function.comp_def, List.Nodup] using tags
  · intro plan planned
    obtain ⟨field, declared, rfl⟩ := ofPlan plan planned
    exact (valid.fields field declared).pos
  · intro plan planned
    obtain ⟨field, declared, rfl⟩ := ofPlan plan planned
    exact (valid.fields field declared).le
  · intro plan planned
    obtain ⟨field, declared, rfl⟩ := ofPlan plan planned
    exact closed_ofField accepted held declared
  · intro plan planned grouped
    obtain ⟨field, declared, rfl⟩ := ofPlan plan planned
    have once := (valid.fields field declared).isRepeated_eq_false grouped
    exact (FieldForm.isRepeated_ofField type.name field).trans once
  · intro plan planned group grouped
    obtain ⟨field, declared, rfl⟩ := ofPlan plan planned
    obtain ⟨tags, table, listed⟩ := valid.listed field declared group grouped
    exact ⟨tags, table, (contains_iff _ _).1 listed⟩
  · intro group tags table tag listed
    obtain ⟨field, declared, same, grouped⟩ :=
      valid.members group tags table tag ((contains_iff _ _).2 listed)
    exact ⟨.ofField (.ofSchema schema) type.name field, List.mem_map.2 ⟨field, declared, rfl⟩,
      same, grouped⟩

theorem coherent_ofType (accepted : schema.Accepted) {type : MessageType}
    (held : type ∈ schema.types) :
    (MessageCodec.ofType (.ofSchema schema) type).Coherent (ofSchema schema) type.name :=
  coherent_ofSchema accepted type.name _ (get?_ofSchema_of_mem accepted held)

/-- Rivals in the codec of a type are declared fields of one group. -/
theorem exists_of_rivals_ofType {registry : Registry} {type : MessageType} {tag other : Nat}
    (rivals : (MessageCodec.ofType registry type).Rivals tag other) :
    ∃ field ∈ type.fields, ∃ field' ∈ type.fields, field.tag = tag ∧ field'.tag = other ∧
      field.oneof.isSome ∧ field.oneof = field'.oneof := by
  have member {tag : Nat} {group : String}
      (grouped : (MessageCodec.ofType registry type).group? tag = some group) :
      ∃ field ∈ type.fields, field.tag = tag ∧ field.oneof = some group := by
    obtain ⟨plan, planned, named⟩ := Option.bind_eq_some_iff.1 grouped
    obtain ⟨field, declared, rfl⟩ := List.mem_map.1 (MessageCodec.reader?_mem planned)
    exact ⟨field, declared, MessageCodec.reader?_tag planned, named⟩
  obtain ⟨-, grouped, same⟩ := rivals
  obtain ⟨group, grouped⟩ := Option.isSome_iff_exists.1 grouped
  obtain ⟨field, declared, here, named⟩ := member grouped
  obtain ⟨field', declared', there, named'⟩ := member (same ▸ grouped)
  exact ⟨field, declared, field', declared', here, there, named ▸ rfl, named.trans named'.symm⟩

/-- Limits do not matter for what a form names. -/
theorem closed_withLimits {set : CodecSet} {form : FieldForm} (closed : form.Closed set)
    (limits : Limits) : form.Closed (set.withLimits limits) :=
  closed.transfer fun _ _ _ found => found

/-- Limits do not matter for coherence. -/
theorem Coherent.withLimits {set : CodecSet} (coherent : set.Coherent) (limits : Limits) :
    (set.withLimits limits).Coherent := by
  intro name codec found
  have good := coherent name codec found
  exact good.transfer fun plan held => closed_withLimits (good.closed plan held) limits

end CodecSet

end Protobuf
