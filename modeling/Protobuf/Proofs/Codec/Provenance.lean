import Protobuf.Proofs.Codec.RoundTrip

/-! # What a message was read from

A message keeps the records that its type does not declare. An embedded one may have been read from
several records, whose payloads were merged: it keeps what is undeclared in all of these and nothing
else, in the order in which it was read. Main statement: `readsCarrying_decodeWithin`.

## Implementation notes

Merging embedded messages is not associative where a member of a group is displaced, so what is left
of a field depends on how its records were grouped. `Provenance` keeps this grouping. -/

namespace Protobuf

open Wire

/-- What a message or a field was read from: nothing, a record, or what two of them were read from,
of which the second was merged into the first. -/
inductive Provenance
  | nothing
  | single (record : Record)
  | merged (first second : Provenance)

namespace Provenance

/-- The records, in the order they were read. -/
def records : Provenance → List Record
  | nothing => []
  | single record => [record]
  | merged first second => first.records ++ second.records

/-- A row of records is merged one after another. -/
def ofRow (row : List Record) : Provenance :=
  row.foldl (fun origin record => .merged origin (.single record)) .nothing

/-- What a field was read from, the second into the first if there is a first. -/
def join (first second : Provenance) : Provenance :=
  if first.records = [] then second else .merged first second

/-- What the field with a tag was read from, of a message of a type. A message that has only a rival
of the field displaces what was there. -/
def field (type : MessageType) : Provenance → Nat → Provenance
  | nothing, _ => nothing
  | single record, tag => if record.key.tag = tag then single record else nothing
  | merged first second, tag =>
    if (second.field type tag).records ≠ [] then
      (first.field type tag).join (second.field type tag)
    else if ∃ rival ∈ type.fields, type.Rivals rival.tag tag ∧
        (second.field type rival.tag).records ≠ [] then nothing
    else first.field type tag

/-- The payloads of records, each taken apart into its own records, and merged as the records
were. -/
inductive Inside (maxLength : Nat) : Provenance → Provenance → Prop
  | single {record : Record} {slice : Slice} {row : List Record}
    (value : record.value = .payload slice) (apart : Record.Row maxLength 0 slice.bytes row) :
    Inside maxLength (.single record) (.ofRow row)
  | merged {first second first' second' : Provenance} (inside : Inside maxLength first first')
    (inside' : Inside maxLength second second') :
    Inside maxLength (.merged first second) (.merged first' second')

variable {type : MessageType} {first second : Provenance} {tag : Nat}

@[simp] theorem records_ofRow (row : List Record) : (ofRow row).records = row := by
  suffices ∀ origin : Provenance,
      (row.foldl (fun origin record => .merged origin (.single record)) origin).records =
        origin.records ++ row from this .nothing
  induction row with
  | nil => exact fun origin => (List.append_nil _).symm
  | cons head rest ih =>
    intro origin
    rw [List.foldl_cons, ih, records, records, List.append_assoc, List.singleton_append]

@[simp] theorem records_join : (first.join second).records = first.records ++ second.records := by
  unfold join
  split
  · rename_i empty
    rw [empty, List.nil_append]
  · rfl

theorem field_merged_of_set (set : (second.field type tag).records ≠ []) :
    (merged first second).field type tag =
      (first.field type tag).join (second.field type tag) := by
  rw [field, if_pos set]

theorem field_merged_of_rival (unset : (second.field type tag).records = []) {rival : Field}
    (declared : rival ∈ type.fields) (rivals : type.Rivals rival.tag tag)
    (set : (second.field type rival.tag).records ≠ []) :
    (merged first second).field type tag = nothing := by
  rw [field, if_neg (not_not.2 unset), if_pos ⟨rival, declared, rivals, set⟩]

theorem field_merged_of_quiet (unset : (second.field type tag).records = [])
    (quiet : ∀ rival ∈ type.fields, type.Rivals rival.tag tag →
      (second.field type rival.tag).records = []) :
    (merged first second).field type tag = first.field type tag := by
  rw [field, if_neg (not_not.2 unset), if_neg]
  rintro ⟨rival, declared, rivals, set⟩
  exact set (quiet rival declared rivals)

end Provenance

/-- The records that a type does not declare. -/
def MessageType.undeclared (type : MessageType) (records : List Record) : List Record :=
  records.filter fun record => ∀ field ∈ type.fields, field.tag ≠ record.key.tag

@[simp] theorem MessageType.undeclared_append (type : MessageType) (records more : List Record) :
    type.undeclared (records ++ more) = type.undeclared records ++ type.undeclared more :=
  List.filter_append ..

/-- What a single value of a type reads as while it is not set. -/
def FieldType.zero : FieldType → Value
  | .builtin type => (Scalar.ofBuiltin type).zero
  | .enum _ => Numeric.enum.zero
  | .message name => .message (.new name)
  | .map _ _ => .map []

/-- A form and its type read alike while nothing is set. -/
theorem FieldForm.OfType.zero_eq {type : FieldType} {form : FieldForm} (ofType : OfType type form) :
    form.zero = type.zero := by
  cases ofType <;> rfl

/-- The key and the value that an entry message stands for. -/
def Message.keyAndValue (key value : FieldType) (entry : Message) : Value × Value :=
  ((entry.get? 1).getD key.zero, (entry.get? 2).getD value.zero)

namespace Schema

mutual

/-- A message knows exactly what is undeclared in the records it was read from, and each embedded
message what is undeclared in the payloads it was read from. -/
inductive Carries (schema : Schema) (maxLength : Nat) : Provenance → Message → Prop
  | intro {type : MessageType} {origin : Provenance} {message : Message}
    (held : type ∈ schema.types) (named : type.name = message.typeName)
    (unknown : message.unknown = (type.undeclared origin.records).map (·.keep))
    (set : ∀ field ∈ type.fields,
      (message.get? field.tag).isSome ↔ (origin.field type field.tag).records ≠ [])
    (fields : ∀ field ∈ type.fields, ∀ value, message.get? field.tag = some value →
      FieldCarries schema maxLength type.name field (origin.field type field.tag) value) :
    Carries schema maxLength origin message

/-- The messages in a field know what is undeclared in what they were read from: a single one in the
payloads of all the records, the elements of a list and the entries of a map in those of a record
each. Fields of other types hold no messages. -/
inductive FieldCarries (schema : Schema) (maxLength : Nat) :
    String → Field → Provenance → Value → Prop
  | plain {scope : String} {field : Field} {origin : Provenance} {value : Value}
    (plain : field.isMessage = false) (unmapped : field.isMap = false) :
    FieldCarries schema maxLength scope field origin value
  | message {scope : String} {field : Field} {origin origin' : Provenance} {message : Message}
    (kind : field.type = .message message.typeName)
    (single : field.cardinality.isRepeated = false) (inside : origin.Inside maxLength origin')
    (carries : Carries schema maxLength origin' message) :
    FieldCarries schema maxLength scope field origin (.message message)
  | messages {scope name : String} {field : Field} {origin : Provenance} {elements : List Message}
    (kind : field.type = .message name) (repeated : field.cardinality.isRepeated)
    (each : EachCarries schema maxLength name origin.records elements) :
    FieldCarries schema maxLength scope field origin (.list (elements.map .message))
  | map {scope : String} {field : Field} {key value : FieldType} {origin : Provenance}
    {entries : List Message} (kind : field.type = .map key value)
    (each : EachCarries schema maxLength (Name.join scope (entryName field.name)) origin.records
      entries) (keys : ∀ entry ∈ entries, schema.Holds key (entry.keyAndValue key value).1) :
    FieldCarries schema maxLength scope field origin
      (.map (Value.setEntries [] (entries.map (Message.keyAndValue key value))))

/-- Messages of a type each know what is undeclared in the payload of a record of their own. -/
inductive EachCarries (schema : Schema) (maxLength : Nat) :
    String → List Record → List Message → Prop
  | nil {name : String} : EachCarries schema maxLength name [] []
  | cons {name : String} {record : Record} {records : List Record} {slice : Slice}
    {row : List Record} {message : Message} {messages : List Message}
    (value : record.value = .payload slice) (apart : Record.Row maxLength 0 slice.bytes row)
    (named : message.typeName = name) (carries : Carries schema maxLength (.ofRow row) message)
    (rest : EachCarries schema maxLength name records messages) :
    EachCarries schema maxLength name (record :: records) (message :: messages)

end

/-- A message of a type knows what it should, and each of its fields does. -/
structure CarriesTo (schema : Schema) (maxLength : Nat) (type : MessageType) (origin : Provenance)
    (message : Message) : Prop where
  unknown : message.unknown = (type.undeclared origin.records).map (·.keep)
  set : ∀ field ∈ type.fields,
    (message.get? field.tag).isSome ↔ (origin.field type field.tag).records ≠ []
  fields : ∀ field ∈ type.fields, ∀ value, message.get? field.tag = some value →
    FieldCarries schema maxLength type.name field (origin.field type field.tag) value

variable {schema : Schema} {maxLength : Nat} {type : MessageType} {origin : Provenance}
  {message : Message}

theorem carries_iff (accepted : schema.Accepted) (held : type ∈ schema.types)
    (named : type.name = message.typeName) :
    schema.Carries maxLength origin message ↔ schema.CarriesTo maxLength type origin message := by
  constructor
  · intro carries
    cases carries with
    | intro held' named' unknown set fields =>
      obtain rfl := accepted.eq_of_name held' held (named'.trans named.symm)
      exact ⟨unknown, set, fields⟩
  · exact fun carries => .intro held named carries.unknown carries.set carries.fields

/-- A message with nothing set was read from nothing. -/
theorem carries_new (held : type ∈ schema.types) :
    schema.Carries maxLength .nothing (.new type.name) := by
  refine .intro held rfl rfl (fun field _ => ?_) fun field _ value there => by cases there
  simp [Provenance.field, Provenance.records]

theorem EachCarries.append {name : String} {records more : List Record}
    {messages others : List Message} (each : EachCarries schema maxLength name records messages)
    (each' : EachCarries schema maxLength name more others) :
    EachCarries schema maxLength name (records ++ more) (messages ++ others) := by
  induction records generalizing messages with
  | nil =>
    cases each
    exact each'
  | cons record rest ih =>
    cases each with
    | cons value apart named carries rest => exact .cons value apart named carries (ih rest)

/-- A message holds a rival of a field exactly if the field of a rival was read from something. -/
theorem CarriesTo.ousts_iff (accepted : schema.Accepted) (held : type ∈ schema.types)
    (carries : schema.CarriesTo maxLength type origin message) {tag : Nat} :
    (MessageCodec.ofType (.ofSchema schema) type).Ousts message.fields tag ↔
      ∃ rival ∈ type.fields, type.Rivals rival.tag tag ∧
        (origin.field type rival.tag).records ≠ [] := by
  constructor
  · rintro ⟨other, rivals, there⟩
    have rivals := (CodecSet.rivals_ofType_iff accepted held).1 rivals
    obtain ⟨-, rival, declared, -, -, rfl, -⟩ := id rivals
    exact ⟨rival, declared, rivals, (carries.set rival declared).1 there⟩
  · rintro ⟨rival, declared, rivals, there⟩
    exact ⟨rival.tag, (CodecSet.rivals_ofType_iff accepted held).2 rivals,
      (carries.set rival declared).2 there⟩

end Schema

namespace CodecSet

open Schema (FieldCarries EachCarries)

variable {schema : Schema} {limits : Limits} {maxLength : Nat}

/-- Of two messages that know what they should, the second merged into the first does too, as far
as it nests less than a bound. -/
def CarriesBelow (schema : Schema) (set : CodecSet) (maxLength bound : Nat) : Prop :=
  ∀ (origin origin' : Provenance) (target source result : Message), source.depth < bound →
    Conforms set target → Conforms set source → source.typeName = target.typeName →
    schema.Carries maxLength origin target → schema.Carries maxLength origin' source →
    merge set target source = .ok result →
    schema.Carries maxLength (.merged origin origin') result

/-- What two fields of maps hold together is what is set by the entries of both, one after
another. -/
theorem setEntries_keyAndValue (accepted : schema.Accepted) {type : MessageType}
    (held : type ∈ schema.types) {field : Field} (declared : field ∈ type.fields)
    {key value : FieldType} (kind : field.type = .map key value) {entries more : List Message}
    (keys : ∀ entry ∈ entries, schema.Holds key (entry.keyAndValue key value).1)
    (keys' : ∀ entry ∈ more, schema.Holds key (entry.keyAndValue key value).1) :
    Value.setEntries (Value.setEntries [] (entries.map (Message.keyAndValue key value)))
        (Value.setEntries [] (more.map (Message.keyAndValue key value))) =
      Value.setEntries [] ((entries ++ more).map (Message.keyAndValue key value)) := by
  obtain ⟨builtin, -, rfl, valid, -, -⟩ := exists_entryCodec accepted held declared kind
  have identity := sameIsEq_holds (isKey_ofBuiltin valid)
  have areKeys {entries : List Message}
      (keys : ∀ entry ∈ entries, schema.Holds (.builtin builtin)
        (entry.keyAndValue (.builtin builtin) value).1) :
      ∀ held ∈ entries.map (Message.keyAndValue (.builtin builtin) value),
        (Scalar.ofBuiltin builtin).Holds held.1 :=
    List.forall_mem_map.2 fun entry among => holds_builtin_iff.1 (keys entry among)
  have front := Value.areKeys_setEntries identity (List.forall_mem_nil _) (areKeys keys)
  calc Value.setEntries (Value.setEntries [] (entries.map _)) (Value.setEntries [] (more.map _))
    _ = Value.setEntries (Value.setEntries [] (entries.map _)) (more.map _) :=
      (Value.setEntries_assoc identity front (List.forall_mem_nil _) (areKeys keys')
        List.nodup_nil).symm
    _ = Value.setEntries [] (entries.map _ ++ more.map _) := (Value.setEntries_append _).symm
    _ = Value.setEntries [] ((entries ++ more).map _) := by rw [List.map_append]

/-- A value merged into another one, both of which know what they should, does too. -/
theorem fieldCarries_mergeValue (accepted : schema.Accepted) {bound : Nat}
    (below : CarriesBelow schema ((ofSchema schema).withLimits limits) maxLength bound)
    {type : MessageType} (held : type ∈ schema.types) {field : Field}
    (declared : field ∈ type.fields) {origin origin' : Provenance} {old value merged : Value}
    (carries : FieldCarries schema maxLength type.name field origin old)
    (carries' : FieldCarries schema maxLength type.name field origin' value)
    (fits : Fits ((ofSchema schema).withLimits limits) (.ofField type.name field) old)
    (fits' : Fits ((ofSchema schema).withLimits limits) (.ofField type.name field) value)
    (shallow : value.levels ≤ bound)
    (done : mergeValue ((ofSchema schema).withLimits limits) (some old) value = .ok merged) :
    FieldCarries schema maxLength type.name field (.merged origin origin') merged := by
  have coherent := (coherent_ofSchema accepted).withLimits limits
  cases carries' with
  | plain plain unmapped => exact .plain plain unmapped
  | @message _ _ _ inner' source kind single inside' carries' =>
    rw [FieldForm.ofField_message kind single] at fits fits'
    cases carries with
    | plain plain => simp [Field.isMessage, kind] at plain
    | messages _ repeated => simp [single] at repeated
    | map isMap => simp [kind] at isMap
    | @message _ _ _ inner target kind' _ inside carries =>
      cases fits with
      | message named conforms =>
        cases fits' with
        | message _ conforms' =>
          rw [mergeValue_message, map_eq_ok_iff] at done
          obtain ⟨result, done, rfl⟩ := done
          obtain ⟨result', done', named', -⟩ :=
            mergeable coherent conforms conforms' named.symm
          obtain rfl := Except.ok.inj (done.symm.trans done')
          rw [Value.levels_message] at shallow
          exact .message (by rw [kind, named', named]) single (.merged inside inside')
            (below _ _ _ _ _ shallow conforms conforms' named.symm carries carries' done)
  | messages kind repeated each' =>
    cases carries with
    | plain plain => simp [Field.isMessage, kind] at plain
    | message _ single => simp [single] at repeated
    | map isMap => simp [kind] at isMap
    | messages kind' _ each =>
      obtain rfl := FieldType.message.inj (kind.symm.trans kind')
      cases done
      rw [← List.map_append]
      exact .messages kind repeated (each.append each')
  | map kind each' keys' =>
    cases carries with
    | plain _ unmapped => simp [Field.isMap, FieldType.isMap, kind] at unmapped
    | message kind' => simp [kind] at kind'
    | messages kind' => simp [kind] at kind'
    | map kind' each keys =>
      obtain ⟨rfl, rfl⟩ := FieldType.map.inj (kind.symm.trans kind')
      cases done
      have together := setEntries_keyAndValue accepted held declared kind keys keys'
      rw [Value.setEntries] at together
      rw [together]
      exact .map kind (each.append each') (List.forall_mem_append.2 ⟨keys, keys'⟩)

/-- What a field holds after merging knows what it should. -/
theorem fieldCarries_merge (accepted : schema.Accepted) {target source result : Message}
    (below : CarriesBelow schema ((ofSchema schema).withLimits limits) maxLength source.depth)
    {type : MessageType} (held : type ∈ schema.types) {origin origin' : Provenance}
    (carries : schema.CarriesTo maxLength type origin target)
    (carries' : schema.CarriesTo maxLength type origin' source)
    (conforms : ConformsTo ((ofSchema schema).withLimits limits)
      (.ofType (.ofSchema schema) type) target)
    (conforms' : ConformsTo ((ofSchema schema).withLimits limits)
      (.ofType (.ofSchema schema) type) source)
    (absorbs : Absorbs ((ofSchema schema).withLimits limits) (.ofType (.ofSchema schema) type)
      target source.fields source.unknown result) {field : Field} (declared : field ∈ type.fields) :
    ((result.get? field.tag).isSome ↔
        ((Provenance.merged origin origin').field type field.tag).records ≠ []) ∧
      ∀ value, result.get? field.tag = some value →
        FieldCarries schema maxLength type.name field
          ((Provenance.merged origin origin').field type field.tag) value := by
  have planned := (reader?_ofType_iff accepted held).2 ⟨field, declared, rfl, rfl⟩
  have set := carries.set field declared
  have set' := carries'.set field declared
  -- The value of the source is merged into that of the target. Without one, a rival displaces the
  -- latter, and otherwise it stays.
  cases there : source.get? field.tag with
  | some value =>
    obtain ⟨merged, done, found⟩ := absorbs.merged field.tag value there
    have something : (origin'.field type field.tag).records ≠ [] := set'.1 (by rw [there]; rfl)
    rw [Provenance.field_merged_of_set something, found]
    refine ⟨by simp [something], ?_⟩
    rintro _ ⟨⟩
    cases before : target.get? field.tag with
    | none =>
      rw [before, mergeValue_none] at done
      cases done
      have nothing : (origin.field type field.tag).records = [] := by
        by_contra something
        simpa [before] using set.2 something
      rw [Provenance.join, if_pos nothing]
      exact carries'.fields field declared _ there
    | some old =>
      rw [before] at done
      rw [Provenance.join, if_neg (set.1 (by rw [before]; rfl))]
      exact fieldCarries_mergeValue accepted below held declared
        (carries.fields field declared _ before) (carries'.fields field declared _ there)
        (conforms.fits_plan before planned) (conforms'.fits_plan there planned)
        (MessageOf.levels_le_depth there) done
  | none =>
    have nothing : (origin'.field type field.tag).records = [] := by
      by_contra something
      simpa [there] using set'.2 something
    by_cases ousts : (MessageCodec.ofType (.ofSchema schema) type).Ousts source.fields field.tag
    · obtain ⟨rival, among, rivals, something⟩ := (carries'.ousts_iff accepted held).1 ousts
      rw [absorbs.displaced field.tag there ousts,
        Provenance.field_merged_of_rival nothing among rivals something]
      exact ⟨by simp [Provenance.records], fun value found => by cases found⟩
    · rw [absorbs.kept field.tag there ousts, Provenance.field_merged_of_quiet nothing]
      · exact ⟨set, carries.fields field declared⟩
      · intro rival among rivals
        by_contra something
        exact ousts ((carries'.ousts_iff accepted held).2 ⟨rival, among, rivals, something⟩)

/-- Of two messages that know what they should, the second merged into the first does too, however
deep it nests. -/
theorem carriesBelow (accepted : schema.Accepted) (limits : Limits) (maxLength bound : Nat) :
    CarriesBelow schema ((ofSchema schema).withLimits limits) maxLength bound := by
  have coherent := (coherent_ofSchema accepted).withLimits limits
  rintro origin origin' target source result -
  induction source using MessageOf.induct generalizing origin origin' target result with
  | nest source ih =>
    intro conforms conforms' same carries carries' done
    have below : CarriesBelow schema ((ofSchema schema).withLimits limits) maxLength
        source.depth := fun _ _ _ inner _ shallow => ih inner shallow _ _ _ _
    obtain ⟨codec, found, conforms⟩ := conforms.exists_codec
    obtain ⟨type, held, named, rfl⟩ := (get?_ofSchema_iff accepted).1 found
    have conforms' := (conforms_iff (same ▸ found)).1 conforms'
    obtain ⟨result', done', absorbs, -⟩ := merge_absorbs coherent found conforms conforms'
    obtain rfl := Except.ok.inj (done.symm.trans done')
    have carries := (Schema.carries_iff accepted held named).1 carries
    have carries' := (Schema.carries_iff accepted held (named.trans same.symm)).1 carries'
    have fields {field : Field} (declared : field ∈ type.fields) :=
      fieldCarries_merge accepted below held carries carries' conforms conforms' absorbs declared
    refine .intro held (named.trans absorbs.typeName.symm) ?_ (fun field declared =>
      (fields declared).1) fun field declared => (fields declared).2
    rw [absorbs.unknown, carries.unknown, carries'.unknown, Provenance.records,
      MessageType.undeclared_append, List.map_append]

/-! ## Reading -/

/-- Embedded messages that are read know what is undeclared in their payloads. -/
def ReadsCarrying (schema : Schema) (maxLength : Nat)
    (nested : String → Slice → Except CodecError Message) : Prop :=
  ∀ type slice decoded, nested type slice = .ok decoded → ∃ row,
    Record.Row maxLength 0 slice.bytes row ∧ schema.Carries maxLength (.ofRow row) decoded

/-- The value that a record of a field stands for knows what is undeclared in the payload. -/
theorem fieldCarries_of_reads (accepted : schema.Accepted)
    {nested : String → Slice → Except CodecError Message}
    (conforming : ReadsConforming ((ofSchema schema).withLimits limits) nested)
    (carrying : ReadsCarrying schema maxLength nested) {type : MessageType}
    (held : type ∈ schema.types) {field : Field} (declared : field ∈ type.fields)
    {record : Record} {value : Value}
    (reads : Reads ((ofSchema schema).withLimits limits) nested (.ofField type.name field)
      record.value value) :
    FieldCarries schema maxLength type.name field (.single record) value := by
  have coherent := (coherent_ofSchema accepted).withLimits limits
  cases kind : field.type with
  | builtin | enum => exact .plain (by simp [Field.isMessage, kind]) (by simp [Field.isMap, kind,
      FieldType.isMap])
  | message name =>
    cases repeated : field.cardinality.isRepeated with
    | false =>
      rw [FieldForm.ofField_message kind repeated] at reads
      generalize raw : record.value = value' at reads
      cases reads with
      | message done =>
        obtain ⟨row, apart, carries⟩ := carrying _ _ _ done
        obtain ⟨rfl, -⟩ := conforming _ _ _ done
        exact .message kind repeated (.single raw apart) carries
    | true =>
      rw [FieldForm.ofField_messages kind repeated] at reads
      generalize raw : record.value = value' at reads
      cases reads with
      | @messages _ _ decoded done =>
        obtain ⟨row, apart, carries⟩ := carrying _ _ _ done
        obtain ⟨named, -⟩ := conforming _ _ _ done
        have each : EachCarries schema maxLength name (Provenance.single record).records
            [decoded] := .cons raw apart named carries .nil
        exact .messages kind repeated each
  | map key value =>
    obtain ⟨builtin, form, rfl, valid, ofType, found⟩ :=
      exists_entryCodec accepted held declared kind
    have fits := reads.fits coherent conforming (closed_withLimits
      (closed_ofField accepted held declared) limits)
    rw [FieldForm.ofField_map kind] at reads fits
    generalize raw : record.value = value' at reads
    cases reads with
    | @map _ key' form' slice decoded found' done =>
      obtain ⟨rfl, rfl⟩ := entryCodec_unique found found'
      obtain ⟨row, apart, carries⟩ := carrying _ _ _ done
      obtain ⟨named, -⟩ := conforming _ _ _ done
      have pair : ((decoded.get? 1).getD (Scalar.ofBuiltin builtin).zero,
          (decoded.get? 2).getD form.zero) = decoded.keyAndValue (.builtin builtin) value := by
        rw [ofType.zero_eq]
        rfl
      have each : EachCarries schema maxLength (Name.join type.name (entryName field.name))
          (Provenance.single record).records [decoded] := .cons raw apart named carries .nil
      rw [pair] at fits ⊢
      refine .map kind each (List.forall_mem_singleton.2 (holds_builtin_iff.2 ?_))
      cases fits with
      | @map _ key' form' _ found' keys =>
        obtain ⟨rfl, rfl⟩ := entryCodec_unique found found'
        exact keys _ List.mem_cons_self

/-- The message that a record stands for knows the record if it is undeclared, and otherwise the
field of the record knows what it should. -/
theorem carries_recordMessage (accepted : schema.Accepted)
    {nested : String → Slice → Except CodecError Message}
    (conforming : ReadsConforming ((ofSchema schema).withLimits limits) nested)
    (carrying : ReadsCarrying schema maxLength nested) {type : MessageType}
    (held : type ∈ schema.types) {record : Record} {message : Message}
    (done : recordMessage ((ofSchema schema).withLimits limits) nested
      (.ofType (.ofSchema schema) type) record = .ok message) :
    schema.Carries maxLength (.single record) message := by
  have good := (coherent_ofSchema accepted).withLimits limits type.name _
    (get?_ofSchema_of_mem accepted held)
  rcases (recordMessage_eq_ok_iff good).1 done with
    ⟨plan, value, planned, reads, rfl⟩ | ⟨unplanned, rfl⟩
  · obtain ⟨field, declared, same, rfl⟩ := (reader?_ofType_iff accepted held).1 planned
    have known : type.undeclared [record] = [] :=
      List.filter_eq_nil_iff.2 fun other among => by
        rw [List.mem_singleton.1 among]
        simpa using ⟨field, declared, same⟩
    refine .intro held rfl (by rw [Provenance.records, known]; rfl) ?_ ?_
    · intro other _
      rw [MessageOf.get?_set, Provenance.field]
      by_cases here : other.tag = record.key.tag
      · simp [here, Provenance.records]
      · simp [here, Ne.symm here, Provenance.records]
    · intro other declared' value' found
      rw [MessageOf.get?_set] at found
      split at found
      · rename_i here
        cases found
        obtain rfl := (accepted.valid held).eq_of_tag declared' declared (here.trans same.symm)
        rw [Provenance.field, if_pos here.symm]
        exact fieldCarries_of_reads accepted conforming carrying held declared reads
      · cases found
  · have unplanned := (reader?_ofType_eq_none_iff accepted held).1 unplanned
    have alone : type.undeclared [record] = [record] :=
      List.filter_eq_self.2 fun other among => by
        rw [List.mem_singleton.1 among]
        simpa using unplanned
    refine .intro held rfl (by rw [Provenance.records, alone]; rfl) ?_ ?_
    · intro field declared
      rw [Provenance.field, if_neg (unplanned field declared).symm]
      simp [Provenance.records]
    · intro field _ value found
      cases found

/-- What a row of records leads to knows what is undeclared in the row. -/
theorem carries_foldlM (accepted : schema.Accepted)
    {nested : String → Slice → Except CodecError Message}
    (conforming : ReadsConforming ((ofSchema schema).withLimits limits) nested)
    (carrying : ReadsCarrying schema maxLength nested) {type : MessageType}
    (held : type ∈ schema.types) {place : Nat} {bytes : List UInt8} {row : List Record}
    (apart : Record.Row maxLength place bytes row) {message : Message}
    (done : row.foldlM (applyRecord ((ofSchema schema).withLimits limits) nested
      (.ofType (.ofSchema schema) type)) (.new type.name) = .ok message) :
    schema.Carries maxLength (.ofRow row) message := by
  have coherent := (coherent_ofSchema accepted).withLimits limits
  have found : ((ofSchema schema).withLimits limits).get? type.name = some _ :=
    get?_ofSchema_of_mem accepted held
  have start := conformsTo_new ((ofSchema schema).withLimits limits)
    (.ofType (.ofSchema schema) type) type.name
  -- The origin of a row grows at its end, so the induction goes from there.
  induction row using List.reverseRecOn generalizing bytes message with
  | nil =>
    cases done
    exact Schema.carries_new held
  | append_singleton front record ih =>
    obtain ⟨middle, before, last⟩ := foldlM_append_eq_ok_iff.1 done
    obtain ⟨used, rest, rfl, apartFront, apartLast⟩ := apart.of_append
    have carries := ih apartFront before
    obtain ⟨named, conforms⟩ :=
      conforms_foldlM coherent found conforming apartFront rfl start before
    rw [List.foldlM_cons, bind_eq_ok_iff] at last
    obtain ⟨_, last, ⟨⟩⟩ := last
    rw [applyRecord_eq (coherent _ _ found) (named ▸ found), bind_eq_ok_iff] at last
    obtain ⟨single, stands, merged⟩ := last
    have carries' := carries_recordMessage accepted conforming carrying held stands
    obtain ⟨named', conforms'⟩ := conforms_recordMessage coherent found conforming
      (Record.Row.singleton_iff.1 apartLast) stands
    rw [Provenance.ofRow, List.foldl_append]
    exact carriesBelow accepted limits maxLength _ _ _ _ _ _ (Nat.lt_succ_self _)
      ((conforms_iff (named ▸ found)).2 conforms) ((conforms_iff (named' ▸ found)).2 conforms')
      (named'.trans named.symm) carries carries' merged

/-- Messages that are read know what is undeclared in the bytes they were read from. -/
theorem readsCarrying_decodeWithin (accepted : schema.Accepted) (limits : Limits) (levels : Nat) :
    ReadsCarrying schema limits.maxLength
      (decodeWithin ((ofSchema schema).withLimits limits) levels) := by
  have coherent := (coherent_ofSchema accepted).withLimits limits
  induction levels with
  | zero => exact fun name slice decoded done => by cases done
  | succ levels ih =>
    intro name slice decoded done
    obtain ⟨codec, row, found, apart, folded⟩ := (decodeWithin_eq_ok_iff coherent).1 done
    obtain ⟨type, held, rfl, rfl⟩ := (get?_ofSchema_iff accepted).1 found
    exact ⟨row, apart, carries_foldlM accepted (readsConforming_decodeWithin coherent levels) ih
      held apart folded⟩

end CodecSet

end Protobuf
