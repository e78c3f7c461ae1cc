import Protobuf.Proofs.Codec.Field

/-! # Maps of messages that are read

A map field holds the last entry of each key. The records of an entry message come to its key and
its value like those of any message: a half that is missing reads as zero, of a scalar the last one
counts, and messages are merged. Main statement: `CodecSet.decode_map`. -/

namespace Protobuf

open Wire

namespace CodecSet

variable {schema : Schema} {limits : Limits} {set : CodecSet}
  {nested : String → Slice → Except CodecError Message} {records : List Record}

/-- The payload of a record is an entry: its records with the first tag come to the key, and those
with the second tag to the value. -/
def ReadsEntry (set : CodecSet) (levels : Nat) (key value : FieldType) (record : Record)
    (pair : Value × Value) : Prop :=
  ∃ slice row, record.value = .payload slice ∧
    Record.Row set.limits.maxLength 0 slice.bytes row ∧
    ComesTo set levels key (row.filter (·.key.tag = 1)) pair.1 ∧
    ComesTo set levels value (row.filter (·.key.tag = 2)) pair.2

/-- A map gathers the entries that its records stand for, set one after another. -/
theorem Gathers.exists_pairs {entry : String} {held : Option Value}
    (gathers : Gathers set nested (.map entry) records held) :
    ∃ pairs, List.Forall₂ (fun record pair =>
        Reads set nested (.map entry) record.value (.map [pair])) records pairs ∧
      held.getD (.map []) = .map (Value.setEntries [] pairs) := by
  induction gathers with
  | nothing => exact ⟨[], .nil, rfl⟩
  | @record front held record value merged gathers reads done ih =>
    obtain ⟨pairs, each, same⟩ := ih
    have single : ∃ pair, value = .map [pair] := by
      generalize record.value = raw at reads
      cases reads with
      | map => exact ⟨_, rfl⟩
    obtain ⟨pair, rfl⟩ := single
    refine ⟨pairs ++ [pair], List.rel_append each (.cons reads .nil), ?_⟩
    rw [Option.getD_some, Value.setEntries_append]
    cases held with
    | none =>
      rw [mergeValue_none, Except.ok.injEq] at done
      rw [Option.getD_none, Value.map.injEq] at same
      rw [← done, ← same]
      rfl
    | some before =>
      rw [Option.getD_some] at same
      rw [same, mergeValue_map, Except.ok.injEq] at done
      exact done.symm

/-- The half of an entry message reads as what the records with its tag come to. -/
theorem comesTo_half (accepted : schema.Accepted) {type : MessageType}
    (known : type ∈ schema.types) {field : Field} (declared : field ∈ type.fields)
    (single : field.isRepeated = false) (ungrouped : field.oneof = none) {levels : Nat}
    {row : List Record} {message : Message}
    (done : row.foldlM (applyRecord ((ofSchema schema).withLimits limits)
      (decodeWithin ((ofSchema schema).withLimits limits) levels)
      (.ofType (.ofSchema schema) type)) (.new type.name) = .ok message) :
    ComesTo ((ofSchema schema).withLimits limits) levels field.type
      (row.filter (·.key.tag = field.tag)) ((message.get? field.tag).getD field.type.zero) := by
  have quiet := (accepted.valid known).not_rivals declared ungrouped
  rw [← MessageType.standing_of_quiet quiet]
  exact comesTo_foldlM accepted known declared single done

/-- The entry that a record stands for is read from the records of its payload. -/
theorem readsEntry_of_reads (accepted : schema.Accepted) {type : MessageType}
    (known : type ∈ schema.types) {field : Field} (declared : field ∈ type.fields)
    {key value : FieldType} (kind : field.type = .map key value) {levels : Nat} {record : Record}
    {pair : Value × Value}
    (reads : Reads ((ofSchema schema).withLimits limits)
      (decodeWithin ((ofSchema schema).withLimits limits) levels)
      (.map (Name.join type.name (entryName field.name))) record.value (.map [pair])) :
    ReadsEntry ((ofSchema schema).withLimits limits) (levels - 1) key value record pair := by
  have entry := accepted.entryMessage_mem known declared kind
  obtain ⟨-, -, unmapped⟩ := ((accepted.valid known).fields field declared).map key value kind
  obtain ⟨builtin, form, rfl, -, ofType, found⟩ := exists_entryCodec accepted known declared kind
  generalize raw : record.value = value' at reads
  cases reads with
  | @map _ key' form' slice decoded found' done =>
    obtain ⟨rfl, rfl⟩ := entryCodec_unique found found'
    cases levels with
    | zero => cases done
    | succ levels =>
      obtain ⟨row, apart, folded⟩ := exists_row_of_decodeWithin accepted entry done
      refine ⟨slice, row, raw, apart, ?_, ?_⟩
      · exact comesTo_half accepted entry List.mem_cons_self rfl rfl folded
      · have single : Field.isRepeated ⟨"value", 2, value, .singular, none, none, false⟩ = false :=
          unmapped
        have comesTo := comesTo_half accepted entry (List.mem_cons_of_mem _ List.mem_cons_self)
          single rfl folded
        rwa [ofType.zero_eq]

/-- A map field is set in a message that was read exactly if the bytes have a record of it. Then it
holds each key that such a record has once, in the order in which the keys first occur, with the
value of the last record of the key. -/
theorem decode_map (accepted : schema.Accepted) (limits : Limits) {type : MessageType}
    (known : type ∈ schema.types) {field : Field} (declared : field ∈ type.fields)
    {key value : FieldType} (kind : field.type = .map key value) {bytes : List UInt8}
    {message : Message}
    (done : ((ofSchema schema).withLimits limits).decode type.name bytes = .ok message) :
    ∃ row, Record.Row limits.maxLength 0 bytes row ∧
      ((message.get? field.tag).isSome ↔ ∃ record ∈ row, record.key.tag = field.tag) ∧
      ∀ held, message.get? field.tag = some held → ∃ pairs entries, held = .map entries ∧
        List.Forall₂
          (ReadsEntry ((ofSchema schema).withLimits limits) (limits.maxDepth - 1) key value)
          (row.filter (·.key.tag = field.tag)) pairs ∧
        Value.LastOfEach pairs entries := by
  have valid := accepted.valid known
  have coherent := (coherent_ofSchema accepted).withLimits limits
  obtain ⟨row, apart, folded⟩ :=
    exists_row_of_decodeWithin accepted known (decode_eq_ok_iff.1 done).2
  have ungrouped : field.oneof = none := by
    by_contra grouped
    have unmapped := ((valid.fields field declared).member (Option.isSome_iff_ne_none.2 grouped)).2
    simp [Field.isMap, FieldType.isMap, kind] at unmapped
  have map : FieldForm.ofField type.name field =
      .map (Name.join type.name (entryName field.name)) := by
    simp [FieldForm.ofField, kind]
  have gathers := gathers_foldlM accepted known declared folded
  rw [map, MessageType.standing_of_quiet (valid.not_rivals declared ungrouped)] at gathers
  refine ⟨row, apart, ?_, fun held there => ?_⟩
  · rw [gathers.isSome_iff, ne_eq, List.filter_eq_nil_iff]
    simp
  · obtain ⟨pairs, each, same⟩ := gathers.exists_pairs
    rw [there, Option.getD_some] at same
    obtain ⟨builtin, form, -, keyed, -, found⟩ := exists_entryCodec accepted known declared kind
    have found' : ((ofSchema schema).withLimits limits).get? _ = _ := found
    -- Equal keys are one key, since every record has a key of the declared kind.
    have areKeys : ∀ pair ∈ pairs, (Scalar.ofBuiltin builtin).Holds pair.1 := by
      have closed := closed_withLimits (closed_ofField accepted known declared) limits
      have marked := each.imp fun record pair reads =>
        And.intro (reads.fits coherent (readsConforming_decodeWithin coherent _) (map ▸ closed))
          reads
      intro pair among
      obtain ⟨entries, one, keys, -⟩ := (fits_map_iff found').1
        (((List.forall₂_and_left _ _).1 marked.flip).1 pair among)
      cases one
      exact keys pair List.mem_cons_self
    refine ⟨pairs, _, same, each.imp fun record pair reads => ?_, ?_⟩
    · exact readsEntry_of_reads accepted known declared kind reads
    · exact Value.lastOfEach_setEntries (sameIsEq_holds (isKey_ofBuiltin keyed)) areKeys

/-- A child, then an entry with neither half, and then the same child again, in two halves. The
children stand in the order of their names' first records, each as its last record has it. -/
theorem decode_map_tree : ∃ row pairs,
    Record.Row 67108864 0 [18, 7, 10, 1, 97, 18, 2, 8, 1, 18, 0,
      18, 12, 10, 1, 97, 18, 2, 8, 2, 18, 3, 34, 1, 98] row ∧
    List.Forall₂ (ReadsEntry ((ofSchema .tree).withLimits {}) 99 (.builtin .string)
      (.message "Node")) (row.filter (·.key.tag = 2)) pairs ∧
    Value.LastOfEach pairs
      [(.string "a", .message ⟨"Node", [(1, .uint32 2), (4, .string "b")], []⟩),
        (.string "", .message (.new "Node"))] := by
  have done : ((ofSchema .tree).withLimits {}).decode "Node" [18, 7, 10, 1, 97, 18, 2, 8, 1, 18, 0,
      18, 12, 10, 1, 97, 18, 2, 8, 2, 18, 3, 34, 1, 98] =
        .ok ⟨"Node", [(2, .map
          [(.string "a", .message ⟨"Node", [(1, .uint32 2), (4, .string "b")], []⟩),
            (.string "", .message (.new "Node"))])], []⟩ := by
    with_unfolding_all rfl
  obtain ⟨row, apart, -, holds⟩ := decode_map Schema.accepted_tree {} List.mem_cons_self
    (List.mem_cons_of_mem _ List.mem_cons_self) rfl done
  obtain ⟨pairs, entries, same, each, last⟩ := holds _ rfl
  cases same
  exact ⟨row, pairs, apart, each, last⟩

end CodecSet

end Protobuf
