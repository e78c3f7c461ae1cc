import Protobuf.Proofs.Codec.Associative
import Protobuf.Proofs.Codec.Decode
import Protobuf.Proofs.Codec.Generate

/-! # Reading what is put together

Reading two byte strings behind one another is reading each of them and merging the second message
into the first. Main statement: `decode_append`.

## Implementation notes

A row of records read into a message that has something set is compared with the same row read from
scratch. After every record the one message is the other one merged into what was there before, so
merging has to be associative. -/

namespace Protobuf

open Wire

/-- No member of a group is declared with a message. -/
def Schema.PlainGroups (schema : Schema) : Prop :=
  ∀ type ∈ schema.allMessages, ∀ field ∈ type.fields, field.oneof.isSome → field.isMessage = false

theorem Schema.plainGroups_tree : tree.PlainGroups := by
  unfold PlainGroups
  decide

namespace CodecSet

variable {set : CodecSet} {nested : String → Slice → Except CodecError Message}
  {codec : MessageCodec} {name : String} {schema : Schema}

/-- Reading a row into a message merges into it what is read from scratch. -/
theorem foldlM_merge (coherent : set.Coherent) (plain : set.PlainGroups)
    (found : set.get? name = some codec) (conforming : ReadsConforming set nested)
    {maxLength place : Nat} {bytes : List UInt8} {records : List Record}
    (row : Record.Row maxLength place bytes records) {first second : Message}
    (named : first.typeName = name) (conforms : Conforms set first)
    (done : records.foldlM (applyRecord set nested codec) (.new name) = .ok second) :
    records.foldlM (applyRecord set nested codec) first = merge set first second := by
  have good := coherent name codec found
  -- The start grows with the records read already, next to the message merged so far.
  suffices ∀ start together, start.typeName = name → Conforms set start →
      merge set first start = .ok together →
      records.foldlM (applyRecord set nested codec) start = .ok second →
      records.foldlM (applyRecord set nested codec) together = merge set first second from
    this (.new name) first rfl ((conforms_iff found).2 (conformsTo_new set codec name))
      (merge_new found named) done
  clear done
  have spelled := fun record (held : record ∈ records) => row.spells_of_mem held
  clear row
  induction records with
  | nil =>
    intro start together _ _ merged done
    cases done
    exact merged.symm
  | cons record rest ih =>
    intro start together named' conforms' merged done
    obtain ⟨place, part, form⟩ := spelled record List.mem_cons_self
    rw [List.foldlM_cons, bind_eq_ok_iff] at done
    obtain ⟨next, step, after⟩ := done
    rw [applyRecord_eq good (named' ▸ found), bind_eq_ok_iff] at step
    obtain ⟨single, stands, merged'⟩ := step
    obtain ⟨namedSingle, conformsSingle⟩ :=
      conforms_recordMessage coherent found conforming form stands
    have conformsSingle := (conforms_iff (namedSingle ▸ found)).2 conformsSingle
    obtain ⟨next', done, namedNext, conformsNext⟩ :=
      mergeable coherent conforms' conformsSingle (namedSingle.trans named'.symm)
    obtain rfl := Except.ok.inj (done.symm.trans merged')
    have namedNext := namedNext.trans named'
    obtain ⟨together', done', -, -⟩ :=
      mergeable coherent conforms conformsNext (namedNext.trans named.symm)
    have namedTogether : together.typeName = name := by
      obtain ⟨result, done, namedResult, -⟩ :=
        mergeable coherent conforms conforms' (named'.trans named.symm)
      rw [Except.ok.inj (merged.symm.trans done), namedResult, named]
    have step : applyRecord set nested codec together record = .ok together' := by
      rw [applyRecord_eq good (namedTogether ▸ found), stands, ok_bind, ← done']
      exact merge_assoc coherent plain conforms conforms' conformsSingle
        (named'.trans named.symm) (namedSingle.trans named.symm) merged merged'
    rw [List.foldlM_cons, step, ok_bind]
    exact ih (fun record held => spelled record (List.mem_cons_of_mem _ held)) _ _ namedNext
      conformsNext done' after

theorem isMessage_of_ofField {message type : String} {field : Field}
    (form : FieldForm.ofField message field = .message type) : field.isMessage := by
  have formed := form ▸ FieldForm.formed_ofField message field
  cases formed with
  | single ofType =>
    generalize kind : field.type = fieldType at ofType
    cases ofType
    simp [Field.isMessage, kind]
  | many _ _ each => cases each

/-- The codecs of an accepted schema have plain groups if the schema has. -/
theorem plainGroups_ofSchema (accepted : schema.Accepted) (plain : schema.PlainGroups) :
    (ofSchema schema).PlainGroups := by
  intro name codec found plan held grouped type form
  obtain ⟨owner, among, rfl, rfl⟩ := (get?_ofSchema_iff accepted).1 found
  obtain ⟨field, declared, rfl⟩ := List.mem_map.1 held
  have isMessage : field.isMessage := isMessage_of_ofField form
  obtain ⟨outer, outermost, rfl | entry⟩ := Schema.mem_types_iff.1 among
  · rw [plain owner outermost field declared grouped] at isMessage
    cases isMessage
  · obtain ⟨mapped, -, inside⟩ := List.mem_flatMap.1 entry
    obtain ⟨name, key, value, rfl⟩ := exists_of_mem_entryMessages inside
    simp only [entryMessage, List.mem_cons, List.not_mem_nil, or_false] at declared
    rcases declared with rfl | rfl <;> cases grouped

/-- Reading two byte strings behind one another is merging what is read from the second into what
is read from the first. -/
theorem decode_append (accepted : schema.Accepted) (plain : schema.PlainGroups) (limits : Limits)
    (name : String) (first second : List UInt8) {left right : Message}
    (done : ((ofSchema schema).withLimits limits).decode name first = .ok left)
    (done' : ((ofSchema schema).withLimits limits).decode name second = .ok right)
    (short : (first ++ second).length ≤ limits.maxMessageSize) :
    ∃ merged, ((ofSchema schema).withLimits limits).merge left right = .ok merged ∧
      ((ofSchema schema).withLimits limits).decode name (first ++ second) = .ok merged := by
  have coherent := (coherent_ofSchema accepted).withLimits limits
  have plain' : ((ofSchema schema).withLimits limits).PlainGroups :=
    plainGroups_ofSchema accepted plain
  rw [decode_eq_ok_iff] at done done'
  obtain ⟨-, done⟩ := done
  obtain ⟨-, done'⟩ := done'
  have conforming := readsConforming_decodeWithin coherent (limits.maxDepth + 1)
  obtain ⟨named, conforms⟩ := conforming _ _ _ done
  obtain ⟨named', conforms'⟩ := conforming _ _ _ done'
  obtain ⟨merged, together, -, -⟩ := mergeable coherent conforms conforms' (named'.trans named.symm)
  refine ⟨merged, together, ?_⟩
  rw [limits_withLimits, decodeWithin_eq_ok_iff coherent] at done done'
  obtain ⟨codec, records, found, row, folded⟩ := done
  obtain ⟨codec', records', found', row', folded'⟩ := done'
  obtain rfl := Option.some.inj (found.symm.trans found')
  rw [decode_eq_ok_iff, limits_withLimits, decodeWithin_eq_ok_iff coherent]
  refine ⟨short, codec, records ++ records'.map (·.shift first.length), found,
    row.append (row'.shift first.length), ?_⟩
  rw [foldlM_append_eq_ok_iff]
  refine ⟨left, folded, ?_⟩
  rw [foldlM_shift_iff (coherent name codec found) (readsAnywhere_decodeWithin coherent _),
    foldlM_merge coherent plain' found (readsConforming_decodeWithin coherent _) row' named conforms
      folded', together]

/-- A text that is followed by a flag, its rival, is as if it had not been there. -/
theorem decode_append_tree :
    ∃ merged, ((ofSchema .tree).withLimits {}).merge ⟨"Node", [(4, .string "a")], []⟩
        ⟨"Node", [(5, .bool true)], []⟩ = .ok merged ∧
      ((ofSchema .tree).withLimits {}).decode "Node" ([34, 1, 97] ++ [40, 1]) = .ok merged :=
  decode_append Schema.accepted_tree Schema.plainGroups_tree {} "Node" [34, 1, 97] [40, 1]
    (by with_unfolding_all rfl) (by with_unfolding_all rfl) (by decide)

end CodecSet

end Protobuf
