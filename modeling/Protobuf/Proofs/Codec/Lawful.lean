import Protobuf.Compile
import Protobuf.Proofs.Codec.RoundTrip
import Protobuf.Proofs.Name

/-! # Codecs of a schema that keeps the rules

Every message that the registry of a schema has under some name has the codec derived from it, even
if full names are not distinct: an entry message stands inside the message that has the map, so a
message with the full name of an entry message comes later and takes its place. The entries of each
of its maps have some codec. Main statements: `get?_ofSchema_registered` and `compile_eq_ok_iff`.

## Implementation notes

Codecs are made by ascending names, and what a scope holds comes after the scope. -/

namespace Protobuf

/-- What stands inside a scope comes after the scope. -/
theorem Name.lt_join (scope : String) {part : String} (some : part ≠ "") :
    scope < join scope part := by
  have longer : ∀ (front : List Char) (c : Char) (back : List Char),
      front < front ++ c :: back := by
    intro front c back
    induction front with
    | nil => exact List.nil_lt_cons c back
    | cons head rest ih => exact List.cons_lt_cons_self.2 ih
  rw [String.lt_iff]
  by_cases root : scope = ""
  · subst root
    obtain ⟨c, back, letters⟩ : ∃ c back, part.toList = c :: back :=
      List.exists_cons_of_ne_nil fun empty => some (String.toList_eq_nil_iff.1 empty)
    rw [join, if_pos rfl, letters]
    exact longer [] c back
  · rw [toList_join_of_ne root]
    exact longer _ _ _

/-- The entry messages of a field come after the scope that they stand in. -/
theorem FieldType.lt_of_mem_entryMessages {type : FieldType} {scope fieldName : String}
    {entry : MessageType} (held : entry ∈ type.entryMessages scope fieldName) :
    scope < entry.name := by
  induction type generalizing scope fieldName with
  | map key value ihKey ihValue =>
    have inside : entryName fieldName ≠ "" := by
      intro empty
      have letters := congrArg String.toList empty
      simp [entryName] at letters
    have below := Name.lt_join scope inside
    rw [entryMessages, List.mem_cons, List.mem_append] at held
    rcases held with rfl | inKey | inValue
    · exact below
    · exact String.lt_trans below (ihKey inKey)
    · exact String.lt_trans below (ihValue inValue)
  | _ => cases held

/-- The entry messages of a message come after it. -/
theorem MessageType.lt_of_mem_entryMessages {type entry : MessageType}
    (held : entry ∈ type.entryMessages) : type.name < entry.name := by
  obtain ⟨field, -, inside⟩ := List.mem_flatMap.1 held
  exact FieldType.lt_of_mem_entryMessages inside

namespace Schema

variable {schema : Schema}

/-- The registry has messages under their own names. -/
theorem name_of_entry {entry : String × MessageType}
    (held : entry ∈ (Registry.ofSchema schema).messages.entries) : entry.2.name = entry.1 := by
  have found := (message?_ofSchema entry.1).symm.trans (Table.get?_eq_some_iff.2 held)
  simpa using List.find?_some found

/-- The messages of the registry are messages of the schema. -/
theorem mem_allMessages_of_registered {type : MessageType}
    (held : type ∈ (Registry.ofSchema schema).messages.values) : type ∈ schema.allMessages := by
  obtain ⟨name, found⟩ := Table.mem_values_iff.1 held
  exact List.mem_of_find?_eq_some ((message?_ofSchema name).symm.trans found)

/-- The messages of the registry stand by ascending names. -/
theorem pairwise_registered (schema : Schema) :
    (Registry.ofSchema schema).messages.values.Pairwise (·.name < ·.name) := by
  refine List.pairwise_map.2 ((Registry.ofSchema schema).messages.ordered.imp_of_mem ?_)
  intro entry other held held' before
  rwa [name_of_entry held, name_of_entry held']

end Schema

namespace CodecSet

variable {schema : Schema}

/-- Every message of the registry has the codec derived from it. -/
theorem get?_ofSchema_registered {type : MessageType}
    (held : type ∈ (Registry.ofSchema schema).messages.values) :
    (ofSchema schema).get? type.name = some (.ofType (.ofSchema schema) type) := by
  have ascending := Schema.pairwise_registered schema
  obtain ⟨before, after, split⟩ := List.append_of_mem held
  rw [split, List.pairwise_append, List.pairwise_cons] at ascending
  -- What is made after the message stands after it, and so has another name.
  have later : ∀ other ∈ type.entryMessages ++ (after.flatMap fun type =>
      type :: type.entryMessages), type.name < other.name := by
    intro other among
    rcases List.mem_append.1 among with own | among
    · exact MessageType.lt_of_mem_entryMessages own
    · obtain ⟨scope, there, inside⟩ := List.mem_flatMap.1 among
      have below := ascending.2.1.1 scope there
      rcases List.mem_cons.1 inside with rfl | entry
      · exact below
      · exact String.lt_trans below (MessageType.lt_of_mem_entryMessages entry)
  have missing : (type.entryMessages ++ (after.flatMap fun type =>
      type :: type.entryMessages)).reverse.find? (·.name = type.name) = none := by
    refine List.find?_eq_none.2 fun other among same => ?_
    have below := later other (List.mem_reverse.1 among)
    rw [of_decide_eq_true same] at below
    exact String.lt_irrefl _ below
  rw [ofSchema, get?_ofRegistry, split, List.flatMap_append, List.flatMap_cons, List.cons_append,
    List.reverse_append, List.reverse_cons, List.append_assoc, List.find?_append, missing,
    Option.none_or, List.find?_append, List.find?_singleton, if_pos (by simp)]
  rfl

end CodecSet

namespace MessageType.Valid

variable {registry : Registry} {type : MessageType} {field : Field}

/-- A declared field is found by its tag. -/
theorem fieldTagged?_of_mem (valid : type.Valid registry) (declared : field ∈ type.fields) :
    type.fieldTagged? field.tag = some field := by
  refine find?_eq_some_of_unique declared (by simp) fun other declared' same => ?_
  exact valid.eq_of_tag declared' declared (by simpa using same)

/-- A declared field is written by the plan derived from it. -/
theorem writer?_ofType (valid : type.Valid registry) (declared : field ∈ type.fields) :
    (MessageCodec.ofType registry type).writer? field.tag =
      some (.ofField registry type.name field) := by
  have same : (fun plan : FieldPlan => decide (plan.tag = field.tag)) ∘
      FieldPlan.ofField registry type.name = fun other => decide (other.tag = field.tag) := rfl
  rw [MessageCodec.writer?, MessageCodec.ofType, List.find?_map, same]
  exact congrArg (Option.map _) (valid.fieldTagged?_of_mem declared)

/-- A member of a group, and no other field, is written as one. -/
theorem presence_ofField (valid : type.Valid registry) (declared : field ∈ type.fields)
    {group : String} : (FieldPlan.ofField registry type.name field).presence = .oneof group ↔
      field.oneof = some group := by
  refine ⟨FieldPlan.oneof_of_presence, fun grouped => ?_⟩
  have single := (valid.fields field declared).isRepeated_eq_false (by rw [grouped]; rfl)
  have once : (FieldPlan.ofField registry type.name field).form.isRepeated = false :=
    (FieldForm.isRepeated_ofField type.name field).trans single
  rw [FieldPlan.presence, once]
  simp [FieldPlan.ofField, grouped]

end MessageType.Valid

/-- A text that is accepted declares a schema that keeps the rules, and comes with the codecs of
that schema. -/
theorem compile_eq_ok_iff {text : String} {config : Config} {compiled : Compiled} :
    compile text config = .ok compiled ↔ ∃ schema, readSchema text = .ok schema ∧
      schema.violations = [] ∧
      compiled = ⟨schema, (CodecSet.ofSchema schema).withLimits config.limits⟩ := by
  rw [compile, bind_eq_ok_iff]
  refine exists_congr fun schema => and_congr_right fun _ => ?_
  cases broken : schema.violations with
  | nil =>
    simp only [pure_eq_ok, Except.ok.injEq, true_and]
    exact eq_comm
  | cons violation rest => simp [throw, throwThe, MonadExceptOf.throw]

end Protobuf
