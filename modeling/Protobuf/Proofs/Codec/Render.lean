import Protobuf.Codec.Render
import Protobuf.Proofs.Codec.Lawful
import Protobuf.Proofs.Schema.Parts

/-! # What the JSON form of a message shows

The members of an object are inserted one after the other, and a later one hides an earlier one of
its name. Nothing is hidden where the names differ: those of the fields of a type do, and so do the
texts of the keys of a map, which are of one kind. Only the list of unknown records has a name that
a field may have, too. Main statement: `render_decoded`. -/

namespace Protobuf

namespace CodecSet

/-- The members of an object, by ascending name. -/
def sortedMembers (members : List (String × Json)) : List (String × Json) :=
  members.foldl (fun object (name, value) => Keyed.insert name value object) []

theorem ordered_sortedMembers (members : List (String × Json)) :
    Keyed.Ordered (sortedMembers members) := by
  induction members using List.reverseRecOn with
  | nil => exact List.Pairwise.nil
  | append_singleton members member ih =>
    rw [sortedMembers, List.foldl_append]
    exact ih.insert member.1 member.2

/-- A later member hides the one of its name. -/
theorem perm_sortedMembers_append (members : List (String × Json)) (member : String × Json) :
    (sortedMembers (members ++ [member])).Perm
      (member :: Keyed.erase member.1 (sortedMembers members)) := by
  rw [sortedMembers, List.foldl_append]
  exact (ordered_sortedMembers members).perm_insert member.1 member.2

/-- Members with distinct names are all there. -/
theorem perm_sortedMembers {members : List (String × Json)}
    (names : (members.map (·.1)).Nodup) : (sortedMembers members).Perm members := by
  induction members using List.reverseRecOn with
  | nil => exact .nil
  | append_singleton members member ih =>
    rw [List.map_append, List.map_singleton, List.nodup_append] at names
    obtain ⟨names, -, apart⟩ := names
    have others : Keyed.erase member.1 members = members := by
      refine List.filter_eq_self.2 fun other held => decide_eq_true fun same => ?_
      exact apart _ (List.mem_map_of_mem held) _ (List.mem_singleton_self _) same
    have kept : (Keyed.erase member.1 (sortedMembers members)).Perm members := by
      have kept := (ih names).filter fun entry => decide (entry.1 ≠ member.1)
      rwa [← Keyed.erase, ← Keyed.erase, others] at kept
    refine (perm_sortedMembers_append members member).trans ((kept.cons member).trans ?_)
    exact (List.perm_append_singleton member members).symm

theorem renderFields_eq_map (set : CodecSet) (typeName : String) (fields : List (Nat × Value)) :
    renderFields set typeName fields =
      fields.map fun field => (set.fieldName typeName field.1, set.render field.2) := by
  induction fields with
  | nil => rfl
  | cons field rest ih => rw [renderFields, ih, List.map_cons]

theorem renderEntries_eq_map (set : CodecSet) (entries : List (Value × Value)) :
    renderEntries set entries =
      entries.map fun entry => (keyText (set.render entry.1), set.render entry.2) := by
  induction entries with
  | nil => rfl
  | cons entry rest ih => rw [renderEntries, ih, List.map_cons]

/-- Two values are keys of one kind. -/
inductive AreKeys : Value → Value → Prop
  | bool (value other : Bool) : AreKeys (.bool value) (.bool other)
  | int32 (value other : Int32) : AreKeys (.int32 value) (.int32 other)
  | int64 (value other : Int64) : AreKeys (.int64 value) (.int64 other)
  | uint32 (value other : UInt32) : AreKeys (.uint32 value) (.uint32 other)
  | uint64 (value other : UInt64) : AreKeys (.uint64 value) (.uint64 other)
  | string (value other : String) : AreKeys (.string value) (.string other)

theorem areKeys_of_holds {key : Builtin} (valid : key.isValidMapKey) {value other : Value}
    (holds : key.Holds value) (holds' : key.Holds other) : AreKeys value other := by
  cases key <;> first
    | exact absurd valid (by decide)
    | cases value <;> first
      | exact holds.elim
      | cases other <;> first
        | exact holds'.elim
        | constructor

theorem eq_of_natText {n m : Nat} (same : n.repr = m.repr) : n = m := by
  have read (n : Nat) : Nat.ofDigitChars 10 n.repr.toList 0 = n := by
    rw [Nat.toList_repr, Nat.ofDigitChars_ten_toDigits]
  rw [← read n, same, read m]

/-- The text of a number without a sign starts with none. -/
theorem natText_ne {n m : Nat} : n.repr ≠ "-" ++ m.repr := by
  intro same
  have sign : '-' ∈ n.repr.toList := by
    rw [same, String.toList_append]
    exact List.mem_cons_self
  rw [Nat.toList_repr] at sign
  exact absurd (Nat.isDigit_of_mem_toDigits (by decide) (by decide) sign) (by decide)

/-- Different whole numbers have different texts. -/
theorem eq_of_intText {a b : Int} (same : a.repr = b.repr) : a = b := by
  cases a with
  | ofNat n =>
    cases b with
    | ofNat m => exact congrArg _ (eq_of_natText same)
    | negSucc m => exact absurd same natText_ne
  | negSucc n =>
    cases b with
    | ofNat m => exact absurd same.symm natText_ne
    | negSucc m =>
      have texts : "-" ++ (n + 1).repr = "-" ++ (m + 1).repr := same
      have digits : (n + 1).repr.toList = (m + 1).repr.toList := by
        simpa using congrArg String.toList texts
      exact congrArg _ (Nat.succ.inj (eq_of_natText (String.toList_inj.1 digits)))

/-- Different keys of one kind have different texts. -/
theorem AreKeys.eq_of_keyText (set : CodecSet) {value other : Value} (keys : AreKeys value other)
    (same : keyText (set.render value) = keyText (set.render other)) : value = other := by
  cases keys with
  | bool value other =>
    have texts : (if value then "true" else "false") = if other then "true" else "false" := same
    cases value <;> cases other <;> simp at texts <;> rfl
  | int32 value other => exact congrArg _ (Int32.toInt_inj.1 (eq_of_intText same))
  | int64 value other => exact congrArg _ (Int64.toInt_inj.1 (eq_of_intText same))
  | uint32 value other =>
    exact congrArg _ (UInt32.toNat_inj.1 (Int.ofNat_inj.1 (eq_of_intText same)))
  | uint64 value other =>
    exact congrArg _ (UInt64.toNat_inj.1 (Int.ofNat_inj.1 (eq_of_intText same)))
  | string value other => exact congrArg _ same

/-- A map of distinct keys is shown by a member for each entry. -/
theorem render_map (set : CodecSet) {key : Builtin} (valid : key.isValidMapKey)
    {entries : List (Value × Value)} (keys : ∀ entry ∈ entries, key.Holds entry.1)
    (distinct : (entries.map (·.1)).Nodup) :
    ∃ members, set.render (.map entries) = .object members ∧ (members.map (·.1)).Nodup ∧
      members.Perm
        (entries.map fun entry => (keyText (set.render entry.1), set.render entry.2)) := by
  have names : ((renderEntries set entries).map (·.1)).Nodup := by
    rw [renderEntries_eq_map, List.map_map]
    refine List.Nodup.map_on ?_ (List.Nodup.of_map _ distinct)
    intro entry held other held' same
    have kind := areKeys_of_holds valid (keys entry held) (keys other held')
    have equal := kind.eq_of_keyText set same
    exact List.inj_on_of_nodup_map distinct held held' equal
  have perm := perm_sortedMembers names
  refine ⟨_, by rw [render]; rfl, (perm.map _).nodup_iff.2 names, ?_⟩
  rwa [← renderEntries_eq_map]

section Message

variable {schema : Schema} {limits : Limits}

/-- The members for the declared fields of a type that are set in a message. -/
def shown (set : CodecSet) (type : MessageType) (message : Message) : List (String × Json) :=
  type.fields.filterMap fun field =>
    (message.get? field.tag).map fun value => (field.name, set.render value)

theorem mem_shown_iff {set : CodecSet} {type : MessageType} {message : Message}
    {member : String × Json} : member ∈ shown set type message ↔ ∃ field ∈ type.fields, ∃ value,
      message.get? field.tag = some value ∧ (field.name, set.render value) = member := by
  simp [shown, List.mem_filterMap]

/-- Distinct names of fields are distinct names of members. -/
theorem nodup_shown (set : CodecSet) {type : MessageType}
    (names : (type.fields.map (·.name)).Nodup) (message : Message) :
    ((shown set type message).map (·.1)).Nodup := by
  refine names.sublist ?_
  unfold shown
  induction type.fields with
  | nil => exact List.Sublist.slnil
  | cons field rest ih =>
    cases held : message.get? field.tag with
    | none => simpa [held] using ih.cons field.name
    | some value => simpa [held] using ih

/-- A declared field is shown under its name. -/
theorem fieldName_of_mem (accepted : schema.Accepted) {type : MessageType}
    (held : type ∈ schema.types) {field : Field} (declared : field ∈ type.fields) :
    ((ofSchema schema).withLimits limits).fieldName type.name field.tag = field.name := by
  have found : ((ofSchema schema).withLimits limits).get? type.name =
      some (.ofType (.ofSchema schema) type) := get?_ofSchema_of_mem accepted held
  rw [fieldName, found, Option.bind_some, (accepted.valid held).writer?_ofType declared]
  rfl

/-- The fields that are set are shown under their names. -/
theorem perm_renderFields (accepted : schema.Accepted) (limits : Limits) {type : MessageType}
    (held : type ∈ schema.types) {message : Message} (conforms : schema.Conforms message)
    (named : type.name = message.typeName) :
    (renderFields ((ofSchema schema).withLimits limits) message.typeName message.fields).Perm
      (shown ((ofSchema schema).withLimits limits) type message) := by
  cases conforms with
  | @intro _ type' held' named' ordered declared =>
    obtain rfl := accepted.eq_of_name held' held (named'.trans named.symm)
    have names := (accepted.wellFormed held).names
    have tags := (accepted.wellFormed held).tags
    have declared : ∀ entry ∈ message.fields, ∃ field ∈ type'.fields, field.tag = entry.1 :=
      fun entry among => declared entry.1 (Keyed.get?_isSome_of_mem among)
    rw [renderFields_eq_map, ← named]
    refine (List.perm_ext_iff_of_nodup ?_ (List.Nodup.of_map _ (nodup_shown _ names _))).2 ?_
    · refine List.Nodup.map_on ?_ (Keyed.Ordered.nodup ordered)
      intro entry among other among' same
      obtain ⟨field, there, tag⟩ := declared entry among
      obtain ⟨field', there', tag'⟩ := declared other among'
      have same := congrArg Prod.fst same
      simp only [← tag, ← tag', fieldName_of_mem accepted held there,
        fieldName_of_mem accepted held there'] at same
      obtain rfl := List.inj_on_of_nodup_map names there there' same
      have first := Keyed.Ordered.get?_eq_some_iff ordered |>.2 among
      have second := Keyed.Ordered.get?_eq_some_iff ordered |>.2 among'
      rw [← tag, tag'] at first
      exact Prod.ext (tag.symm.trans tag') (Option.some.inj (first.symm.trans second))
    · intro member
      rw [mem_shown_iff, List.mem_map]
      constructor
      · rintro ⟨⟨tag, value⟩, among, rfl⟩
        obtain ⟨field, there, rfl⟩ := declared _ among
        exact ⟨field, there, value, ordered.get?_eq_some_iff.2 among,
          by rw [fieldName_of_mem accepted held there]⟩
      · rintro ⟨field, there, value, found, rfl⟩
        exact ⟨(field.tag, value), ordered.get?_eq_some_iff.1 found,
          by rw [fieldName_of_mem accepted held there]⟩

/-- A message is shown by a member for each field that is set, but for one that has the name of the
list of unknown records when there is such a list, and by this list. -/
theorem renderMessage_object (accepted : schema.Accepted) (limits : Limits) {message : Message}
    (conforms : schema.Conforms message) :
    ∃ type ∈ schema.types, type.name = message.typeName ∧ ∃ members,
      ((ofSchema schema).withLimits limits).renderMessage message = .object members ∧
      (members.map (·.1)).Nodup ∧
      members.Perm (((shown ((ofSchema schema).withLimits limits) type message).filter fun member =>
        member.1 ≠ "_unknown" || message.unknown.isEmpty) ++ unknownMember message.unknown) := by
  cases id conforms with
  | @intro _ type held named =>
    have perm := perm_renderFields accepted limits held conforms named
    have names := (perm.map _).nodup_iff.2
      (nodup_shown ((ofSchema schema).withLimits limits) (accepted.wellFormed held).names message)
    have shownAll := (perm_sortedMembers names).trans perm
    refine ⟨type, held, named, _, by rw [renderMessage, render]; rfl,
      Keyed.Ordered.nodup_keys (ordered_sortedMembers _), ?_⟩
    cases unknown : message.unknown with
    | nil =>
      have all (member : String × Json) : (decide (member.1 ≠ "_unknown") || true) = true := by
        simp
      rw [unknownMember, List.isEmpty_nil, if_pos rfl, List.append_nil, List.append_nil,
        List.filter_eq_self.2 fun member _ => all member]
      exact shownAll
    | cons first rest =>
      simp only [unknownMember, List.isEmpty_cons, Bool.or_false, Bool.false_eq_true, if_false]
      refine (perm_sortedMembers_append _ _).trans ?_
      refine (List.Perm.cons _ (shownAll.filter _)).trans ?_
      exact (List.perm_append_singleton _ _).symm

end Message

/-- The JSON form of a message that was read is an object with one member for each field that is
set, under the declared name of the field, and one that lists the unknown records, if there are any;
so is the form of each message inside it. A field with the name of this list is hidden by it. Each
map inside is an object with one member for each entry. -/
theorem render_decoded {text : String} {config : Config} {compiled : Compiled}
    (accepted : compile text config = .ok compiled) (distinct : compiled.schema.fullNames.Nodup)
    {name : String} {bytes : List UInt8} {message : Message}
    (done : compiled.codecs.decode name bytes = .ok message) :
    (∀ inner, Value.Contains (.message message) (.message inner) →
      ∃ type ∈ compiled.schema.types, type.name = inner.typeName ∧ ∃ members,
        compiled.codecs.renderMessage inner = .object members ∧ (members.map (·.1)).Nodup ∧
        members.Perm (((shown compiled.codecs type inner).filter fun member =>
          member.1 ≠ "_unknown" || inner.unknown.isEmpty) ++ unknownMember inner.unknown)) ∧
    ∀ entries, Value.Contains (.message message) (.map entries) → ∃ members,
      compiled.codecs.render (.map entries) = .object members ∧ (members.map (·.1)).Nodup ∧
      members.Perm (entries.map fun entry =>
        (keyText (compiled.codecs.render entry.1), compiled.codecs.render entry.2)) := by
  obtain ⟨schema, -, lawful, rfl⟩ := compile_eq_ok_iff.1 accepted
  have accepted : schema.Accepted := ⟨lawful, distinct⟩
  have conforms := (conforms_of_decode accepted config.limits done).2
  refine ⟨fun inner inside => ?_, fun entries inside => ?_⟩
  · exact renderMessage_object accepted config.limits (conforms.of_contains inside)
  · obtain ⟨distinct, key, valid, keys⟩ := conforms.keys_of_contains accepted inside
    exact render_map _ valid keys distinct

end CodecSet

/-- The text that declares notes, which have a number under an odd name and marks by name. -/
def notesText : String :=
  "[null,[[\"Note\",[[\"_unknown\",1,\"int32\"],[\"marks\",2,\"map<string, bool>\"]]]]]"

/-- The schema of notes. -/
def Schema.notes : Schema :=
  { messages := [{ name := "Note"
                   fields := [{ name := "_unknown", tag := 1, type := .builtin .int32 },
                     { name := "marks", tag := 2,
                       type := .map (.builtin .string) (.builtin .bool) }] }] }

set_option maxRecDepth 10000 in
theorem compile_notes : compile notesText {} =
    .ok ⟨.notes, (CodecSet.ofSchema .notes).withLimits {}⟩ := by
  have read : readSchema notesText = .ok .notes := by decide +kernel
  exact compile_eq_ok_iff.2 ⟨_, read, by decide, rfl⟩

namespace CodecSet

/-- A note with one mark and an unknown record. -/
def markedNote : Message :=
  ⟨"Note", [(2, .map [(.string "a", .bool true)])], [⟨3, .varint, [0x18, 0x01]⟩]⟩

/-- A note with one mark and an unknown record shows both. -/
theorem render_decoded_note : ∃ compiled message members, compile notesText {} = .ok compiled ∧
    compiled.schema.fullNames.Nodup ∧
    compiled.codecs.decode "Note" [0x12, 0x05, 0x0a, 0x01, 0x61, 0x10, 0x01, 0x18, 0x01] =
      .ok message ∧
    compiled.codecs.renderMessage message = .object members ∧
    members.Perm ([("marks", compiled.codecs.render (.map [(.string "a", .bool true)]))] ++
      unknownMember [⟨3, .varint, [0x18, 0x01]⟩]) := by
  have distinct : Schema.notes.fullNames.Nodup := by decide
  have done : ((ofSchema .notes).withLimits {}).decode "Note"
      [0x12, 0x05, 0x0a, 0x01, 0x61, 0x10, 0x01, 0x18, 0x01] = .ok markedNote := by
    with_unfolding_all rfl
  obtain ⟨type, held, named, members, object, -, perm⟩ :=
    (render_decoded compile_notes distinct done).1 markedNote .refl
  obtain rfl | held := List.mem_cons.1 held
  · exact ⟨_, _, members, compile_notes, distinct, done, object, perm⟩
  · rw [List.mem_singleton.1 held] at named
    exact absurd named (by decide)

/-- The number of a note is not shown when there is an unknown record. -/
theorem render_hidden : ∃ compiled message list, compile notesText {} = .ok compiled ∧
    compiled.schema.fullNames.Nodup ∧
    compiled.codecs.decode "Note" [0x08, 0x07, 0x18, 0x01] = .ok message ∧
    message.get? 1 = some (.int32 7) ∧ message.unknown = [⟨3, .varint, [0x18, 0x01]⟩] ∧
    compiled.codecs.renderMessage message = .object [("_unknown", .array list)] := by
  refine ⟨_, ⟨"Note", [(1, .int32 7)], [⟨3, .varint, [0x18, 0x01]⟩]⟩, _, compile_notes, by decide,
    by with_unfolding_all rfl, rfl, rfl, by with_unfolding_all rfl⟩

end CodecSet

end Protobuf
