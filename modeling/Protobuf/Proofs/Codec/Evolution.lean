import Protobuf.Proofs.Codec.PassThrough
import Protobuf.Proofs.Schema.Without

/-! # Older schemas

A schema in which a message lacks some fields has the codecs of an older version of the schema. If
no field of the message leads back to it, what the older version passes on is as good as what it
was given. Main statement: `decode_passThrough`.

## Implementation notes

The types from which nothing leads to the message have the same codecs in both versions. They are
the part by way of which `Lacks` compares the two. -/

namespace Protobuf

open Relation

/-- The form of a field names the message that the field refers to, or the entries of a map. -/
theorem FieldForm.target?_ofField {message target : String} {field : Field}
    (there : (FieldForm.ofField message field).target? = some target) :
    field.type = .message target ∨
      ∃ key value, field.type = .map key value ∧
        target = Name.join message (entryName field.name) := by
  have formed := formed_ofField message field
  generalize FieldForm.ofField message field = form at formed there
  cases formed with
  | single ofType => exact .inl (ofType.eq_of_target? there)
  | many ofType _ each => exact .inl (ofType.eq_of_target? (each.target? ▸ there))
  | map kind => exact .inr ⟨_, _, kind, (Option.some.inj there).symm⟩

namespace CodecSet

/-- The codecs of the types whose names are kept. -/
def only (set : CodecSet) (keeps : String → Prop) [DecidablePred keeps] : CodecSet :=
  { set with codecs := set.codecs.filter fun name => keeps name }

variable {set : CodecSet} {keeps : String → Prop} [DecidablePred keeps]

theorem get?_only_eq_some_iff {name : String} {codec : MessageCodec} :
    (set.only keeps).get? name = some codec ↔ keeps name ∧ set.get? name = some codec := by
  rw [CodecSet.get?, only, Table.get?_filter]
  by_cases kept : keeps name
  · rw [if_pos (decide_eq_true kept), and_iff_right kept, CodecSet.get?]
  · simp [kept]

theorem within_only : (set.only keeps).Within set :=
  fun _ _ found => (get?_only_eq_some_iff.1 found).2

/-- A form names a type with a codec that is kept if it names a type with a codec and this is
kept. -/
theorem closed_only {form : FieldForm} (closed : form.Closed set)
    (kept : ∀ target, form.target? = some target → keeps target) :
    form.Closed (set.only keeps) :=
  closed.transfer fun target _ there found => get?_only_eq_some_iff.2 ⟨kept target there, found⟩

/-- Codecs that are kept agree with each other if with each all those are kept that it names. -/
theorem coherent_only (coherent : set.Coherent)
    (kept : ∀ name codec, set.get? name = some codec → keeps name →
      ∀ plan ∈ codec.fields, plan.form.Closed (set.only keeps)) : (set.only keeps).Coherent := by
  intro name codec found
  obtain ⟨keep, there⟩ := get?_only_eq_some_iff.1 found
  exact (coherent name codec there).transfer (kept name codec there keep)

/-! ## The older version -/

/-- Codecs are made alike by registries that know the same enums. -/
theorem ofType_alike {registry other : Registry} (alike : registry.Alike other)
    (type : MessageType) :
    MessageCodec.ofType other type = MessageCodec.ofType registry type := by
  have plan (field : Field) :
      FieldPlan.ofField other type.name field = .ofField registry type.name field := by
    simp only [FieldPlan.ofField, alike.enum]
  rw [MessageCodec.ofType, funext plan, MessageCodec.ofType]

/-- The codec of a message that loses no fields stays the same. -/
theorem ofType_withoutIn (registry : Registry) {type : MessageType} {name : String}
    (different : type.name ≠ name) (dropped : Nat → Bool) :
    MessageCodec.ofType registry (type.withoutIn name dropped) =
      MessageCodec.ofType registry type := by
  rw [MessageCodec.ofType, MessageType.name_withoutIn, MessageType.fields_withoutIn,
    MessageType.oneofs_withoutIn, if_neg different, if_neg different, MessageCodec.ofType]

end CodecSet

/-- Nothing that a type names leads to the message of a name. -/
def FieldType.Avoids (schema : Schema) (name : String) (type : FieldType) : Prop :=
  ∀ target, type.Names target → ¬ReflTransGen schema.Refers target name

namespace CodecSet

variable {schema : Schema} {name : String} {dropped : Nat → Bool} {limits : Limits}

/-- The codecs of a schema in which the message of a name lacks some fields. -/
def older (schema : Schema) (name : String) (dropped : Nat → Bool) (limits : Limits) : CodecSet :=
  (ofSchema (schema.without name dropped)).withLimits limits

/-- A name is not that of the message, and nothing leads to the message from types of the name. -/
def Unaffected (schema : Schema) (name : String) (dropped : Nat → Bool) (target : String) : Prop :=
  target ≠ name ∧ ∀ type ∈ (schema.without name dropped).types, type.name = target →
    ∀ field ∈ type.fields, field.type.Avoids schema name

noncomputable instance : DecidablePred (Unaffected schema name dropped) := Classical.decPred _

/-- The codecs of the types from which nothing leads to the message of a name. -/
noncomputable def unaffected (schema : Schema) (name : String) (dropped : Nat → Bool)
    (limits : Limits) : CodecSet :=
  (older schema name dropped limits).only (Unaffected schema name dropped)

/-- The types that a field names are unaffected if nothing that the field names leads to the
message. -/
theorem closed_unaffected (accepted : (schema.without name dropped).Accepted)
    (known : ∃ type ∈ (schema.without name dropped).allMessages, type.name = name)
    {type : MessageType} (held : type ∈ (schema.without name dropped).types) {field : Field}
    (declared : field ∈ type.fields) (avoids : field.type.Avoids schema name) :
    (FieldForm.ofField type.name field).Closed (unaffected schema name dropped limits) := by
  refine closed_only (closed_withLimits (closed_ofField accepted held declared) limits)
    fun target there => ?_
  rcases FieldForm.target?_ofField there with kind | ⟨key, value, kind, rfl⟩
  · obtain ⟨type', among, rfl⟩ := accepted.exists_of_message held declared kind
    have away : ¬ReflTransGen schema.Refers type'.name name := avoids _ (kind ▸ rfl)
    refine ⟨fun same => away (same ▸ .refl), ?_⟩
    intro other held' same field' declared' target names leads
    obtain rfl := accepted.eq_of_name held' (Schema.mem_types_of_mem_allMessages among) same
    have refers := Schema.refers_of_without ⟨other, among, rfl, field', declared', names⟩
    exact away (.head refers leads)
  · obtain ⟨owner, among, rfl⟩ := known
    have outermost := accepted.mem_allMessages_of_map held declared kind
    have inside := MessageType.mem_entryMessages declared kind
    refine ⟨accepted.name_ne_of_entry among outermost inside, ?_⟩
    intro other held' same field' declared' target names
    obtain rfl := accepted.eq_of_name held' (accepted.entryMessage_mem held declared kind) same
    simp only [entryMessage, List.mem_cons, List.not_mem_nil, or_false] at declared'
    rcases declared' with rfl | rfl
    · exact avoids target (kind ▸ .inl names)
    · exact avoids target (kind ▸ .inr names)

/-- The codecs of unaffected types agree with each other. -/
theorem coherent_unaffected (accepted : (schema.without name dropped).Accepted)
    (known : ∃ type ∈ (schema.without name dropped).allMessages, type.name = name) :
    (unaffected schema name dropped limits).Coherent := by
  refine coherent_only ((coherent_ofSchema accepted).withLimits limits)
    fun target codec found kept plan planned => ?_
  obtain ⟨type, held, rfl, rfl⟩ := (get?_ofSchema_iff accepted).1 found
  obtain ⟨field, declared, rfl⟩ := List.mem_map.1 planned
  exact closed_unaffected accepted known held declared
    (kept.2 type held rfl field declared)

/-- Unaffected types have the same codecs before and after. -/
theorem within_unaffected (accepted : schema.Accepted)
    (accepted' : (schema.without name dropped).Accepted) :
    (unaffected schema name dropped limits).Within ((ofSchema schema).withLimits limits) := by
  intro target codec found
  obtain ⟨⟨different, -⟩, there⟩ := get?_only_eq_some_iff.1 found
  obtain ⟨type, held, rfl, rfl⟩ := (get?_ofSchema_iff accepted').1 there
  rw [ofType_alike Schema.alike_without]
  obtain ⟨before, among, rfl | ⟨-, rfl⟩⟩ := Schema.exists_of_mem_types_without held
  · exact get?_ofSchema_of_mem accepted among
  · rw [MessageType.name_withoutIn] at different ⊢
    rw [ofType_withoutIn _ different]
    exact get?_ofSchema_of_mem accepted among

/-- Fields of one group are dropped together. -/
theorem dropped_eq_of_rivals {registry : Registry} {type : MessageType}
    (whole : type.KeepsGroupsWhole dropped) {tag other : Nat}
    (rivals : (MessageCodec.ofType registry type).Rivals tag other) :
    dropped tag = dropped other := by
  obtain ⟨field, declared, field', declared', rfl, rfl, grouped, same⟩ :=
    exists_of_rivals_ofType rivals
  exact whole field declared field' declared' grouped same

/-- The codec of a message that lacks some fields, of each group all or none, and to which no field
of its own leads back, lacks these fields. -/
theorem lacks_older (accepted : schema.Accepted) {type : MessageType}
    (held : type ∈ schema.allMessages) (whole : type.KeepsGroupsWhole dropped)
    (apart : ¬TransGen schema.Refers type.name type.name) (limits : Limits) :
    Lacks (unaffected schema type.name dropped limits) (older schema type.name dropped limits)
      ((ofSchema schema).withLimits limits) type.name dropped
      (.ofType (.ofSchema (schema.without type.name dropped)) (type.withoutIn type.name dropped))
      (.ofType (.ofSchema schema) type) := by
  have among := Schema.mem_types_of_mem_allMessages held
  have accepted' : (schema.without type.name dropped).Accepted := by
    refine accepted.without fun other held' same => ?_
    rwa [accepted.eq_of_name (Schema.mem_types_of_mem_allMessages held') among same]
  have left : type.withoutIn type.name dropped ∈
      (schema.without type.name dropped).allMessages := by
    rw [Schema.allMessages_without]
    exact List.mem_map_of_mem held
  have there := Schema.mem_types_of_mem_allMessages left
  have known : ∃ other ∈ (schema.without type.name dropped).allMessages,
      other.name = type.name := ⟨_, left, MessageType.name_withoutIn⟩
  exact {
    coherentPart := coherent_unaffected accepted' known
    coherentOld := (coherent_ofSchema accepted').withLimits limits
    coherentNew := (coherent_ofSchema accepted).withLimits limits
    limitsPart := rfl
    limitsOld := rfl
    withinOld := within_only
    withinNew := within_unaffected accepted accepted'
    foundOld := (get?_ofSchema_iff accepted').2 ⟨_, there, MessageType.name_withoutIn, rfl⟩
    foundNew := (get?_ofSchema_iff accepted).2 ⟨type, among, rfl, rfl⟩
    fields := by
      rw [ofType_alike Schema.alike_without]
      simp only [MessageCodec.ofType, MessageType.name_withoutIn, MessageType.fields_withoutIn,
        if_pos, List.filter_map]
      rfl
    whole := fun tag other => dropped_eq_of_rivals whole
    closed := by
      intro plan planned
      obtain ⟨field, declared, rfl⟩ := List.mem_map.1 planned
      refine closed_unaffected accepted' known there declared fun target names leads => ?_
      have before := MessageType.fields_withoutIn_sublist.subset declared
      exact apart (.head' ⟨type, held, rfl, field, before, names⟩ leads) }

/-! ## Passing through -/

/-- The normal form of the codecs of a schema is that of the schema. -/
theorem normal_withLimits (accepted : schema.Accepted) (limits : Limits) (message : Message) :
    message.normal ((ofSchema schema).withLimits limits).omits = schema.normal message := by
  rw [omits_ofSchema accepted]
  rfl

/-- What an accepted schema reads, a version of it in which the message lacks some fields, of each
group all or none, reads and writes again, if no field of the message leads back to it. What is
written is read by the schema under all limits that admit it and are no less deep than before, and
under any limits comes to nothing but the same message, up to zeros that are left out. -/
theorem decode_passThrough (accepted : schema.Accepted) {type : MessageType}
    (held : type ∈ schema.allMessages) (whole : type.KeepsGroupsWhole dropped)
    (apart : ¬TransGen schema.Refers type.name type.name) (limits : Limits) {bytes : List UInt8}
    {message : Message}
    (done : ((ofSchema schema).withLimits limits).decode type.name bytes = .ok message) :
    ∃ trailing written,
      (older schema type.name dropped limits).decode type.name bytes = .ok trailing ∧
      (older schema type.name dropped limits).encode trailing = .ok written ∧
      (∀ wider : Limits, limits.maxDepth ≤ wider.maxDepth → wider.Admit written message.depth →
        ∃ again, ((ofSchema schema).withLimits wider).decode type.name written = .ok again) ∧
      ∀ (other : Limits) (again : Message), written.length < UInt64.size →
        ((ofSchema schema).withLimits other).decode type.name written = .ok again →
        schema.normal again = schema.normal message := by
  obtain ⟨trailing, written, read, encoded, back⟩ :=
    (lacks_older accepted held whole apart limits).passes_through done
  refine ⟨trailing, written, read, encoded, fun wider deep admits => ?_,
    fun other again word done' => ?_⟩
  · obtain ⟨again, done', -⟩ := back wider deep admits
    exact ⟨again, done'⟩
  · -- Limits that admit both give the same message.
    let wider : Limits :=
      ⟨max other.maxMessageSize written.length, max other.maxLength written.length,
        max other.maxDepth (max limits.maxDepth message.depth)⟩
    have admits : wider.Admit written message.depth :=
      ⟨Nat.le_max_right .., Nat.le_max_right .., word,
        Nat.le_trans (Nat.le_max_right ..) (Nat.le_max_right ..)⟩
    obtain ⟨again', done'', same⟩ :=
      back wider (Nat.le_trans (Nat.le_max_left ..) (Nat.le_max_right ..)) admits
    have coherent := (coherent_ofSchema accepted).withLimits other
    have within : ((ofSchema schema).withLimits other).Within
        ((ofSchema schema).withLimits wider) := fun _ _ found => found
    have more : ((ofSchema schema).withLimits wider).decode type.name written = .ok again := by
      rw [decode_eq_ok_iff] at done' ⊢
      refine ⟨admits.messageSize, decodeWithin_mono within coherent ?_ ?_ done'.2⟩
      · exact Nat.succ_le_succ (Nat.le_max_left ..)
      · exact Nat.le_trans (Nat.min_le_left ..) (Nat.le_max_left ..)
    obtain rfl := Except.ok.inj (more.symm.trans done'')
    rwa [← normal_withLimits accepted limits, ← normal_withLimits accepted limits]

/-- A flag that the older version of parcels does not know stays with the parcel, and a number that
is zero is left out. -/
theorem decode_passThrough_parcel :
    ∃ trailing written,
      (older .parcel "Parcel" (3 ≤ ·) {}).decode "Parcel" [32, 1, 8, 0, 18, 3, 10, 1, 97] =
        .ok trailing ∧
      (older .parcel "Parcel" (3 ≤ ·) {}).encode trailing = .ok written ∧
      (∀ wider : Limits, 100 ≤ wider.maxDepth → wider.Admit written 1 →
        ∃ again, ((ofSchema .parcel).withLimits wider).decode "Parcel" written = .ok again) ∧
      ∀ (other : Limits) (again : Message), written.length < UInt64.size →
        ((ofSchema .parcel).withLimits other).decode "Parcel" written = .ok again →
        Schema.parcel.normal again = Schema.parcel.normal ⟨"Parcel", [(1, .uint32 0),
          (2, .message ⟨"Party", [(1, .string "a")], []⟩), (4, .bool true)], []⟩ := by
  have whole : MessageType.parcel.KeepsGroupsWhole (3 ≤ ·) := by decide
  have read : ((ofSchema .parcel).withLimits {}).decode "Parcel" [32, 1, 8, 0, 18, 3, 10, 1, 97] =
      .ok ⟨"Parcel", [(1, .uint32 0), (2, .message ⟨"Party", [(1, .string "a")], []⟩),
        (4, .bool true)], []⟩ := by
    with_unfolding_all rfl
  exact decode_passThrough Schema.accepted_parcel List.mem_cons_self whole
    Schema.not_transGen_refers_parcel {} read

end CodecSet

end Protobuf
