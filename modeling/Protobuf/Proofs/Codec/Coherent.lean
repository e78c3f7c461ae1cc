import Mathlib.Data.List.Nodup
import Protobuf.Codec.Set
import Protobuf.Proofs.Value.Message

/-! # Coherent codecs

What the codecs of an accepted schema have in common: no two plans of a codec have one tag, every
type that a plan names has a codec, entries of maps are a key and a value, and each group lists
exactly the fields that name it. Everything about reading, writing and merging rests on this and
nothing else. -/

namespace Protobuf

open Wire

namespace CodecSet

theorem codec_eq_ok {set : CodecSet} {name : String} {codec : MessageCodec}
    (found : set.get? name = some codec) : set.codec name = .ok codec := by
  rw [CodecSet.codec, found]

/-- The codecs with other limits. -/
def withLimits (set : CodecSet) (limits : Limits) : CodecSet :=
  { set with limits := limits }

@[simp] theorem get?_withLimits (set : CodecSet) (limits : Limits) (name : String) :
    (set.withLimits limits).get? name = set.get? name := rfl

@[simp] theorem limits_withLimits (set : CodecSet) (limits : Limits) :
    (set.withLimits limits).limits = limits := rfl

end CodecSet

/-- Whether equal values of a kind are identical, as keys of a map have to be. -/
def Scalar.isKey : Scalar → Bool
  | .numeric .float => false
  | .numeric .double => false
  | _ => true

/-- The codec of an entry message. -/
def entryCodec (entry : String) (key : Scalar) (value : FieldForm) : MessageCodec :=
  ⟨entry, [⟨"key", 1, .single key, none, false, none⟩, ⟨"value", 2, value, none, false, none⟩],
    .empty⟩

theorem entryCodec_inj {entry : String} {key key' : Scalar} {value value' : FieldForm} :
    entryCodec entry key value = entryCodec entry key' value' ↔ key = key' ∧ value = value' := by
  simp [entryCodec]

/-- A type is a type of entries for one key and one value only. -/
theorem entryCodec_unique {set : CodecSet} {entry : String} {key key' : Scalar}
    {value value' : FieldForm} (found : set.get? entry = some (entryCodec entry key value))
    (found' : set.get? entry = some (entryCodec entry key' value')) :
    key = key' ∧ value = value' :=
  entryCodec_inj.1 (Option.some.inj (found.symm.trans found'))

/-- The message that a form names. -/
def FieldForm.target? : FieldForm → Option String
  | .single _ | .repeated _ | .packed _ => none
  | .message type | .messages type | .map type => some type

/-- The types that a form names have codecs. -/
inductive FieldForm.Closed (set : CodecSet) : FieldForm → Prop
  | single (scalar : Scalar) : Closed set (.single scalar)
  | repeated (scalar : Scalar) : Closed set (.repeated scalar)
  | packed (kind : Numeric) : Closed set (.packed kind)
  | message {type : String} {codec : MessageCodec} (found : set.get? type = some codec) :
    Closed set (.message type)
  | messages {type : String} {codec : MessageCodec} (found : set.get? type = some codec) :
    Closed set (.messages type)
  | map {entry : String} {key : Scalar} {value : FieldForm} (isKey : key.isKey)
    (single : value.isRepeated = false)
    (found : set.get? entry = some (entryCodec entry key value)) : Closed set (.map entry)

/-- The codec of a type agrees with itself and with the other codecs. -/
structure MessageCodec.Coherent (set : CodecSet) (name : String) (codec : MessageCodec) :
    Prop where
  named : codec.message = name
  tags : (codec.fields.map (·.tag)).Nodup
  pos : ∀ plan ∈ codec.fields, 1 ≤ plan.tag
  le : ∀ plan ∈ codec.fields, plan.tag ≤ maxTag
  closed : ∀ plan ∈ codec.fields, plan.form.Closed set
  member : ∀ plan ∈ codec.fields, plan.oneof.isSome → plan.form.isRepeated = false
  listed : ∀ plan ∈ codec.fields, ∀ group, plan.oneof = some group →
    ∃ tags, codec.oneofs.get? group = some tags ∧ plan.tag ∈ tags.keys
  members : ∀ group tags, codec.oneofs.get? group = some tags → ∀ tag ∈ tags.keys,
    ∃ plan ∈ codec.fields, plan.tag = tag ∧ plan.oneof = some group

/-- The types that a form names have codecs among others too, if these have the codecs. -/
theorem FieldForm.Closed.transfer {set other : CodecSet} {form : FieldForm}
    (closed : form.Closed set)
    (kept : ∀ type codec, form.target? = some type → set.get? type = some codec →
      other.get? type = some codec) : form.Closed other := by
  cases closed with
  | single => exact .single _
  | repeated => exact .repeated _
  | packed => exact .packed _
  | message found => exact .message (kept _ _ rfl found)
  | messages found => exact .messages (kept _ _ rfl found)
  | map isKey single found => exact .map isKey single (kept _ _ rfl found)

/-- A codec agrees with other codecs too, if these are there for the types it names. -/
theorem MessageCodec.Coherent.transfer {set other : CodecSet} {name : String}
    {codec : MessageCodec} (good : codec.Coherent set name)
    (closed : ∀ plan ∈ codec.fields, plan.form.Closed other) : codec.Coherent other name :=
  { good with closed := closed }

/-- Codecs that agree with each other. -/
def CodecSet.Coherent (set : CodecSet) : Prop :=
  ∀ name codec, set.get? name = some codec → codec.Coherent set name

namespace MessageCodec

/-- The group of a field. -/
def group? (codec : MessageCodec) (tag : Nat) : Option String :=
  (codec.reader? tag).bind (·.oneof)

/-- Two different fields are members of one group. -/
def Rivals (codec : MessageCodec) (tag other : Nat) : Prop :=
  tag ≠ other ∧ (codec.group? tag).isSome ∧ codec.group? tag = codec.group? other

instance (codec : MessageCodec) (tag other : Nat) : Decidable (codec.Rivals tag other) :=
  inferInstanceAs (Decidable (_ ∧ _ ∧ _))

theorem Rivals.symm {codec : MessageCodec} {tag other : Nat} (rivals : codec.Rivals tag other) :
    codec.Rivals other tag :=
  ⟨rivals.1.symm, rivals.2.2 ▸ rivals.2.1, rivals.2.2.symm⟩

/-- Of three fields, the last two are the same field or rivals if both are rivals of the first. -/
theorem Rivals.eq_or {codec : MessageCodec} {tag other third : Nat}
    (rivals : codec.Rivals tag other) (rivals' : codec.Rivals tag third) :
    other = third ∨ codec.Rivals other third := by
  by_cases same : other = third
  · exact .inl same
  · exact .inr ⟨same, rivals.symm.2.1, rivals.2.2.symm.trans rivals'.2.2⟩

/-- The fields of an entry message are in no group. -/
theorem not_rivals_entryCodec {entry : String} {key : Scalar} {form : FieldForm}
    {tag other : Nat} : ¬(entryCodec entry key form).Rivals tag other := by
  rintro ⟨-, grouped, -⟩
  obtain ⟨group, grouped⟩ := Option.isSome_iff_exists.1 grouped
  obtain ⟨plan, planned, named⟩ := Option.bind_eq_some_iff.1 grouped
  have among := List.mem_reverse.1 (List.mem_of_find?_eq_some planned)
  simp only [entryCodec, List.mem_cons, List.not_mem_nil, or_false] at among
  rcases among with rfl | rfl <;> cases named

theorem reader?_tag {codec : MessageCodec} {tag : Nat} {plan : FieldPlan}
    (found : codec.reader? tag = some plan) : plan.tag = tag := by
  simpa using List.find?_some found

theorem reader?_mem {codec : MessageCodec} {tag : Nat} {plan : FieldPlan}
    (found : codec.reader? tag = some plan) : plan ∈ codec.fields :=
  List.mem_reverse.1 (List.mem_of_find?_eq_some found)

namespace Coherent

variable {set : CodecSet} {name : String} {codec : MessageCodec} {tag : Nat} {plan : FieldPlan}

theorem eq_of_tag (coherent : codec.Coherent set name) {other : FieldPlan}
    (held : plan ∈ codec.fields) (held' : other ∈ codec.fields) (same : plan.tag = other.tag) :
    plan = other :=
  List.inj_on_of_nodup_map coherent.tags held held' same

/-- Records with a tag are read by the plan of the tag. -/
theorem reader?_eq_some_iff (coherent : codec.Coherent set name) :
    codec.reader? tag = some plan ↔ plan ∈ codec.fields ∧ plan.tag = tag := by
  refine ⟨fun found => ⟨reader?_mem found, reader?_tag found⟩, ?_⟩
  rintro ⟨held, rfl⟩
  refine find?_eq_some_of_unique (List.mem_reverse.2 held) (by simp) fun other held' same => ?_
  exact coherent.eq_of_tag (List.mem_reverse.1 held') held (by simpa using same)

/-- Different fields that name one group are rivals. -/
theorem rivals_of_oneof (coherent : codec.Coherent set name) {other : FieldPlan} {group : String}
    (held : plan ∈ codec.fields) (held' : other ∈ codec.fields) (apart : plan.tag ≠ other.tag)
    (named : plan.oneof = some group) (named' : other.oneof = some group) :
    codec.Rivals plan.tag other.tag := by
  have group_eq {plan : FieldPlan} (held : plan ∈ codec.fields) :
      codec.group? plan.tag = plan.oneof := by
    rw [group?, coherent.reader?_eq_some_iff.2 ⟨held, rfl⟩, Option.bind_some]
  refine ⟨apart, ?_, ?_⟩
  · rw [group_eq held, named]
    rfl
  · rw [group_eq held, group_eq held', named, named']

theorem group?_eq_some_iff (coherent : codec.Coherent set name) {group : String} :
    codec.group? tag = some group ↔
      ∃ tags, codec.oneofs.get? group = some tags ∧ tag ∈ tags.keys := by
  constructor
  · intro grouped
    obtain ⟨plan, found, names⟩ := Option.bind_eq_some_iff.1 grouped
    obtain rfl := reader?_tag found
    exact coherent.listed plan (reader?_mem found) group names
  · rintro ⟨tags, found, listed⟩
    obtain ⟨plan, held, rfl, grouped⟩ := coherent.members group tags found tag listed
    rw [group?, coherent.reader?_eq_some_iff.2 ⟨held, rfl⟩, Option.bind_some, grouped]

end Coherent

/-! ## Clearing the other members of a group -/

@[simp] theorem typeName_clearOthers (codec : MessageCodec) (plan : FieldPlan)
    (message : Message) : (codec.clearOthers plan message).typeName = message.typeName := by
  unfold clearOthers
  split
  · exact (MessageOf.foldl_remove_keeps _ _).1
  · rfl

@[simp] theorem unknown_clearOthers (codec : MessageCodec) (plan : FieldPlan)
    (message : Message) : (codec.clearOthers plan message).unknown = message.unknown := by
  unfold clearOthers
  split
  · exact (MessageOf.foldl_remove_keeps _ _).2.1
  · rfl

theorem ordered_clearOthers (codec : MessageCodec) (plan : FieldPlan) {message : Message}
    (ordered : message.Ordered) : (codec.clearOthers plan message).Ordered := by
  unfold clearOthers
  split
  · exact (MessageOf.foldl_remove_keeps _ _).2.2 ordered
  · exact ordered

theorem clearOthers_addUnknown (codec : MessageCodec) (plan : FieldPlan) (message : Message)
    (unknown : List UnknownField) :
    codec.clearOthers plan (message.addUnknown unknown) =
      (codec.clearOthers plan message).addUnknown unknown := by
  unfold clearOthers
  split
  · exact MessageOf.foldl_remove_addUnknown _ message unknown
  · rfl

/-- Exactly the rivals of a field are cleared for it. -/
theorem Coherent.get?_clearOthers {set : CodecSet} {name : String} {codec : MessageCodec}
    (coherent : codec.Coherent set name) {tag : Nat} {plan : FieldPlan}
    (found : codec.reader? tag = some plan) (message : Message) (other : Nat) :
    (codec.clearOthers plan message).get? other =
      if codec.Rivals tag other then none else message.get? other := by
  obtain rfl := reader?_tag found
  have grouped : codec.group? plan.tag = plan.oneof := by rw [group?, found, Option.bind_some]
  unfold clearOthers
  cases group : plan.oneof with
  | none =>
    have alone : ¬codec.Rivals plan.tag other := fun rivals => by
      have := rivals.2.1
      simp [grouped, group] at this
    simp [alone]
  | some group' =>
    obtain ⟨tags, table, -⟩ := coherent.listed plan (reader?_mem found) group' group
    have rivals : codec.Rivals plan.tag other ↔ other ∈ tags.keys ∧ other ≠ plan.tag := by
      have listed : codec.group? other = some group' ↔ other ∈ tags.keys := by
        rw [coherent.group?_eq_some_iff]
        simp [table]
      simp only [Rivals, grouped, group, Option.isSome_some, true_and, eq_comm (a := some group'),
        listed]
      exact ⟨fun ⟨ne, held⟩ => ⟨held, ne.symm⟩, fun ⟨held, ne⟩ => ⟨ne.symm, held⟩⟩
    simp only [Option.bind_some, table, MessageOf.get?_foldl_remove, List.mem_filter,
      decide_eq_true_eq, rivals]

/-- Nothing is cleared where no rival is set. -/
theorem Coherent.clearOthers_eq {set : CodecSet} {name : String} {codec : MessageCodec}
    (coherent : codec.Coherent set name) {tag : Nat} {plan : FieldPlan}
    (found : codec.reader? tag = some plan) {message : Message} (ordered : message.Ordered)
    (quiet : ∀ other, codec.Rivals tag other → message.get? other = none) :
    codec.clearOthers plan message = message := by
  refine MessageOf.Ordered.ext (ordered_clearOthers codec plan ordered) ordered
    (typeName_clearOthers ..) (unknown_clearOthers ..) fun other => ?_
  rw [coherent.get?_clearOthers found]
  split
  · rename_i rivals
    exact (quiet other rivals).symm
  · rfl

end MessageCodec

end Protobuf
