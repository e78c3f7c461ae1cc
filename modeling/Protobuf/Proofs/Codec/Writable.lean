import Mathlib.Data.List.Pairwise
import Protobuf.Proofs.Codec.RoundTrip

/-! # What can be written

A message can be written exactly if its type has all the fields that are set, if each of them holds
a value that its plan can write or a zero that it leaves out, and if no two members of a group are
set. Main statement: `CodecSet.exists_encode_iff`. -/

namespace Protobuf

open Wire

namespace CodecSet

variable {set : CodecSet} {codec : MessageCodec} {name message : String} {plan : FieldPlan}

/-- A value can be written in a form. Messages inside it are left to writing itself. -/
inductive Writable (set : CodecSet) : FieldForm → Value → Prop
  | single {scalar : Scalar} {value : Value} (holds : scalar.Holds value) :
    Writable set (.single scalar) value
  | message {source : Message} {bytes : List UInt8} (done : set.encode source = .ok bytes) :
    Writable set (.message source.typeName) (.message source)
  | repeated {scalar : Scalar} {elements : List Value}
    (hold : ∀ element ∈ elements, scalar.Holds element) :
    Writable set (.repeated scalar) (.list elements)
  | packed {kind : Numeric} {elements : List Value}
    (hold : ∀ element ∈ elements, (Scalar.numeric kind).Holds element) :
    Writable set (.packed kind) (.list elements)
  | messages {type : String} {elements : List Value}
    (each : ∀ element ∈ elements, Writable set (.message type) element) :
    Writable set (.messages type) (.list elements)
  | map {entry : String} {entries : List (Value × Value)}
    (each : ∀ held ∈ entries, ∃ bytes, set.encode (Value.entryOf entry held) = .ok bytes) :
    Writable set (.map entry) (.map entries)

/-- A value is what its plan can write or a zero that the plan leaves out. -/
def Writes (set : CodecSet) (plan : FieldPlan) (value : Value) : Prop :=
  (plan.presence = .implicit ∧ value.isZero) ∨ Writable set plan.form value

/-- A row can be written exactly if each item can. -/
theorem writeEach_isSome_iff {α : Type} {write : α → Option (List UInt8)} {items : List α} :
    (writeEach write items).isSome ↔ ∀ item ∈ items, (write item).isSome := by
  induction items with
  | nil => simp [writeEach]
  | cons item rest ih =>
    rw [List.forall_mem_cons, ← ih, writeEach]
    cases write item <;> cases writeEach write rest <;> simp

theorem writable_message_iff {type : String} {value : Value} :
    Writable set (.message type) value ↔ ∃ source : Message, value = .message source ∧
      source.typeName = type ∧ ∃ bytes, set.encode source = .ok bytes := by
  constructor
  · intro writable
    cases writable with
    | message done => exact ⟨_, rfl, rfl, _, done⟩
  · rintro ⟨source, rfl, rfl, bytes, done⟩
    exact .message done

/-- The elements of a field of messages are written if each is a message of the type that can be
written. -/
theorem exists_writeElements_iff {type : String} {elements : List Value} :
    (∃ bytes, writeElements set elements message plan type = .ok bytes) ↔
      ∀ element ∈ elements, Writable set (.message type) element := by
  induction elements with
  | nil => simp [writeElements]
  | cons element rest ih =>
    rw [List.forall_mem_cons, ← ih, writable_message_iff]
    constructor
    · rintro ⟨bytes, done⟩
      cases element with
      | message source =>
        by_cases same : source.typeName = type
        · subst same
          rw [writeElements_cons, bind_eq_ok_iff] at done
          obtain ⟨nested, here, done⟩ := done
          obtain ⟨after, later, -⟩ := bind_eq_ok_iff.1 done
          exact ⟨⟨source, rfl, rfl, nested, here⟩, after, later⟩
        · simp [writeElements, same, mismatch] at done
      | _ => simp [writeElements, mismatch] at done
    · rintro ⟨⟨source, rfl, rfl, nested, here⟩, after, later⟩
      exact ⟨_, by rw [writeElements_cons, here, ok_bind, later, ok_bind]⟩

/-- The entries of a map are written if the entry message of each can be. -/
theorem exists_writeEntries_iff {entry : String} {key : Scalar} {form : FieldForm}
    (found : set.get? entry = some (entryCodec entry key form)) {entries : List (Value × Value)} :
    (∃ bytes, writeEntries (entryCodec entry key form) plan (entryDrafts set entries) =
        .ok bytes) ↔
      ∀ held ∈ entries, ∃ bytes, set.encode (Value.entryOf entry held) = .ok bytes := by
  induction entries with
  | nil => simp [entryDrafts, writeEntries]
  | cons held rest ih =>
    rw [List.forall_mem_cons, ← ih, writeEntries_cons found]
    simp only [bind_eq_ok_iff]
    constructor
    · rintro ⟨bytes, nested, here, after, later, -⟩
      exact ⟨⟨nested, here⟩, after, later⟩
    · rintro ⟨⟨nested, here⟩, after, later⟩
      exact ⟨_, nested, here, after, later, rfl⟩

theorem exists_writeValue_single_iff {scalar : Scalar} (form : plan.form = .single scalar)
    {value : Value} :
    (∃ bytes, writeValue set value message plan = .ok bytes) ↔ scalar.Holds value := by
  constructor
  · rintro ⟨bytes, done⟩
    by_contra fails
    have none : scalar.write? value = none := Option.not_isSome_iff_eq_none.1 fails
    cases value <;> simp [writeValue, form, none, mismatch] at done
  · intro holds
    obtain ⟨bytes, written⟩ := Option.isSome_iff_exists.1 holds
    exact ⟨_, writeValue_single form written⟩

theorem exists_writeValue_message_iff {type : String} (form : plan.form = .message type)
    {value : Value} : (∃ bytes, writeValue set value message plan = .ok bytes) ↔
      Writable set (.message type) value := by
  rw [writable_message_iff]
  constructor
  · rintro ⟨bytes, done⟩
    cases value with
    | message source =>
      by_cases same : source.typeName = type
      · rw [writeValue_message (form.trans (congrArg _ same.symm)), map_eq_ok_iff] at done
        obtain ⟨nested, done, -⟩ := done
        exact ⟨source, rfl, same, nested, done⟩
      · simp [writeValue, form, same, mismatch] at done
    | _ => simp [writeValue, form, mismatch] at done
  · rintro ⟨source, rfl, rfl, nested, done⟩
    exact ⟨_, by rw [writeValue_message form, done, map_ok]⟩

theorem exists_writeValue_repeated_iff {scalar : Scalar} (form : plan.form = .repeated scalar)
    {value : Value} : (∃ bytes, writeValue set value message plan = .ok bytes) ↔
      Writable set (.repeated scalar) value := by
  have row : ∀ element, ((scalar.write? element).map (plan.key ++ ·)).isSome ↔
      scalar.Holds element := fun element => by rw [Option.isSome_map]; rfl
  constructor
  · rintro ⟨bytes, done⟩
    cases value with
    | list elements =>
      simp only [writeValue, form] at done
      split at done
      · rename_i records written
        have each := writeEach_isSome_iff.1 (Option.isSome_iff_exists.2 ⟨records, written⟩)
        exact .repeated fun element held => (row element).1 (each element held)
      · cases done
    | _ => simp [writeValue, form, mismatch] at done
  · intro writable
    cases writable with
    | repeated hold =>
      have all := writeEach_isSome_iff.2 fun element held => (row element).2 (hold element held)
      obtain ⟨records, written⟩ := Option.isSome_iff_exists.1 all
      exact ⟨records, by simp only [writeValue, form, written]⟩

theorem exists_writeValue_packed_iff {kind : Numeric} (form : plan.form = .packed kind)
    {value : Value} : (∃ bytes, writeValue set value message plan = .ok bytes) ↔
      Writable set (.packed kind) value := by
  constructor
  · rintro ⟨bytes, done⟩
    cases value with
    | list elements =>
      simp only [writeValue, form] at done
      split at done
      · rename_i run written
        exact .packed (writeEach_isSome_iff.1 (Option.isSome_iff_exists.2 ⟨run, written⟩))
      · cases done
    | _ => simp [writeValue, form, mismatch] at done
  · intro writable
    cases writable with
    | packed hold =>
      have all := writeEach_isSome_iff.2 hold
      obtain ⟨run, written⟩ := Option.isSome_iff_exists.1 all
      exact ⟨_, by
        simp only [writeValue, form]
        rw [show writeEach kind.write? _ = _ from written]⟩

/-- What can be written as a field is what fits its form, messages left to writing. -/
theorem exists_writeValue_iff (closed : plan.form.Closed set) {value : Value} :
    (∃ bytes, writeValue set value message plan = .ok bytes) ↔ Writable set plan.form value := by
  cases form : plan.form with
  | single scalar =>
    rw [exists_writeValue_single_iff form]
    constructor
    · exact .single
    · intro writable
      cases writable with
      | single holds => exact holds
  | message type => exact exists_writeValue_message_iff form
  | repeated scalar => exact exists_writeValue_repeated_iff form
  | packed kind => exact exists_writeValue_packed_iff form
  | messages type =>
    constructor
    · rintro ⟨bytes, done⟩
      cases value with
      | list elements =>
        simp only [writeValue, form] at done
        exact .messages (exists_writeElements_iff.1 ⟨bytes, done⟩)
      | _ => simp [writeValue, form, mismatch] at done
    · intro writable
      cases writable with
      | messages each =>
        simp only [writeValue, form]
        exact exists_writeElements_iff.2 each
  | map entry =>
    rw [form] at closed
    cases closed with
    | map isKey single found =>
      constructor
      · rintro ⟨bytes, done⟩
        cases value with
        | map entries =>
          simp only [writeValue, form, codec_eq_ok found, ok_bind] at done
          exact .map ((exists_writeEntries_iff found).1 ⟨bytes, done⟩)
        | _ => simp [writeValue, form, mismatch] at done
      · intro writable
        cases writable with
        | map each =>
          simp only [writeValue, form, codec_eq_ok found, ok_bind]
          exact (exists_writeEntries_iff found).2 each

/-! ## Fields -/

/-- Each of some fields can be written on its own, no set member of a group has one of some groups,
and no two set members have the same one. -/
structure Parts (message : String) (draft? : Nat → Option Draft) (groups : List String)
    (plans : List FieldPlan) : Prop where
  each : ∀ plan ∈ plans, ∃ bytes, Part message draft? plan bytes
  fresh : ∀ plan ∈ plans, ∀ group, plan.presence = .oneof group →
    (draft? plan.tag).isSome → group ∉ groups
  exclusive : plans.Pairwise fun plan other => ∀ group, plan.presence = .oneof group →
    other.presence = .oneof group → (draft? plan.tag).isSome → draft? other.tag = none

section Parts

variable {draft? : Nat → Option Draft} {groups : List String} {plans : List FieldPlan}

/-- A field in front that is no set member of a group. -/
theorem Parts.cons (parts : Parts message draft? groups plans)
    (here : ∃ bytes, Part message draft? plan bytes)
    (free : ∀ group, plan.presence = .oneof group → draft? plan.tag = none) :
    Parts message draft? groups (plan :: plans) where
  each := List.forall_mem_cons.2 ⟨here, parts.each⟩
  fresh := List.forall_mem_cons.2 ⟨fun group named there => by simp [free group named] at there,
    parts.fresh⟩
  exclusive := List.pairwise_cons.2 ⟨fun other _ group named _ there => by
    simp [free group named] at there, parts.exclusive⟩

/-- A field in front that is a set member of a new group. -/
theorem Parts.cons_member {group : String} (parts : Parts message draft? (group :: groups) plans)
    (here : ∃ bytes, Part message draft? plan bytes) (named : plan.presence = .oneof group)
    (unused : group ∉ groups) : Parts message draft? groups (plan :: plans) where
  each := List.forall_mem_cons.2 ⟨here, parts.each⟩
  fresh := by
    refine List.forall_mem_cons.2
      ⟨fun other named' _ => ?_, fun other held group' named' there => ?_⟩
    · cases named.symm.trans named'
      exact unused
    · have fresh := parts.fresh other held group' named' there
      exact fun held => fresh (List.mem_cons_of_mem _ held)
  exclusive := by
    refine List.pairwise_cons.2 ⟨fun other held group' named' named'' _ => ?_, parts.exclusive⟩
    cases named.symm.trans named'
    by_contra there
    have fresh := parts.fresh other held group named'' (Option.isSome_iff_ne_none.2 there)
    exact fresh List.mem_cons_self

/-- Fields that are written are each written on their own, and no two of them are set members of
one group. -/
theorem parts_of_writeFields {bytes : List UInt8}
    (done : writeFields message draft? groups plans = .ok bytes) :
    Parts message draft? groups plans := by
  induction plans generalizing groups bytes with
  | nil => exact ⟨fun plan held => absurd held List.not_mem_nil,
      fun plan held => absurd held List.not_mem_nil, .nil⟩
  | cons plan rest ih =>
    rw [writeFields] at done
    split at done
    · rename_i missing
      exact (ih done).cons ⟨[], .absent missing⟩ fun _ _ => missing
    · rename_i draft there
      split at done
      · rename_i implicit
        have free : ∀ group, plan.presence = .oneof group → draft? plan.tag = none :=
          fun group named => by cases implicit.symm.trans named
        split at done
        · rename_i zero
          exact (ih done).cons ⟨[], .zero there implicit zero⟩ free
        · rename_i nonzero
          obtain ⟨here, written, done⟩ := bind_eq_ok_iff.1 done
          obtain ⟨after, later, -⟩ := bind_eq_ok_iff.1 done
          have kept : draft.zero = false := Bool.eq_false_iff.2 nonzero
          exact (ih later).cons ⟨here, .written there (fun _ => kept) written⟩ free
      · rename_i group named
        split at done
        · cases done
        · rename_i unused
          obtain ⟨here, written, done⟩ := bind_eq_ok_iff.1 done
          obtain ⟨after, later, -⟩ := bind_eq_ok_iff.1 done
          have kept : plan.presence = .implicit → draft.zero = false :=
            fun implicit => by cases implicit.symm.trans named
          exact (ih later).cons_member ⟨here, .written there kept written⟩ named
            fun held => unused (List.contains_iff_mem.2 held)
      · rename_i notImplicit notMember
        obtain ⟨here, written, done⟩ := bind_eq_ok_iff.1 done
        obtain ⟨after, later, -⟩ := bind_eq_ok_iff.1 done
        exact (ih later).cons ⟨here, .written there (fun implicit => absurd implicit notImplicit)
          written⟩ fun group named => absurd named (notMember group)

/-- Fields are written exactly if each is written on its own and no two are set members of one
group. -/
theorem exists_writeFields_iff :
    (∃ bytes, writeFields message draft? groups plans = .ok bytes) ↔
      Parts message draft? groups plans := by
  constructor
  · rintro ⟨bytes, done⟩
    exact parts_of_writeFields done
  · intro parts
    classical
    let part (plan : FieldPlan) : List UInt8 :=
      if there : ∃ bytes, Part message draft? plan bytes then there.choose else []
    have each : ∀ plan ∈ plans, Part message draft? plan (part plan) := by
      intro plan held
      have there := parts.each plan held
      simp only [part, dif_pos there]
      exact there.choose_spec
    exact ⟨_, writeFields_eq_ok each parts.fresh parts.exclusive⟩

end Parts

/-! ## Messages -/

/-- A plan is that of a member of a group exactly if it names the group. -/
theorem presence_eq_oneof_iff (good : codec.Coherent set name) (among : plan ∈ codec.fields)
    {group : String} : plan.presence = .oneof group ↔ plan.oneof = some group := by
  refine ⟨FieldPlan.oneof_of_presence, fun named => ?_⟩
  have single := good.member plan among (by rw [named]; rfl)
  rw [FieldPlan.presence, single, named]
  rfl

/-- A field is written on its own exactly if it is not set or holds what its plan can write or a
zero that it leaves out. -/
theorem exists_part_iff (closed : plan.form.Closed set) {source : Message} :
    (∃ bytes, Part message (fun tag => (source.get? tag).map (draft set)) plan bytes) ↔
      ∀ value, source.get? plan.tag = some value → Writes set plan value := by
  constructor
  · rintro ⟨bytes, part⟩ value held
    have there : (source.get? plan.tag).map (draft set) = some (draft set value) := by
      rw [held, Option.map_some]
    cases part with
    | absent missing => cases there.symm.trans missing
    | zero there' implicit zero =>
      cases there.symm.trans there'
      exact .inl ⟨implicit, zero⟩
    | written there' kept done =>
      cases there.symm.trans there'
      exact .inr ((exists_writeValue_iff closed).1 ⟨bytes, done⟩)
  · intro holds
    cases held : source.get? plan.tag with
    | none => exact ⟨[], .absent (by rw [held, Option.map_none])⟩
    | some value =>
      have there : (source.get? plan.tag).map (draft set) = some (draft set value) := by
        rw [held, Option.map_some]
      by_cases left_out : plan.presence = .implicit ∧ value.isZero
      · exact ⟨[], .zero there left_out.1 left_out.2⟩
      · have writable := (holds value held).resolve_left left_out
        obtain ⟨bytes, done⟩ := (exists_writeValue_iff closed).2 writable
        have kept : plan.presence = .implicit → value.isZero = false := fun implicit =>
          Bool.eq_false_iff.2 fun zero => left_out ⟨implicit, zero⟩
        exact ⟨bytes, .written there kept done⟩

/-- Of no two fields in declared order both are set members of one group exactly if that holds of
rivals. -/
theorem exclusive_iff {α : Type} (good : codec.Coherent set name) (held? : Nat → Option α) :
    (codec.fields.Pairwise fun plan other => ∀ group, plan.presence = .oneof group →
      other.presence = .oneof group → (held? plan.tag).isSome → held? other.tag = none) ↔
    ∀ tag other, codec.Rivals tag other → (held? tag).isSome → held? other = none := by
  constructor
  · intro exclusive tag other rivals there
    by_contra there'
    obtain ⟨group, grouped⟩ := Option.isSome_iff_exists.1 rivals.2.1
    obtain ⟨plan, planned, named⟩ := Option.bind_eq_some_iff.1 grouped
    obtain ⟨plan', planned', named'⟩ := Option.bind_eq_some_iff.1 (rivals.2.2.symm.trans grouped)
    obtain ⟨among, rfl⟩ := good.reader?_eq_some_iff.1 planned
    obtain ⟨among', rfl⟩ := good.reader?_eq_some_iff.1 planned'
    let SetMember (item : FieldPlan) : Prop :=
      item.presence = .oneof group ∧ (held? item.tag).isSome
    have never : codec.fields.Pairwise fun first second =>
        ¬(SetMember first ∧ SetMember second) := by
      refine exclusive.imp fun apart both => ?_
      have missing := apart group both.1.1 both.2.1 both.1.2
      simp [SetMember, missing] at both
    have symmetric : Std.Symm fun first second => ¬(SetMember first ∧ SetMember second) :=
      ⟨fun first second none both => none both.symm⟩
    have apart : plan ≠ plan' := fun same => rivals.1 (congrArg FieldPlan.tag same)
    exact never.forall among among' apart
      ⟨⟨(presence_eq_oneof_iff good among).2 named, there⟩,
        (presence_eq_oneof_iff good among').2 named', Option.isSome_iff_ne_none.2 there'⟩
  · intro exclusive
    refine (List.pairwise_map.1 good.tags).imp_of_mem fun {plan other} held held' apart => ?_
    intro group named named' there
    exact exclusive _ _ (good.rivals_of_oneof held held' apart (FieldPlan.oneof_of_presence named)
      (FieldPlan.oneof_of_presence named')) there

/-- A message can be written exactly if its type has every field that is set, each of these holds
what its plan can write or a zero that it leaves out, and no two members of a group are set. -/
theorem exists_encode_iff (good : codec.Coherent set name) {source : Message}
    (found : set.get? source.typeName = some codec) :
    (∃ bytes, set.encode source = .ok bytes) ↔
      (∀ tag, (source.get? tag).isSome → (codec.reader? tag).isSome) ∧
      (∀ plan ∈ codec.fields, ∀ value, source.get? plan.tag = some value →
        Writes set plan value) ∧
      ∀ tag other, codec.Rivals tag other → (source.get? tag).isSome →
        source.get? other = none := by
  have fields (declared : ∀ field ∈ source.fields, (codec.reader? field.1).isSome) :
      (∃ bytes, set.encode source = .ok bytes) ↔
        Parts codec.message (fun tag => (source.get? tag).map (draft set)) [] codec.fields := by
    rw [encode_eq found declared, ← exists_writeFields_iff]
    simp [map_eq_ok_iff]
  have exclusive := exclusive_iff good fun tag => (source.get? tag).map (draft set)
  simp only [Option.isSome_map, Option.map_eq_none_iff] at exclusive
  constructor
  · rintro ⟨bytes, done⟩
    have declared := declared_of_encode found done
    have parts := (fields declared).1 ⟨bytes, done⟩
    refine ⟨fun tag there => ?_, fun plan held => ?_, ?_⟩
    · obtain ⟨value, there⟩ := Option.isSome_iff_exists.1 there
      exact declared _ (Keyed.mem_of_get?_eq_some there)
    · exact (exists_part_iff (good.closed plan held)).1 (parts.each plan held)
    · refine exclusive.1 ?_
      simpa only [Option.isSome_map, Option.map_eq_none_iff] using parts.exclusive
  · rintro ⟨declared, holds, apart⟩
    have declared : ∀ field ∈ source.fields, (codec.reader? field.1).isSome :=
      fun field held => declared _ (Keyed.get?_isSome_of_mem held)
    refine (fields declared).2 ⟨fun plan held => ?_, fun _ _ _ _ _ => List.not_mem_nil, ?_⟩
    · exact (exists_part_iff (good.closed plan held)).2 (holds plan held)
    · simpa only [Option.isSome_map, Option.map_eq_none_iff] using exclusive.2 apart

end CodecSet

end Protobuf
