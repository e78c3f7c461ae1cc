import Protobuf.Proofs.Codec.Replay
import Protobuf.Proofs.Codec.Typing

/-! # Writing and reading back

A message that conforms can be written, and reading the bytes gives its normal form. The message in
normal form is written as the same bytes.

## Implementation notes

The induction is on how deep the message nests. Reading goes through the fields in declared order
and never meets a rival of a field, because no two members of a group are set. -/

namespace Protobuf

open Wire

/-- Limits under which a message of some depth can be read from some bytes. -/
structure Limits.Admit (limits : Limits) (bytes : List UInt8) (depth : Nat) : Prop where
  messageSize : bytes.length ≤ limits.maxMessageSize
  length : bytes.length ≤ limits.maxLength
  /-- Lengths are numbers of 64 bits. -/
  word : bytes.length < UInt64.size
  depth : depth ≤ limits.maxDepth

namespace FieldPlan

variable {plan : FieldPlan}

theorem presence_eq_repeated_iff : plan.presence = .repeated ↔ plan.form.isRepeated := by
  unfold presence
  split
  · rename_i repeated
    simp [repeated]
  · rename_i single
    split
    · simp [single]
    · split <;> simp [single]
      split <;> simp

theorem oneof_of_presence {group : String} (named : plan.presence = .oneof group) :
    plan.oneof = some group := by
  unfold presence at named
  split at named
  · cases named
  · split at named
    · rename_i group' there
      cases named
      exact there
    · split at named
      · cases named
      · split at named <;> cases named

end FieldPlan

namespace CodecSet

variable {set : CodecSet} {codec : MessageCodec} {name : String} {plan : FieldPlan}

theorem Builds.isSome {depth : Nat} {bytes : List UInt8} {held final : Option Value}
    (builds : Builds set plan depth held bytes final) (isSome : held.isSome) : final.isSome := by
  induction builds with
  | nil => exact isSome
  | cons _ _ _ ih => exact ih rfl

/-- No records build nothing. -/
theorem Builds.eq_nil {depth : Nat} {bytes : List UInt8}
    (builds : Builds set plan depth none bytes none) : bytes = [] := by
  cases builds with
  | nil => rfl
  | cons stands done tail => cases tail.isSome rfl

theorem omits_eq (found : set.get? name = some codec) {tag : Nat}
    (planned : codec.reader? tag = some plan) : set.omits name tag = plan.omitsZero := by
  rw [omits, found, Option.bind_some, planned, Option.any_some]

/-- What a field of a conforming message is written as, trimmed or not, and what it builds. -/
theorem part_builds (good : codec.Coherent set name) (found : set.get? name = some codec)
    (among : plan ∈ codec.fields) {message : Message} (named : message.typeName = name)
    (conforms : ConformsTo set codec message)
    (below : RoundTripsBelow set message.depth) :
    ∃ bytes, (∀ trimmed, message.Trims set.omits trimmed →
        Part codec.message (fun tag => (trimmed.get? tag).map (draft set)) plan bytes) ∧
      Builds set plan message.depth none bytes ((message.normal set.omits).get? plan.tag) := by
  have planned := good.reader?_eq_some_iff.2 ⟨among, rfl⟩
  have omits : set.omits message.typeName plan.tag = plan.omitsZero := by
    rw [named, omits_eq found planned]
  rw [MessageOf.get?_normal conforms.ordered, omits]
  cases held : message.get? plan.tag with
  | none =>
    refine ⟨[], fun trimmed trims => .absent ?_, .nil⟩
    simp only [trims.missing _ held, Option.map_none]
  | some value =>
    rw [Option.bind_some]
    by_cases left_out : plan.presence = .implicit ∧ value.isZero
    · obtain ⟨implicit, zero⟩ := left_out
      rw [if_pos (by simp [FieldPlan.omitsZero, implicit, zero])]
      refine ⟨[], fun trimmed trims => ?_, .nil⟩
      rcases trims.held _ _ held with same | normal | ⟨-, -, missing⟩
      · have there : (trimmed.get? plan.tag).map (draft set) = some (draft set value) := by
          rw [same, Option.map_some]
        exact .zero there implicit zero
      · have there : (trimmed.get? plan.tag).map (draft set) =
            some (draft set (value.normal set.omits)) := by
          rw [normal, Option.map_some]
        exact .zero there implicit ((Value.isZero_normal value).trans zero)
      · exact .absent (by simp only [missing, Option.map_none])
    · obtain ⟨bytes, written, again, builds⟩ := writeValue_builds below (good.closed plan among)
        (conforms.fits_plan held planned) (MessageOf.levels_le_depth held) codec.message
      have kept : plan.presence = .implicit → value.isZero = false := fun implicit =>
        Bool.eq_false_iff.2 fun zero => left_out ⟨implicit, zero⟩
      have same : (plan.omitsZero && value.isZero) = (plan.form.isRepeated && value.isZero) := by
        cases zero : value.isZero with
        | false => simp
        | true =>
          have explicit : plan.presence ≠ .implicit := fun implicit => left_out ⟨implicit, zero⟩
          simp [FieldPlan.omitsZero, explicit, FieldPlan.presence_eq_repeated_iff]
      rw [← same] at builds
      refine ⟨bytes, fun trimmed trims => ?_, builds⟩
      rcases trims.held _ _ held with same | normal | ⟨omitted, zero, missing⟩
      · have there : (trimmed.get? plan.tag).map (draft set) = some (draft set value) := by
          rw [same, Option.map_some]
        exact .written there kept written
      · have there : (trimmed.get? plan.tag).map (draft set) =
            some (draft set (value.normal set.omits)) := by
          rw [normal, Option.map_some]
        have kept' : plan.presence = .implicit → (value.normal set.omits).isZero = false :=
          fun implicit => (Value.isZero_normal value).trans (kept implicit)
        exact .written there kept' again
      · rw [omits] at omitted
        rw [if_pos (by simp [omitted, zero])] at builds
        rw [builds.eq_nil]
        exact .absent (by simp only [missing, Option.map_none])

/-- A trimmed message is written as the parts of its fields and what it does not know. -/
theorem encode_trimmed (good : codec.Coherent set name) (found : set.get? name = some codec)
    {message trimmed : Message} (named : message.typeName = name)
    (conforms : ConformsTo set codec message) (trims : message.Trims set.omits trimmed)
    {part : FieldPlan → List UInt8}
    (parts : ∀ plan ∈ codec.fields,
      Part codec.message (fun tag => (trimmed.get? tag).map (draft set)) plan (part plan)) :
    encode set trimmed =
      .ok (codec.fields.flatMap part ++ UnknownField.rawAll message.unknown) := by
  have declared : ∀ field ∈ trimmed.fields, (codec.reader? field.1).isSome := by
    intro field held
    have there : (trimmed.get? field.1).isSome := Keyed.get?_isSome_of_mem held
    cases before : message.get? field.1 with
    | none => simp [trims.missing _ before] at there
    | some value =>
      obtain ⟨plan, planned, -⟩ := conforms.fits _ _ before
      rw [planned]
      rfl
  have unset : ∀ tag, message.get? tag = none →
      (trimmed.get? tag).map (draft set) = none := fun tag missing => by
    rw [trims.missing tag missing, Option.map_none]
  have exclusive : codec.fields.Pairwise fun plan other => ∀ group,
      plan.presence = .oneof group → other.presence = .oneof group →
      ((trimmed.get? plan.tag).map (draft set)).isSome →
        (trimmed.get? other.tag).map (draft set) = none := by
    apply (List.pairwise_map.1 good.tags).imp_of_mem
    intro plan other among among' apart group member member' there
    have rivals := good.rivals_of_oneof among among' apart (FieldPlan.oneof_of_presence member)
      (FieldPlan.oneof_of_presence member')
    refine unset _ (conforms.exclusive _ _ rivals ?_)
    by_contra missing
    rw [unset _ (Option.not_isSome_iff_eq_none.1 missing)] at there
    cases there
  rw [encode_eq (trims.typeName.trans named ▸ found) declared,
    writeFields_eq_ok parts (fun _ _ _ _ _ => List.not_mem_nil) exclusive, map_ok, trims.unknown]

/-- Records that a conforming message does not know are read back as they are. -/
theorem plays_unknown (good : codec.Coherent set name) {levels : Nat}
    (anywhere : ReadsAnywhere (decodeWithin set levels)) {unknown : List UnknownField}
    (records : ∀ field ∈ unknown, field.IsRecord ∧ codec.reader? field.tag = none)
    (short : Short set.limits.maxLength (UnknownField.rawAll unknown)) (base : Message) :
    Plays set (decodeWithin set levels) codec (UnknownField.rawAll unknown) base
      (base.addUnknown unknown) := by
  induction unknown generalizing base with
  | nil =>
    rw [MessageOf.addUnknown_nil]
    exact .nil base
  | cons field rest ih =>
    obtain ⟨⟨⟨maxLength, record, form, rfl⟩, unplanned⟩, others⟩ := List.forall_mem_cons.1 records
    have bytes : UnknownField.rawAll (record.keep :: rest) =
        record.raw ++ UnknownField.rawAll rest := rfl
    rw [bytes] at short ⊢
    have form : record.Spells maxLength 0 record.raw := form
    have unplanned : codec.reader? record.key.tag = none := unplanned
    have first : Plays set (decodeWithin set levels) codec record.raw base
        (base.addUnknown [record.keep]) :=
      .of_record good anywhere form (short.of_le (by simp)).le
        (applyRecord_eq_addUnknown unplanned base)
    have later := ih others (short.of_le (by simp)) (base.addUnknown [record.keep])
    have together : (base.addUnknown [record.keep]).addUnknown rest =
        base.addUnknown (record.keep :: rest) := by
      simp [MessageOf.addUnknown]
    exact .append good anywhere first (together ▸ later)

/-- Records that build what a field holds in the end replay it, in a message that holds neither the
field nor, if the field is set in the end, a rival of it. -/
theorem Builds.plays_field (coherent : set.Coherent) (found : set.get? name = some codec)
    (among : plan ∈ codec.fields) {depth levels : Nat} (deep : depth ≤ levels)
    {final : Option Value} {bytes : List UInt8} (builds : Builds set plan depth none bytes final)
    (short : Short set.limits.maxLength bytes) {base : Message} (ordered : base.Ordered)
    (missing : base.get? plan.tag = none)
    (quiet : final.isSome → ∀ other, codec.Rivals plan.tag other → base.get? other = none) :
    Plays set (decodeWithin set levels) codec bytes base (base.setIfAny plan.tag final) := by
  cases final with
  | none =>
    rw [builds.eq_nil]
    exact .nil base
  | some value =>
    have planned := (coherent name codec found).reader?_eq_some_iff.2 ⟨among, rfl⟩
    exact builds.plays coherent found planned deep short ordered missing (quiet rfl)

/-- Parts that build what a message holds in some fields replay these fields. -/
theorem plays_fields (coherent : set.Coherent) (found : set.get? name = some codec)
    {target : Message} (exclusive : ∀ tag other, codec.Rivals tag other →
      (target.get? tag).isSome → target.get? other = none)
    {part : FieldPlan → List UInt8} {depth levels : Nat} (deep : depth ≤ levels)
    {plans : List FieldPlan} (among : ∀ plan ∈ plans, plan ∈ codec.fields)
    (distinct : (plans.map (·.tag)).Nodup)
    (builds : ∀ plan ∈ plans, Builds set plan depth none (part plan) (target.get? plan.tag))
    (short : Short set.limits.maxLength (plans.flatMap part)) {base : Message}
    (ordered : base.Ordered) (unset : ∀ plan ∈ plans, base.get? plan.tag = none)
    (within : ∀ tag, base.get? tag = none ∨ base.get? tag = target.get? tag) :
    ∃ result, Plays set (decodeWithin set levels) codec (plans.flatMap part) base result ∧
      result.typeName = base.typeName ∧ result.unknown = base.unknown ∧ result.Ordered ∧
      ∀ tag, result.get? tag =
        if tag ∈ plans.map (·.tag) then target.get? tag else base.get? tag := by
  induction plans generalizing base with
  | nil => exact ⟨base, .nil base, rfl, rfl, ordered, fun tag => by simp⟩
  | cons plan rest ih =>
    obtain ⟨here, among⟩ := List.forall_mem_cons.1 among
    obtain ⟨fresh, distinct⟩ := List.nodup_cons.1 distinct
    obtain ⟨built, builds⟩ := List.forall_mem_cons.1 builds
    obtain ⟨missing, unset⟩ := List.forall_mem_cons.1 unset
    rw [List.flatMap_cons] at short ⊢
    have first : Plays set (decodeWithin set levels) codec (part plan) base
        (base.setIfAny plan.tag (target.get? plan.tag)) := by
      apply built.plays_field coherent found here deep (short.of_le (by simp)) ordered missing
      intro there other rivals
      rcases within other with none | same
      · exact none
      · exact same.trans (exclusive plan.tag other rivals there)
    have unset' : ∀ other ∈ rest,
        (base.setIfAny plan.tag (target.get? plan.tag)).get? other.tag = none := by
      intro other held
      have apart : other.tag ≠ plan.tag := fun same => fresh (List.mem_map.2 ⟨other, held, same⟩)
      rw [MessageOf.get?_setIfAny missing, if_neg apart]
      exact unset other held
    have within' : ∀ tag, (base.setIfAny plan.tag (target.get? plan.tag)).get? tag = none ∨
        (base.setIfAny plan.tag (target.get? plan.tag)).get? tag = target.get? tag := by
      intro tag
      rw [MessageOf.get?_setIfAny missing]
      split
      · rename_i same
        exact .inr (same ▸ rfl)
      · exact within tag
    obtain ⟨result, later, typeName, unknown, ordered', lookups⟩ :=
      ih among distinct builds (short.of_le (by simp)) (ordered.setIfAny _ _) unset' within'
    have anywhere := readsAnywhere_decodeWithin coherent levels
    refine ⟨result, .append (coherent name codec found) anywhere first later, ?_, ?_, ordered', ?_⟩
    · rw [typeName, MessageOf.typeName_setIfAny]
    · rw [unknown, MessageOf.unknown_setIfAny]
    · intro tag
      rw [lookups, MessageOf.get?_setIfAny missing]
      simp only [List.map_cons, List.mem_cons]
      by_cases same : tag = plan.tag
      · simp [same]
      · simp [same]

/-- No two members of a group are set in the normal form. -/
theorem ConformsTo.exclusive_normal {message : Message} (conforms : ConformsTo set codec message)
    {tag other : Nat} (rivals : codec.Rivals tag other)
    (there : ((message.normal set.omits).get? tag).isSome) :
    (message.normal set.omits).get? other = none := by
  have trims : message.Trims set.omits (message.normal set.omits) :=
    MessageOf.trims_normal conforms.ordered
  apply trims.missing other
  apply conforms.exclusive tag other rivals
  by_contra missing
  rw [trims.missing tag (Option.not_isSome_iff_eq_none.1 missing)] at there
  cases there

/-- A message that holds what the normal form holds in the declared fields is the normal form. -/
theorem ConformsTo.eq_normal {message result : Message} (conforms : ConformsTo set codec message)
    (ordered : result.Ordered) (typeName : result.typeName = message.typeName)
    (unknown : result.unknown = message.unknown)
    (lookups : ∀ tag, result.get? tag =
      if tag ∈ codec.fields.map (·.tag) then (message.normal set.omits).get? tag else none) :
    result = message.normal set.omits := by
  apply ordered.ext (MessageOf.normal_ordered conforms.ordered) typeName unknown
  intro tag
  rw [lookups]
  split
  · rfl
  · rename_i undeclared
    rw [MessageOf.get?_normal conforms.ordered]
    cases held : message.get? tag with
    | none => rfl
    | some value =>
      obtain ⟨plan, planned, -⟩ := conforms.fits tag value held
      have declared := List.mem_map.2
        ⟨plan, MessageCodec.reader?_mem planned, MessageCodec.reader?_tag planned⟩
      exact absurd declared undeclared

/-- A conforming message is written and read back in normal form if all that nest less are. -/
theorem roundTrips_of_below (coherent : set.Coherent) {message : Message}
    (conforms : Conforms set message) (below : RoundTripsBelow set message.depth) :
    RoundTrips set message := by
  obtain ⟨codec, found, conforms⟩ := conforms.exists_codec
  have good := coherent _ codec found
  have parts : ∀ plan, ∃ bytes, plan ∈ codec.fields →
      (∀ trimmed, message.Trims set.omits trimmed →
        Part codec.message (fun tag => (trimmed.get? tag).map (draft set)) plan bytes) ∧
      Builds set plan message.depth none bytes ((message.normal set.omits).get? plan.tag) := by
    intro plan
    by_cases among : plan ∈ codec.fields
    · obtain ⟨bytes, both⟩ := part_builds good found among rfl conforms below
      exact ⟨bytes, fun _ => both⟩
    · exact ⟨[], fun here => absurd here among⟩
  choose part parts using parts
  refine ⟨codec.fields.flatMap part ++ UnknownField.rawAll message.unknown, ?_, ?_⟩
  · intro trimmed trims
    exact encode_trimmed good found rfl conforms trims fun plan among =>
      (parts plan among).1 trimmed trims
  · intro levels start enough short
    obtain ⟨levels, rfl⟩ : ∃ fewer, levels = fewer + 1 := ⟨levels - 1, by omega⟩
    obtain ⟨result, plays, typeName, unknown, ordered, lookups⟩ :=
      plays_fields coherent found (fun tag other => conforms.exclusive_normal)
        (Nat.lt_succ_iff.1 enough) (fun plan held => held) good.tags
        (fun plan among => (parts plan among).2) (short.of_le (by simp))
        (MessageOf.ordered_new message.typeName) (fun plan _ => rfl) (fun tag => .inl rfl)
    have anywhere := readsAnywhere_decodeWithin coherent levels
    have tail := plays_unknown good anywhere conforms.unknown (short.of_le (by simp)) result
    have same : result.addUnknown message.unknown = message.normal set.omits := by
      apply conforms.eq_normal (ordered.addUnknown _) typeName
      · rw [MessageOf.unknown_addUnknown, unknown]
        rfl
      · intro tag
        rw [MessageOf.get?_addUnknown, lookups]
        rfl
    obtain ⟨records, row, done⟩ := plays.append good anywhere tail
    exact (decodeWithin_eq_ok_iff coherent).2 ⟨codec, records, found, row, same ▸ done⟩

/-- All conforming messages are written and read back, however deep they nest. -/
theorem roundTrips_below (coherent : set.Coherent) (depth : Nat) : RoundTripsBelow set depth := by
  rintro message conforms -
  induction message using MessageOf.induct with
  | nest message ih =>
    apply roundTrips_of_below coherent conforms
    intro source conforms' shallow
    exact ih source shallow conforms'

/-- Every conforming message is written and read back in normal form. -/
theorem roundTrips (coherent : set.Coherent) {message : Message}
    (conforms : Conforms set message) : RoundTrips set message :=
  roundTrips_below coherent (message.depth + 1) message conforms (Nat.lt_succ_self _)

/-! ## Messages of a schema -/

variable {schema : Schema} {message : Message}

/-- Every message of an accepted schema can be written. -/
theorem exists_encode (accepted : schema.Accepted) (limits : Limits)
    (conforms : schema.Conforms message) :
    ∃ bytes, ((ofSchema schema).withLimits limits).encode message = .ok bytes := by
  have coherent := (coherent_ofSchema accepted).withLimits limits
  obtain ⟨bytes, written, -⟩ :=
    roundTrips coherent ((conforms_ofSchema_iff accepted limits).2 conforms)
  exact ⟨bytes, written message (.refl ..)⟩

/-- Every message that is read is of its type. -/
theorem conforms_of_decode (accepted : schema.Accepted) (limits : Limits) {name : String}
    {bytes : List UInt8}
    (done : ((ofSchema schema).withLimits limits).decode name bytes = .ok message) :
    message.typeName = name ∧ schema.Conforms message := by
  have coherent := (coherent_ofSchema accepted).withLimits limits
  obtain ⟨named, conforms⟩ :=
    readsConforming_decodeWithin coherent _ _ _ _ (decode_eq_ok_iff.1 done).2
  exact ⟨named, (conforms_ofSchema_iff accepted limits).1 conforms⟩

/-- Every message of an accepted schema is written, in the same way as its normal form, and under
all limits that admit the bytes and the depth of the message its normal form is read back. -/
theorem decode_encode_normal (accepted : schema.Accepted) (conforms : schema.Conforms message) :
    ∃ bytes, (ofSchema schema).encode message = .ok bytes ∧
      (ofSchema schema).encode (schema.normal message) = .ok bytes ∧
      ∀ limits : Limits, limits.Admit bytes message.depth →
        ((ofSchema schema).withLimits limits).decode message.typeName bytes =
          .ok (schema.normal message) := by
  have written : ∀ limits : Limits, ∃ bytes, (ofSchema schema).encode message = .ok bytes ∧
      (ofSchema schema).encode (schema.normal message) = .ok bytes ∧
      (limits.Admit bytes message.depth →
        ((ofSchema schema).withLimits limits).decode message.typeName bytes =
          .ok (schema.normal message)) := by
    intro limits
    have coherent := (coherent_ofSchema accepted).withLimits limits
    have conforms' := (conforms_ofSchema_iff accepted limits).2 conforms
    obtain ⟨bytes, written, back⟩ := roundTrips coherent conforms'
    have trims : message.Trims ((ofSchema schema).withLimits limits).omits
        (message.normal ((ofSchema schema).withLimits limits).omits) :=
      MessageOf.trims_normal conforms'.ordered
    have normal : message.normal ((ofSchema schema).withLimits limits).omits =
        schema.normal message := by
      rw [omits_ofSchema accepted]
      rfl
    refine ⟨bytes, ?_, ?_, fun within => ?_⟩
    · rw [← encode_withLimits _ limits]
      exact written message (.refl ..)
    · rw [← encode_withLimits _ limits, ← normal]
      exact written _ trims
    · rw [← normal]
      exact decode_eq_ok_iff.2 ⟨within.messageSize, back _ 0 (Nat.lt_succ_of_le within.depth)
        ⟨within.length, within.word⟩⟩
  obtain ⟨bytes, encoded, normal, -⟩ := written {}
  refine ⟨bytes, encoded, normal, fun limits => ?_⟩
  obtain ⟨bytes', encoded', -, back⟩ := written limits
  obtain rfl := Except.ok.inj (encoded.symm.trans encoded')
  exact back

/-- A node with the number zero is read back without it. -/
theorem decode_encode_normal_tree :
    ((ofSchema .tree).withLimits {}).decode "Node" [18, 7, 10, 1, 97, 18, 2, 40, 1] =
      .ok (Schema.tree.normal ⟨"Node", [(1, .uint32 0),
        (2, .map [(.string "a", .message ⟨"Node", [(5, .bool true)], []⟩)])], []⟩) := by
  have read : ((ofSchema .tree).withLimits {}).decode "Node"
      [8, 0, 18, 7, 10, 1, 97, 18, 2, 40, 1] = .ok ⟨"Node", [(1, .uint32 0),
        (2, .map [(.string "a", .message ⟨"Node", [(5, .bool true)], []⟩)])], []⟩ := by
    with_unfolding_all rfl
  obtain ⟨-, conforms⟩ := conforms_of_decode Schema.accepted_tree {} read
  obtain ⟨bytes, encoded, -, back⟩ := decode_encode_normal Schema.accepted_tree conforms
  have same : (ofSchema .tree).encode ⟨"Node", [(1, .uint32 0),
      (2, .map [(.string "a", .message ⟨"Node", [(5, .bool true)], []⟩)])], []⟩ =
      .ok [18, 7, 10, 1, 97, 18, 2, 40, 1] := by
    decide +kernel
  obtain rfl := Except.ok.inj (encoded.symm.trans same)
  exact back {} ⟨by decide, by decide, by decide, by decide⟩

end CodecSet

end Protobuf
