import Protobuf.Proofs.Codec.Older

/-! # Passing through an older codec

A message that an older codec reads and writes again is read by the newer codec as it would have
been in the first place, up to zeros that are left out. Main statement: `Lacks.passes_through`.

## Implementation notes

What the older codec writes is what the newer one writes of the fields that are left, and then the
records that were kept. So the round trip of those fields and the reading of the kept records make
up the whole. -/

namespace Protobuf

open Wire

/-- A message without the records that its type does not know. -/
def MessageOf.known (message : Message) : Message :=
  { message with unknown := [] }

namespace CodecSet

/-- Fields that are not set need no plans. -/
theorem writeFields_filter {message : String} {draft? : Nat → Option Draft}
    (keeps : FieldPlan → Bool) {groups : List String} {plans : List FieldPlan}
    (missing : ∀ plan ∈ plans, keeps plan = false → draft? plan.tag = none) :
    writeFields message draft? groups (plans.filter keeps) =
      writeFields message draft? groups plans := by
  induction plans generalizing groups with
  | nil => rfl
  | cons plan rest ih =>
    obtain ⟨here, later⟩ := List.forall_mem_cons.1 missing
    have rest_eq {groups : List String} :
        writeFields message draft? groups (rest.filter keeps) =
          writeFields message draft? groups rest := ih later
    rw [List.filter_cons]
    split
    · simp only [writeFields, rest_eq]
    · rename_i dropped
      rw [rest_eq, writeFields, here (by simpa using dropped)]

/-- What a message is written as is read back in normal form, under limits that let it. -/
theorem plays_normal {set : CodecSet} {codec : MessageCodec} (coherent : set.Coherent)
    {message : Message} (conforms : Conforms set message)
    (found : set.get? message.typeName = some codec) {written : List UInt8}
    (encoded : set.encode message = .ok written) {limits : Limits}
    (shallow : message.depth ≤ limits.maxDepth) (short : Short limits.maxLength written) :
    Plays (set.withLimits limits) (decodeWithin (set.withLimits limits) limits.maxDepth) codec
      written (.new message.typeName) (message.normal set.omits) := by
  have coherent' := coherent.withLimits limits
  have narrower : (set.withLimits limits).Within set := fun _ _ found => found
  have known : ((set.withLimits limits).get? message.typeName).isSome := by
    rw [get?_withLimits, found]
    rfl
  have conforms' :=
    conformsWithinBelow narrower coherent' _ _ (Nat.lt_succ_self _) known conforms
  obtain ⟨bytes, writes, back⟩ := roundTrips coherent' conforms'
  have again := writes message (.refl ..)
  rw [encode_withLimits] at again
  obtain rfl := Except.ok.inj (again.symm.trans encoded)
  have read := back (limits.maxDepth + 1) 0 (Nat.lt_succ_of_le shallow) short
  obtain ⟨codec', records, found', row, folded⟩ := (decodeWithin_eq_ok_iff coherent').1 read
  obtain rfl := Option.some.inj (found.symm.trans found')
  exact ⟨records, row, folded⟩

namespace Lacks

variable {part old new : CodecSet} {name : String} {dropped : Nat → Bool}
  {older newer : MessageCodec} {message trailing : Message}

/-- What is known of a trailing message conforms to the newer codec. -/
theorem conforms_known (lacks : Lacks part old new name dropped older newer)
    (conforms : ConformsTo new newer message) (trails : Trails dropped message trailing)
    (ordered : trailing.Ordered) : ConformsTo new newer trailing.known where
  ordered := ordered
  fits tag value held := by
    have held : trailing.get? tag = some value := held
    cases lacking : dropped tag with
    | true =>
      rw [trails.lacking tag lacking] at held
      cases held
    | false =>
      rw [trails.kept tag lacking] at held
      exact conforms.fits tag value held
  exclusive tag other rivals there := by
    have there : (trailing.get? tag).isSome := there
    change trailing.get? other = none
    cases lacking : dropped tag with
    | true =>
      rw [trails.lacking tag lacking] at there
      cases there
    | false =>
      rw [trails.kept tag lacking] at there
      rw [trails.kept other ((lacks.whole tag other rivals).symm.trans lacking)]
      exact conforms.exclusive tag other rivals there
  unknown field held := absurd held List.not_mem_nil

/-- The older codec writes a trailing message as the newer one writes what is known of it, and then
the records that were kept. -/
theorem encode_trailing (lacks : Lacks part old new name dropped older newer)
    (named : trailing.typeName = name) (conforms : ConformsTo new newer message)
    (trails : Trails dropped message trailing) {bytes : List UInt8}
    (done : new.encode trailing.known = .ok bytes) :
    old.encode trailing = .ok (bytes ++ UnknownField.rawAll trailing.unknown) := by
  subst named
  have declaredNew : ∀ field ∈ trailing.known.fields, (newer.reader? field.1).isSome :=
    declared_of_encode lacks.foundNew done
  have declaredOld : ∀ field ∈ trailing.fields, (older.reader? field.1).isSome := by
    intro field held
    have kept : ¬dropped field.1 := fun lacking => by
      have there := Keyed.get?_isSome_of_mem held
      rw [show Keyed.get? field.1 trailing.fields = none from trails.lacking _ lacking] at there
      cases there
    rw [lacks.reader?_older, if_neg kept]
    exact declaredNew field held
  have foundNew : new.get? trailing.known.typeName = some newer := lacks.foundNew
  rw [encode_eq foundNew declaredNew, map_eq_ok_iff] at done
  obtain ⟨written, fields, same⟩ := done
  have same : written = bytes := (List.append_nil _).symm.trans same
  subst same
  have sameName : newer.message = older.message :=
    lacks.newer_coherent.named.trans lacks.older_coherent.named.symm
  have missing : ∀ plan ∈ newer.fields, (!dropped plan.tag) = false →
      (trailing.known.get? plan.tag).map (draft new) = none := by
    intro plan _ lacking
    rw [Option.map_eq_none_iff]
    exact trails.lacking plan.tag (by simpa using lacking)
  rw [sameName, ← writeFields_filter (fun plan => !dropped plan.tag) missing, ← lacks.fields]
    at fields
  rw [encode_eq lacks.foundOld declaredOld, map_eq_ok_iff]
  refine ⟨written, writeFields_mono_of (fun plan among value held bytes here => ?_) fields, rfl⟩
  -- What a field holds is made of types of the part, so both sets write it alike.
  obtain ⟨among', kept⟩ := List.mem_filter.1 (lacks.fields ▸ among)
  have held : trailing.get? plan.tag = some value := held
  rw [trails.kept plan.tag (by simpa using kept)] at held
  have planned := lacks.newer_coherent.reader?_eq_some_iff.2 ⟨among', rfl⟩
  have fits := conforms.fits_plan held planned
  exact writeValue_mono lacks.withinOld
    (writeValue_of_within lacks.withinNew lacks.coherentPart (lacks.closed plan among) fits here)

/-- A message that restores what was lacking next to what was known, and this in normal form, is
the message that was read, up to zeros that are left out. -/
theorem normal_restored {omits : String → Nat → Bool} {restored : Message}
    (ordered : message.Ordered) (trails : Trails dropped message trailing)
    (orderedTrailing : trailing.Ordered)
    (restores : Restores dropped (trailing.known.normal omits) message restored) :
    restored.normal omits = message.normal omits := by
  refine (MessageOf.normal_ordered restores.ordered).ext (MessageOf.normal_ordered ordered)
    restores.typeName restores.unknown fun tag => ?_
  rw [MessageOf.get?_normal restores.ordered, MessageOf.get?_normal ordered, restores.typeName]
  cases lacking : dropped tag with
  | true => rw [restores.lacking tag lacking]
  | false =>
    have orderedKnown : trailing.known.Ordered := orderedTrailing
    have known : trailing.known.get? tag = message.get? tag := trails.kept tag lacking
    have named : trailing.known.typeName = message.typeName := trails.typeName
    rw [restores.kept tag lacking, MessageOf.get?_normal orderedKnown, known, named]
    cases message.get? tag with
    | none => rfl
    | some value =>
      simp only [Option.bind_some]
      by_cases left_out : (omits message.typeName tag && value.isZero) = true
      · rw [if_pos left_out, Option.bind_none]
      · rw [if_neg left_out, Option.bind_some, Value.isZero_normal, if_neg left_out,
          Value.normal_normal]

/-- What is known of a trailing message nests no deeper than the message that was read. -/
theorem depth_known_le (trails : Trails dropped message trailing) (ordered : trailing.Ordered) :
    trailing.known.depth ≤ message.depth := by
  refine Value.fieldLevels_le fun field held => ?_
  have there : trailing.get? field.1 = some field.2 := ordered.get?_eq_some_iff.2 held
  cases lacking : dropped field.1 with
  | true =>
    rw [trails.lacking _ lacking] at there
    cases there
  | false =>
    rw [trails.kept _ lacking] at there
    exact MessageOf.levels_le_depth there

/-- The newer codec, with limits that let it, reads from the records that were kept what is
lacking. -/
theorem plays_kept (lacks : Lacks part old new name dropped older newer) {levels : Nat}
    {maxLength place : Nat} {bytes : List UInt8} {records : List Record}
    (row : Record.Row maxLength place bytes records)
    (folded : records.foldlM (applyRecord new (decodeWithin new levels) newer) (.new name) =
      .ok message)
    (folded' : records.foldlM (applyRecord old (decodeWithin old levels) older) (.new name) =
      .ok trailing)
    {limits : Limits} (deep : levels ≤ limits.maxDepth)
    (short : Short limits.maxLength (UnknownField.rawAll trailing.unknown)) {base : Message}
    (typeName : base.typeName = name) (unknown : base.unknown = []) (ordered : base.Ordered)
    (missing : ∀ tag, dropped tag → base.get? tag = none) :
    ∃ restored, Plays (new.withLimits limits) (decodeWithin (new.withLimits limits) limits.maxDepth)
        newer (UnknownField.rawAll trailing.unknown) base restored ∧
      Restores dropped base message restored := by
  have coherent := lacks.coherentNew.withLimits limits
  have good := coherent name newer lacks.foundNew
  have anywhere := readsAnywhere_decodeWithin coherent limits.maxDepth
  have collected := unknown_foldlM lacks.older_coherent folded'
  rw [MessageOf.unknown_new, List.nil_append] at collected
  have raw : UnknownField.rawAll trailing.unknown =
      (records.filter fun record => (older.reader? record.key.tag).isNone).flatMap (·.raw) := by
    rw [collected, UnknownField.rawAll, List.flatMap_map]
    rfl
  rw [raw] at short ⊢
  have shortEach : ∀ record ∈ records, older.reader? record.key.tag = none →
      record.raw.length ≤ limits.maxLength := by
    intro record held unplanned
    have among : record ∈ records.filter fun record => (older.reader? record.key.tag).isNone :=
      List.mem_filter.2 ⟨held, by rw [unplanned]; rfl⟩
    exact Nat.le_trans (List.sublist_flatten_of_mem (List.mem_map_of_mem among)).length_le short.le
  have spelled : ∀ record ∈ records.filter fun record => (older.reader? record.key.tag).isNone,
      ∃ maxLength place, record.Spells maxLength place record.raw := by
    intro record held
    obtain ⟨place, part, form⟩ := row.spells_of_mem (List.mem_filter.1 held).1
    exact ⟨maxLength, place, by rwa [form.raw]⟩
  obtain ⟨restored, kept, restores⟩ :=
    lacks.exists_restored deep row shortEach folded typeName unknown ordered missing
  exact ⟨restored, .of_records good anywhere spelled short.le kept, restores⟩

/-- The newer codec, with limits that admit what the older one wrote of a trailing message, reads
from it what was known in normal form and then what was kept. -/
theorem plays_written (lacks : Lacks part old new name dropped older newer) {levels : Nat}
    {maxLength place : Nat} {bytes : List UInt8} {records : List Record}
    (row : Record.Row maxLength place bytes records)
    (folded : records.foldlM (applyRecord new (decodeWithin new levels) newer) (.new name) =
      .ok message)
    (folded' : records.foldlM (applyRecord old (decodeWithin old levels) older) (.new name) =
      .ok trailing)
    (trails : Trails dropped message trailing) (conforms : Conforms new trailing.known)
    (named : trailing.typeName = name) {written : List UInt8}
    (encoded : new.encode trailing.known = .ok written) {limits : Limits}
    (deep : levels ≤ limits.maxDepth) (shallow : trailing.known.depth ≤ limits.maxDepth)
    (short : Short limits.maxLength (written ++ UnknownField.rawAll trailing.unknown)) :
    ∃ restored, Plays (new.withLimits limits) (decodeWithin (new.withLimits limits) limits.maxDepth)
        newer (written ++ UnknownField.rawAll trailing.unknown) (.new name) restored ∧
      Restores dropped (trailing.known.normal new.omits) message restored := by
  subst named
  have coherent := lacks.coherentNew.withLimits limits
  have good := coherent _ newer lacks.foundNew
  have anywhere := readsAnywhere_decodeWithin coherent limits.maxDepth
  have first := plays_normal lacks.coherentNew conforms lacks.foundNew encoded shallow
    (short.of_le (by simp))
  have missing : ∀ tag, dropped tag → (trailing.known.normal new.omits).get? tag = none := by
    intro tag lacking
    have absent : trailing.known.get? tag = none := trails.lacking tag lacking
    rw [MessageOf.get?_normal conforms.ordered, absent, Option.bind_none]
  have named : (trailing.known.normal new.omits).typeName = trailing.typeName := rfl
  obtain ⟨restored, after, restores⟩ := lacks.plays_kept row folded folded' deep
    (short.of_le (by simp)) named rfl (MessageOf.normal_ordered conforms.ordered) missing
  exact ⟨restored, first.append good anywhere after, restores⟩

/-- Bytes that the newer codec reads are read by the older one, what it reads is written, and that
is read by the newer codec, under limits that let it, as the first message up to zeros that are
left out. -/
theorem passes_through (lacks : Lacks part old new name dropped older newer) {bytes : List UInt8}
    (done : new.decode name bytes = .ok message) :
    ∃ trailing written, old.decode name bytes = .ok trailing ∧
      old.encode trailing = .ok written ∧
      ∀ limits : Limits, new.limits.maxDepth ≤ limits.maxDepth →
        limits.Admit written message.depth →
        ∃ again, (new.withLimits limits).decode name written = .ok again ∧
          again.normal new.omits = message.normal new.omits := by
  rw [decode_eq_ok_iff, decodeWithin_eq_ok_iff lacks.coherentNew] at done
  obtain ⟨size, codec, records, found, row, folded⟩ := done
  obtain rfl := Option.some.inj (lacks.foundNew.symm.trans found)
  obtain ⟨trailing, folded', trails⟩ := lacks.exists_trailing row folded
  obtain ⟨typed, conforms⟩ := conforms_foldlM lacks.coherentNew lacks.foundNew
    (readsConforming_decodeWithin lacks.coherentNew _) row rfl (conformsTo_new ..) folded
  obtain ⟨named, conformsOld⟩ := conforms_foldlM lacks.coherentOld lacks.foundOld
    (readsConforming_decodeWithin lacks.coherentOld _) row rfl (conformsTo_new ..) folded'
  have known := lacks.conforms_known conforms trails conformsOld.ordered
  have known : Conforms new trailing.known := (conforms_iff (named ▸ lacks.foundNew)).2 known
  obtain ⟨bytes', writes, -⟩ := roundTrips lacks.coherentNew known
  have encoded := writes trailing.known (.refl ..)
  refine ⟨trailing, _, ?_, lacks.encode_trailing named conforms trails encoded,
    fun limits deep admits => ?_⟩
  · rw [decode_eq_ok_iff, decodeWithin_eq_ok_iff lacks.coherentOld, lacks.limitsOld]
    exact ⟨size, older, records, lacks.foundOld, row, folded'⟩
  · obtain ⟨restored, ⟨others, row', folded''⟩, restores⟩ := lacks.plays_written row folded folded'
      trails known named encoded deep
      (Nat.le_trans (depth_known_le trails conformsOld.ordered) admits.depth)
      ⟨admits.length, admits.word⟩
    refine ⟨restored, ?_, normal_restored conforms.ordered trails conformsOld.ordered restores⟩
    rw [decode_eq_ok_iff, decodeWithin_eq_ok_iff (lacks.coherentNew.withLimits limits)]
    exact ⟨admits.messageSize, newer, others, lacks.foundNew, row', folded''⟩

end Lacks

end CodecSet

end Protobuf
