import Protobuf.Proofs.Codec.Restriction

/-! # Older codecs

A codec that lacks some fields of another one reads the same bytes: records of the fields that it
lacks are kept as unknown, and all others come to the same as before, for no record changes fields
of another group. The records that were kept, read again by the newer codec into a message with all
other fields, bring back what the fields lacked.

## Implementation notes

What the fields that are left hold is made of messages whose types have the same codec in the old
and the new set. These codecs are a part of both, and merging and reading go by way of the part. -/

namespace Protobuf

open Wire

namespace CodecSet

/-- An older codec of a type lacks some fields of a newer one, of each group all or none, and the
types that the other fields lead to have their codecs in a part of both sets. -/
structure Lacks (part old new : CodecSet) (name : String) (dropped : Nat → Bool)
    (older newer : MessageCodec) : Prop where
  coherentPart : part.Coherent
  coherentOld : old.Coherent
  coherentNew : new.Coherent
  limitsPart : part.limits = new.limits
  limitsOld : old.limits = new.limits
  withinOld : part.Within old
  withinNew : part.Within new
  foundOld : old.get? name = some older
  foundNew : new.get? name = some newer
  fields : older.fields = newer.fields.filter fun plan => !dropped plan.tag
  whole : ∀ tag other, newer.Rivals tag other → dropped tag = dropped other
  closed : ∀ plan ∈ older.fields, plan.form.Closed part

namespace Lacks

variable {part old new : CodecSet} {name : String} {dropped : Nat → Bool}
  {older newer : MessageCodec} {tag other : Nat}

theorem older_coherent (lacks : Lacks part old new name dropped older newer) :
    older.Coherent old name :=
  lacks.coherentOld name older lacks.foundOld

theorem newer_coherent (lacks : Lacks part old new name dropped older newer) :
    newer.Coherent new name :=
  lacks.coherentNew name newer lacks.foundNew

/-- The older codec reads by the same plans, except those of the fields it lacks. -/
theorem reader?_older (lacks : Lacks part old new name dropped older newer) (tag : Nat) :
    older.reader? tag = if dropped tag then none else newer.reader? tag := by
  refine Option.ext fun plan => ?_
  rw [lacks.older_coherent.reader?_eq_some_iff, lacks.fields, List.mem_filter]
  split
  · rename_i lacking
    constructor
    · rintro ⟨⟨-, kept⟩, rfl⟩
      simp [lacking] at kept
    · intro never
      cases never
  · rename_i kept
    rw [lacks.newer_coherent.reader?_eq_some_iff]
    constructor
    · rintro ⟨⟨among, -⟩, rfl⟩
      exact ⟨among, rfl⟩
    · rintro ⟨among, rfl⟩
      exact ⟨⟨among, by simp [kept]⟩, rfl⟩

/-- Fields are rivals in the older codec exactly if they are in the newer one and not lacking. -/
theorem rivals_older_iff (lacks : Lacks part old new name dropped older newer) :
    older.Rivals tag other ↔ dropped tag = false ∧ newer.Rivals tag other := by
  have group (tag : Nat) : older.group? tag = if dropped tag then none else newer.group? tag := by
    rw [MessageCodec.group?, lacks.reader?_older]
    split
    · rfl
    · rfl
  cases lacking : dropped tag with
  | true => simp [MessageCodec.Rivals, group, lacking]
  | false =>
    constructor
    · rintro ⟨apart, grouped, same⟩
      rw [group, lacking] at grouped same
      refine ⟨rfl, apart, grouped, same.trans ?_⟩
      rw [group]
      split
      · rename_i lacking'
        rw [group, if_pos lacking'] at same
        rw [same] at grouped
        cases grouped
      · rfl
    · rintro ⟨-, rivals⟩
      have lacking' := (lacks.whole tag other rivals).symm.trans lacking
      refine ⟨rivals.1, ?_, ?_⟩
      · rw [group, lacking]
        exact rivals.2.1
      · rw [group, group, lacking, lacking']
        exact rivals.2.2

/-- A record of a field changes no field that is lacking unless its own is, and the other way
round. -/
theorem get?_apart (lacks : Lacks part old new name dropped older newer) {plan : FieldPlan}
    (planned : newer.reader? tag = some plan) (message : Message) (value : Value)
    (apart : dropped other ≠ dropped tag) :
    ((newer.clearOthers plan message).set tag value).get? other = message.get? other := by
  have different : other ≠ tag := fun same => apart (congrArg dropped same)
  have peace : ¬newer.Rivals tag other := fun rivals => apart (lacks.whole _ _ rivals).symm
  rw [get?_set_clearOthers lacks.newer_coherent planned, if_neg different, if_neg peace]

/-! ## Reading with the older codec -/

/-- A message that the older codec reads, next to the one that the newer codec reads from the same
records: it has all fields of the latter but those that are lacking. -/
structure Trails (dropped : Nat → Bool) (message trailing : Message) : Prop where
  typeName : trailing.typeName = message.typeName
  lacking : ∀ tag, dropped tag → trailing.get? tag = none
  kept : ∀ tag, dropped tag = false → trailing.get? tag = message.get? tag

variable {nested nested' : String → Slice → Except CodecError Message} {record : Record}
  {before after state : Message}

/-- The older codec follows every record that the newer one applies. -/
theorem trails_step (lacks : Lacks part old new name dropped older newer)
    (conforming : ReadsConforming new nested)
    (inside : ∀ slice type decoded, (part.get? type).isSome →
      nested type slice = .ok decoded → nested' type slice = .ok decoded)
    (conforms : ConformsTo new newer before)
    (done : applyRecord new nested newer before record = .ok after)
    (trails : Trails dropped before state) :
    ∃ next, applyRecord old nested' older state record = .ok next ∧ Trails dropped after next := by
  have planned' := lacks.reader?_older record.key.tag
  cases planned : newer.reader? record.key.tag with
  | none =>
    rw [planned, ite_self] at planned'
    rw [applyRecord_eq_addUnknown planned, Except.ok.injEq] at done
    subst done
    exact ⟨_, applyRecord_eq_addUnknown planned' state, trails.typeName, trails.lacking,
      trails.kept⟩
  | some plan =>
    obtain ⟨value, merged, reads, together, rfl⟩ :=
      (applyRecord_eq_ok_iff lacks.newer_coherent planned).1 done
    cases lacking : dropped record.key.tag with
    | true =>
      rw [if_pos lacking] at planned'
      refine ⟨_, applyRecord_eq_addUnknown planned' state, ?_, trails.lacking, fun tag kept => ?_⟩
      · simpa using trails.typeName
      · rw [lacks.get?_apart planned _ _ (by simp [kept, lacking])]
        exact trails.kept tag kept
    | false =>
      rw [if_neg (by simp [lacking]), planned] at planned'
      have closed := lacks.closed plan (MessageCodec.reader?_mem planned')
      have fits := reads.fits lacks.coherentNew conforming (closed_mono lacks.withinNew closed)
      have together' := mergeValue_of_within lacks.withinNew lacks.coherentPart closed fits
        (fun old here => conforms.fits_plan here planned) together
      rw [← trails.kept _ lacking] at together'
      have reads' := (reads.of_within lacks.withinNew closed inside).mono lacks.withinOld
        fun _ _ _ _ read => read
      refine ⟨_, (applyRecord_eq_ok_iff lacks.older_coherent planned').2
        ⟨value, merged, reads', mergeValue_mono lacks.withinOld together', rfl⟩, ?_, ?_, ?_⟩
      · simpa using trails.typeName
      · intro tag gone
        have different : tag ≠ record.key.tag := fun same => by simp [← same, gone] at lacking
        rw [get?_set_clearOthers lacks.older_coherent planned', if_neg different,
          trails.lacking tag gone, ite_self]
      · intro tag kept
        simp only [get?_set_clearOthers lacks.older_coherent planned',
          get?_set_clearOthers lacks.newer_coherent planned, lacks.rivals_older_iff, lacking,
          true_and, trails.kept tag kept]

/-- The older codec reads what the newer one reads, and what it reads trails behind. -/
theorem exists_trailing (lacks : Lacks part old new name dropped older newer) {levels : Nat}
    {maxLength place : Nat} {bytes : List UInt8} {records : List Record}
    (row : Record.Row maxLength place bytes records) {message : Message}
    (done : records.foldlM (applyRecord new (decodeWithin new levels) newer) (.new name) =
      .ok message) :
    ∃ trailing, records.foldlM (applyRecord old (decodeWithin old levels) older) (.new name) =
      .ok trailing ∧ Trails dropped message trailing := by
  have conforming := readsConforming_decodeWithin lacks.coherentNew levels
  have inside (slice : Slice) (type : String) (decoded : Message)
      (known : (part.get? type).isSome) (read : decodeWithin new levels type slice = .ok decoded) :
      decodeWithin old levels type slice = .ok decoded := by
    have inPart := decodeWithin_of_within lacks.withinNew lacks.coherentPart lacks.coherentNew
      lacks.limitsPart known read
    refine decodeWithin_mono lacks.withinOld lacks.coherentPart (Nat.le_refl _) ?_ inPart
    rw [lacks.limitsPart, lacks.limitsOld]
    exact Nat.min_le_left ..
  exact foldlM_follows lacks.coherentNew lacks.foundNew conforming row
    (fun record _ before after state _ conforms step trails =>
      lacks.trails_step conforming inside conforms step trails)
    rfl (conformsTo_new new newer name) ⟨rfl, fun _ _ => rfl, fun _ _ => rfl⟩ done

/-! ## Reading again what was kept -/

/-- A message into which the records that were kept are read, next to the one that all records are
read into: its lacking fields are those of the latter, and its other fields those it began with. -/
structure Restores (dropped : Nat → Bool) (base message restored : Message) : Prop where
  typeName : restored.typeName = message.typeName
  unknown : restored.unknown = message.unknown
  ordered : restored.Ordered
  lacking : ∀ tag, dropped tag → restored.get? tag = message.get? tag
  kept : ∀ tag, dropped tag = false → restored.get? tag = base.get? tag

/-- The newer codec, with any limits, reads a record that was kept as before and needs no other. -/
theorem restores_step (lacks : Lacks part old new name dropped older newer) {limits : Limits}
    (inside : older.reader? record.key.tag = none → ∀ slice, record.value = .payload slice →
      ∀ type decoded, nested type slice = .ok decoded → nested' type slice = .ok decoded)
    {base : Message} (done : applyRecord new nested newer before record = .ok after)
    (restores : Restores dropped base before state) :
    ∃ next, (if (older.reader? record.key.tag).isNone
        then applyRecord (new.withLimits limits) nested' newer state record
        else pure state) = .ok next ∧ Restores dropped base after next := by
  have wider : new.Within (new.withLimits limits) := fun _ _ found => found
  have good := lacks.newer_coherent
  have planned' := lacks.reader?_older record.key.tag
  cases planned : newer.reader? record.key.tag with
  | none =>
    rw [planned, ite_self] at planned'
    rw [applyRecord_eq_addUnknown planned, Except.ok.injEq] at done
    subst done
    rw [planned', Option.isNone_none, if_pos rfl]
    exact ⟨_, applyRecord_eq_addUnknown planned state, restores.typeName,
      by simp [restores.unknown], restores.ordered.addUnknown _, restores.lacking, restores.kept⟩
  | some plan =>
    obtain ⟨value, merged, reads, together, rfl⟩ := (applyRecord_eq_ok_iff good planned).1 done
    cases lacking : dropped record.key.tag with
    | true =>
      rw [if_pos lacking] at planned'
      rw [← restores.lacking _ lacking] at together
      rw [planned', Option.isNone_none, if_pos rfl]
      refine ⟨_, (applyRecord_eq_ok_iff (coherent_mono wider good) planned).2
        ⟨value, merged, reads.mono wider (inside planned'), mergeValue_mono wider together, rfl⟩,
        ?_, ?_, ?_, ?_, ?_⟩
      · simpa using restores.typeName
      · simpa using restores.unknown
      · exact (MessageCodec.ordered_clearOthers _ _ restores.ordered).set _ _
      · intro tag gone
        simp only [get?_set_clearOthers good planned, restores.lacking tag gone]
      · intro tag kept
        rw [lacks.get?_apart planned _ _ (by simp [kept, lacking])]
        exact restores.kept tag kept
    | false =>
      rw [if_neg (by simp [lacking]), planned] at planned'
      rw [planned', Option.isNone_some, if_neg (by simp)]
      refine ⟨state, rfl, ?_, ?_, restores.ordered, fun tag gone => ?_, restores.kept⟩
      · simpa using restores.typeName
      · simpa using restores.unknown
      · rw [lacks.get?_apart planned _ _ (by simp [gone, lacking])]
        exact restores.lacking tag gone

/-- The newer codec, with any limits that let it read what was kept, restores what is lacking. -/
theorem exists_restored (lacks : Lacks part old new name dropped older newer)
    {levels more : Nat} (le : levels ≤ more) {limits : Limits} {maxLength place : Nat}
    {bytes : List UInt8} {records : List Record} (row : Record.Row maxLength place bytes records)
    (short : ∀ record ∈ records, older.reader? record.key.tag = none →
      record.raw.length ≤ limits.maxLength)
    {message : Message}
    (done : records.foldlM (applyRecord new (decodeWithin new levels) newer) (.new name) =
      .ok message)
    {base : Message} (typeName : base.typeName = name) (unknown : base.unknown = [])
    (ordered : base.Ordered) (missing : ∀ tag, dropped tag → base.get? tag = none) :
    ∃ restored, (records.filter fun record => (older.reader? record.key.tag).isNone).foldlM
        (applyRecord (new.withLimits limits) (decodeWithin (new.withLimits limits) more) newer)
        base = .ok restored ∧ Restores dropped base message restored := by
  have conforming := readsConforming_decodeWithin lacks.coherentNew levels
  rw [List.foldlM_filter]
  refine foldlM_follows lacks.coherentNew lacks.foundNew conforming row
    (fun record held before after state _ conforms step restores =>
      lacks.restores_step (fun unplanned slice payload type decoded read => ?_) step restores)
    rfl (conformsTo_new new newer name)
    ⟨typeName, unknown, ordered, missing, fun _ _ => rfl⟩ done
  obtain ⟨start, inner⟩ := slice
  obtain ⟨start', part, form⟩ := row.spells_of_mem held
  have wider : new.Within (new.withLimits limits) := fun _ _ found => found
  refine decodeWithin_mono wider lacks.coherentNew le ?_ read
  have inside := form.payload_le payload
  have outside := short record held unplanned
  rw [form.raw] at outside
  simp only [limits_withLimits] at inside ⊢
  omega

end Lacks

end CodecSet

end Protobuf
