import Protobuf.Proofs.Codec.Extension
import Protobuf.Proofs.Codec.RoundTrip

/-! # Fewer codecs

Of some codecs, those of a part that is coherent by itself do for the messages of its types: these
conform to the part, and the part merges, writes and reads them as all codecs do.

## Implementation notes

The part succeeds because it is coherent, and its outcome is that of all codecs because these are
more codecs. -/

namespace Protobuf

open Wire

namespace CodecSet

variable {part whole : CodecSet} {codec : MessageCodec} {name : String} {form : FieldForm}

/-! ## Conforming -/

/-- Messages of the types of a part that conform to all codecs conform to the part, as far as they
nest less than a bound. -/
def ConformsWithinBelow (part whole : CodecSet) (bound : Nat) : Prop :=
  ∀ message : Message, message.depth < bound → (part.get? message.typeName).isSome →
    Conforms whole message → Conforms part message

/-- A value that fits a form among all codecs fits it among those of a part, if that is so for
messages inside it. -/
theorem fits_of_below (within : part.Within whole) (coherent : part.Coherent) {bound : Nat}
    (below : ConformsWithinBelow part whole bound) (closed : form.Closed part) {value : Value}
    (shallow : value.levels ≤ bound) (fits : Fits whole form value) : Fits part form value := by
  have single {form : FieldForm} (closed : form.Closed part) (once : form.isRepeated = false)
      {value : Value} (shallow : value.levels ≤ bound) (fits : Fits whole form value) :
      Fits part form value := by
    cases fits with
    | single holds => exact .single holds
    | message named conforms =>
      cases closed with
      | message found =>
        rw [Value.levels_message] at shallow
        refine .message named (below _ shallow ?_ conforms)
        rw [named, found]
        rfl
    | _ => cases once
  cases fits with
  | single holds => exact .single holds
  | repeated hold => exact .repeated hold
  | packed hold => exact .packed hold
  | message named conforms => exact single closed rfl shallow (.message named conforms)
  | messages fit =>
    cases closed with
    | messages found =>
      refine .messages fun element held => single (.message found) rfl ?_ (fit element held)
      rw [Value.levels] at shallow
      exact Nat.le_trans (Value.levels_le_elementLevels held) shallow
  | map found' keys values distinct =>
    cases closed with
    | @map entry key value isKey once found =>
      obtain ⟨rfl, rfl⟩ := entryCodec_unique (within _ _ found) found'
      refine .map found keys (fun held there => single ?_ once ?_ (values held there)) distinct
      · exact (coherent _ _ found).closed ⟨"value", 2, value, none, false, none⟩
          (List.mem_cons_of_mem _ List.mem_cons_self)
      · rw [Value.levels] at shallow
        exact Nat.le_of_lt
          (Nat.lt_of_lt_of_le (Value.levels_lt_entryLevels there).2 shallow)

/-- Messages of the types of a part that conform to all codecs conform to the part. -/
theorem conformsWithinBelow (within : part.Within whole) (coherent : part.Coherent) (bound : Nat) :
    ConformsWithinBelow part whole bound := by
  rintro message -
  induction message using MessageOf.induct with
  | nest message below =>
    intro known conforms
    obtain ⟨codec, found⟩ := Option.isSome_iff_exists.1 known
    have conforms := (conforms_iff (within _ _ found)).1 conforms
    refine (conforms_iff found).2 ⟨conforms.ordered, ?_, conforms.exclusive, conforms.unknown⟩
    intro tag value held
    obtain ⟨plan, planned, fits⟩ := conforms.fits tag value held
    have closed := (coherent _ _ found).closed plan (MessageCodec.reader?_mem planned)
    exact ⟨plan, planned, fits_of_below within coherent below closed
      (MessageOf.levels_le_depth held) fits⟩

/-- A value that fits a form among all codecs fits it among those of a part. -/
theorem fits_of_within (within : part.Within whole) (coherent : part.Coherent)
    (closed : form.Closed part) {value : Value} (fits : Fits whole form value) :
    Fits part form value :=
  fits_of_below within coherent (conformsWithinBelow within coherent value.levels) closed
    (Nat.le_refl _) fits

/-! ## Merging and writing -/

/-- Values of a form that the types of a part make up are merged by the part. -/
theorem mergeValue_of_within (within : part.Within whole) (coherent : part.Coherent)
    (closed : form.Closed part) {held : Option Value} {value merged : Value}
    (fits : Fits whole form value) (fits' : ∀ old, held = some old → Fits whole form old)
    (done : mergeValue whole held value = .ok merged) :
    mergeValue part held value = .ok merged := by
  obtain ⟨merged', done', -⟩ := fits_mergeValue (mergeableBelow coherent _) closed
    (fits_of_within within coherent closed fits)
    (fun old here => fits_of_within within coherent closed (fits' old here)) (Nat.le_refl _)
  obtain rfl := Except.ok.inj (done.symm.trans (mergeValue_mono within done'))
  exact done'

/-- Values of a form that the types of a part make up are written by the part. -/
theorem writeValue_of_within (within : part.Within whole) (coherent : part.Coherent)
    {plan : FieldPlan} (closed : plan.form.Closed part) {value : Value}
    (fits : Fits whole plan.form value) {message : String} {bytes : List UInt8}
    (done : writeValue whole value message plan = .ok bytes) :
    writeValue part value message plan = .ok bytes := by
  obtain ⟨bytes', done', -, -⟩ := writeValue_builds (roundTrips_below coherent _) closed
    (fits_of_within within coherent closed fits) (Nat.le_refl _) message
  obtain rfl := Except.ok.inj (done.symm.trans (writeValue_mono within done'))
  exact done'

/-! ## Reading -/

/-- A value of a form that the types of a part make up stands for the same in the part, if its
payload is read as the same messages of these types. -/
theorem Reads.of_within {nested other : String → Slice → Except CodecError Message}
    (within : part.Within whole) (closed : form.Closed part) {raw : RawValue} {value : Value}
    (inside : ∀ slice type decoded, (part.get? type).isSome →
      nested type slice = .ok decoded → other type slice = .ok decoded)
    (reads : Reads whole nested form raw value) : Reads part other form raw value := by
  cases reads with
  | single read => exact .single read
  | repeated read => exact .repeated read
  | packed read => exact .packed read
  | message done =>
    cases closed with
    | message found => exact .message (inside _ _ _ (by rw [found]; rfl) done)
  | messages done =>
    cases closed with
    | messages found => exact .messages (inside _ _ _ (by rw [found]; rfl) done)
  | map found' done =>
    cases closed with
    | map isKey single found =>
      obtain ⟨rfl, rfl⟩ := entryCodec_unique (within _ _ found) found'
      exact .map found (inside _ _ _ (by rw [found]; rfl) done)

/-- A message of a type of a part is read by the part as by all codecs. -/
theorem decodeWithin_of_within (within : part.Within whole) (coherent : part.Coherent)
    (coherent' : whole.Coherent) (same : part.limits = whole.limits) {levels : Nat}
    {slice : Slice} (known : (part.get? name).isSome) {decoded : Message}
    (done : decodeWithin whole levels name slice = .ok decoded) :
    decodeWithin part levels name slice = .ok decoded := by
  induction levels generalizing name slice decoded with
  | zero => cases done
  | succ levels ih =>
    obtain ⟨start, bytes⟩ := slice
    obtain ⟨codec, found⟩ := Option.isSome_iff_exists.1 known
    obtain ⟨codec', records, found', row, folded⟩ := (decodeWithin_eq_ok_iff coherent').1 done
    obtain rfl := Option.some.inj ((within _ _ found).symm.trans found')
    have stands := (foldlM_isOk_iff coherent' found' (readsConforming_decodeWithin coherent' levels)
      row rfl (conformsTo_new whole codec name)).1 ⟨decoded, folded⟩
    rw [← same] at row
    have folds : ∃ decoded,
        records.foldlM (applyRecord part (decodeWithin part levels) codec) (.new name) =
          .ok decoded := by
      refine (foldlM_isOk_iff coherent found (readsConforming_decodeWithin coherent levels) row rfl
        (conformsTo_new part codec name)).2 fun record held => ?_
      obtain ⟨single, done⟩ := stands record held
      refine ⟨single, (recordMessage_eq_ok_iff (coherent _ _ found)).2 ?_⟩
      refine ((recordMessage_eq_ok_iff (coherent' _ _ found')).1 done).imp_left ?_
      rintro ⟨plan, value, planned, reads, rfl⟩
      have closed := (coherent _ _ found).closed plan (MessageCodec.reader?_mem planned)
      exact ⟨plan, value, planned,
        reads.of_within within closed fun slice type decoded known => ih known, rfl⟩
    obtain ⟨decoded', folded'⟩ := folds
    have done' : decodeWithin part (levels + 1) name ⟨start, bytes⟩ = .ok decoded' :=
      (decodeWithin_eq_ok_iff coherent).2 ⟨codec, records, found, row, folded'⟩
    have again := decodeWithin_mono within coherent (Nat.le_refl _)
      (by rw [same]; exact Nat.min_le_left ..) done'
    obtain rfl := Except.ok.inj (done.symm.trans again)
    exact done'

end CodecSet

end Protobuf
