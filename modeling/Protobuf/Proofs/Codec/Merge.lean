import Protobuf.Codec.Merge
import Protobuf.Proofs.Codec.Conforms
import Protobuf.Proofs.Success
import Protobuf.Proofs.Value.Entries

/-! # Merging conforming messages

What a merged message answers to each lookup, and that merging conforming messages of one type
succeeds and gives a conforming one. Main statement: `merge_absorbs`.

## Implementation notes

Recursion of merging goes through the fields of the source. `Absorbs` says what this comes to
without naming an order of the fields, and a message is determined by it. The inductions are on how
deep the source nests. -/

namespace Protobuf

open Wire

namespace MessageCodec

/-- The message without the rivals of a field. -/
def clearFor (codec : MessageCodec) (tag : Nat) (message : Message) : Message :=
  match codec.reader? tag with
  | some plan => codec.clearOthers plan message
  | none => message

variable {codec : MessageCodec} {tag : Nat} {message : Message}

@[simp] theorem typeName_clearFor : (codec.clearFor tag message).typeName = message.typeName := by
  unfold clearFor
  split
  · exact typeName_clearOthers ..
  · rfl

@[simp] theorem unknown_clearFor : (codec.clearFor tag message).unknown = message.unknown := by
  unfold clearFor
  split
  · exact unknown_clearOthers ..
  · rfl

theorem ordered_clearFor (ordered : message.Ordered) : (codec.clearFor tag message).Ordered := by
  unfold clearFor
  split
  · exact ordered_clearOthers codec _ ordered
  · exact ordered

theorem Coherent.get?_clearFor {set : CodecSet} {name : String} (coherent : codec.Coherent set name)
    (tag other : Nat) (message : Message) :
    (codec.clearFor tag message).get? other =
      if codec.Rivals tag other then none else message.get? other := by
  unfold clearFor
  split
  · rename_i plan found
    exact coherent.get?_clearOthers found message other
  · rename_i missing
    have alone : ¬codec.Rivals tag other := fun rivals => by
      have grouped := rivals.2.1
      simp [group?, missing] at grouped
    rw [if_neg alone]

/-- Some fields hold a rival of a field. -/
def Ousts (codec : MessageCodec) (fields : List (Nat × Value)) (tag : Nat) : Prop :=
  ∃ rival, codec.Rivals rival tag ∧ (Keyed.get? rival fields).isSome

theorem not_ousts_nil : ¬codec.Ousts [] tag := by
  rintro ⟨rival, -, held⟩
  simp at held

theorem ousts_cons {value : Value} {rest : List (Nat × Value)} {other : Nat} :
    codec.Ousts ((tag, value) :: rest) other ↔ codec.Rivals tag other ∨ codec.Ousts rest other := by
  constructor
  · rintro ⟨rival, rivals, held⟩
    rw [Keyed.get?] at held
    split at held
    · rename_i same
      exact .inl (same ▸ rivals)
    · exact .inr ⟨rival, rivals, held⟩
  · rintro (rivals | ⟨rival, rivals, held⟩)
    · exact ⟨tag, rivals, by simp [Keyed.get?]⟩
    · refine ⟨rival, rivals, ?_⟩
      rw [Keyed.get?]
      split
      · rfl
      · exact held

/-- Fields of which no two are rivals. -/
def Exclusive (codec : MessageCodec) (fields : List (Nat × Value)) : Prop :=
  ∀ tag other, codec.Rivals tag other → (Keyed.get? tag fields).isSome →
    Keyed.get? other fields = none

theorem Exclusive.tail {value : Value} {rest : List (Nat × Value)}
    (exclusive : codec.Exclusive ((tag, value) :: rest)) (fresh : Keyed.get? tag rest = none) :
    codec.Exclusive rest := by
  intro one other rivals held
  have missing := exclusive one other rivals (by rwa [Keyed.get?_cons_of_isSome fresh held])
  by_contra there
  rw [Keyed.get?_cons_of_isSome fresh (Option.isSome_iff_ne_none.2 there)] at missing
  exact there missing

end MessageCodec

namespace CodecSet

variable {set : CodecSet} {codec : MessageCodec} {name : String}

theorem mergeFields_cons (set : CodecSet) (codec : MessageCodec) (target : Message) (tag : Nat)
    (value : Value) (rest : List (Nat × Value)) :
    mergeFields set codec target ((tag, value) :: rest) =
      mergeValue set ((codec.clearFor tag target).get? tag) value >>= fun merged =>
        mergeFields set codec ((codec.clearFor tag target).set tag merged) rest := by
  rw [mergeFields]
  rfl

theorem mergeValue_atom {value : Value} (atom : value.IsAtom) (held : Option Value) :
    mergeValue set held value = .ok value := by
  cases value <;> first | rfl | exact atom.elim

theorem mergeValue_none (value : Value) : mergeValue set none value = .ok value := by
  cases value with
  | message message =>
    obtain ⟨typeName, fields, unknown⟩ := message
    rfl
  | _ => rfl

theorem mergeValue_message (target source : Message) :
    mergeValue set (some (.message target)) (.message source) =
      Value.message <$> merge set target source := by
  obtain ⟨typeName, fields, unknown⟩ := source
  simp only [mergeValue, merge]
  cases set.codec target.typeName with
  | error error => rfl
  | ok codec =>
    simp only [ok_bind]
    cases mergeFields set codec target fields <;> rfl

theorem mergeValue_map (entries more : List (Value × Value)) :
    mergeValue set (some (.map entries)) (.map more) =
      .ok (.map (Value.setEntries entries more)) := rfl

/-- A message is another one with some fields and unknown records merged into it. -/
structure Absorbs (set : CodecSet) (codec : MessageCodec) (target : Message)
    (fields : List (Nat × Value)) (unknown : List UnknownField) (result : Message) : Prop where
  typeName : result.typeName = target.typeName
  unknown : result.unknown = target.unknown ++ unknown
  ordered : result.Ordered
  merged : ∀ tag value, Keyed.get? tag fields = some value →
    ∃ merged, mergeValue set (target.get? tag) value = .ok merged ∧ result.get? tag = some merged
  displaced : ∀ tag, Keyed.get? tag fields = none → codec.Ousts fields tag →
    result.get? tag = none
  kept : ∀ tag, Keyed.get? tag fields = none → ¬codec.Ousts fields tag →
    result.get? tag = target.get? tag

/-- Merging one field and absorbing others, none of them its rival, is absorbing them all. -/
theorem Absorbs.cons (coherent : codec.Coherent set name) {tag : Nat} {value merged : Value}
    {rest : List (Nat × Value)} {unknown : List UnknownField} (fresh : Keyed.get? tag rest = none)
    (alone : ∀ other, codec.Rivals tag other → Keyed.get? other rest = none)
    {target result : Message} (done : mergeValue set (target.get? tag) value = .ok merged)
    (absorbs : Absorbs set codec ((codec.clearFor tag target).set tag merged) rest unknown result) :
    Absorbs set codec target ((tag, value) :: rest) unknown result := by
  have left : ∀ other, ((codec.clearFor tag target).set tag merged).get? other =
      if other = tag then some merged
      else if codec.Rivals tag other then none else target.get? other := by
    intro other
    rw [MessageOf.get?_set, coherent.get?_clearFor]
  refine ⟨?_, ?_, absorbs.ordered, ?_, ?_, ?_⟩
  · rw [absorbs.typeName, MessageOf.typeName_set, MessageCodec.typeName_clearFor]
  · rw [absorbs.unknown, MessageOf.unknown_set, MessageCodec.unknown_clearFor]
  · intro other found held
    rw [Keyed.get?] at held
    split at held
    · rename_i same
      cases held
      subst same
      have quiet : ¬codec.Ousts rest other := by
        rintro ⟨rival, rivals, held⟩
        simp [alone rival rivals.symm] at held
      exact ⟨merged, done, by rw [absorbs.kept other fresh quiet, left, if_pos rfl]⟩
    · rename_i apart
      have peace : ¬codec.Rivals tag other := fun rivals => by simp [alone other rivals] at held
      have again := absorbs.merged other found held
      rwa [left, if_neg apart, if_neg peace] at again
  · intro other missing ousts
    rw [Keyed.get?] at missing
    split at missing
    · cases missing
    · rename_i apart
      by_cases later : codec.Ousts rest other
      · exact absorbs.displaced other missing later
      · have rivals := (MessageCodec.ousts_cons.1 ousts).resolve_right later
        rw [absorbs.kept other missing later, left, if_neg apart, if_pos rivals]
  · intro other missing quiet
    rw [Keyed.get?] at missing
    rw [MessageCodec.ousts_cons, not_or] at quiet
    split at missing
    · cases missing
    · rename_i apart
      rw [absorbs.kept other missing quiet.2, left, if_neg apart, if_neg quiet.1]

/-- Merging fields that are no rivals of each other absorbs them, if each of their values can be
merged into what the target holds. -/
theorem mergeFields_absorbs (coherent : codec.Coherent set name) {fields : List (Nat × Value)}
    (ordered : Keyed.Ordered fields) (exclusive : codec.Exclusive fields)
    {target : Message} (orderedTarget : target.Ordered)
    (merge : ∀ tag value, Keyed.get? tag fields = some value →
      ∃ merged, mergeValue set (target.get? tag) value = .ok merged) :
    ∃ result, mergeFields set codec target fields = .ok result ∧
      Absorbs set codec target fields [] result := by
  induction fields generalizing target with
  | nil =>
    refine ⟨target, rfl, rfl, (List.append_nil _).symm, orderedTarget, ?_, ?_, ?_⟩
    · exact fun tag value held => absurd held (by simp)
    · exact fun tag _ ousts => absurd ousts MessageCodec.not_ousts_nil
    · exact fun tag _ _ => rfl
  | cons head rest ih =>
    obtain ⟨tag, value⟩ := head
    obtain ⟨before, orderedRest⟩ := List.pairwise_cons.1 ordered
    have fresh : Keyed.get? tag rest = none := Keyed.get?_eq_none_of_lt before
    have first : Keyed.get? tag ((tag, value) :: rest) = some value := by simp [Keyed.get?]
    have alone : ∀ other, codec.Rivals tag other → Keyed.get? other rest = none := by
      intro other rivals
      have missing := exclusive tag other rivals (by simp [first])
      rwa [Keyed.get?, if_neg rivals.1.symm] at missing
    obtain ⟨merged, done⟩ := merge tag value first
    -- Clearing the rivals of this field and setting it leaves the fields that follow as they were.
    have later : ∀ other found, Keyed.get? other rest = some found →
        ((codec.clearFor tag target).set tag merged).get? other = target.get? other := by
      intro other found held
      have apart : other ≠ tag := by
        rintro rfl
        simp [fresh] at held
      have peace : ¬codec.Rivals tag other := fun rivals => by simp [alone other rivals] at held
      rw [MessageOf.get?_set, if_neg apart, coherent.get?_clearFor, if_neg peace]
    have mergeRest : ∀ other found, Keyed.get? other rest = some found → ∃ merged',
        mergeValue set (((codec.clearFor tag target).set tag merged).get? other) found =
          .ok merged' := by
      intro other found held
      rw [later other found held]
      apply merge other found
      rw [Keyed.get?_cons_of_isSome fresh (by simp [held]), held]
    obtain ⟨result, doneRest, absorbs⟩ := ih orderedRest (exclusive.tail fresh)
      (MessageOf.Ordered.set (MessageCodec.ordered_clearFor orderedTarget) tag merged) mergeRest
    refine ⟨result, ?_, .cons coherent fresh alone done absorbs⟩
    have self : (codec.clearFor tag target).get? tag = target.get? tag := by
      rw [coherent.get?_clearFor, if_neg fun rivals => rivals.1 rfl]
    rw [mergeFields_cons, self, done]
    exact doneRest

/-! ## Values of a field -/

/-- Merging two messages of one type works out and gives a message of the type. -/
def Mergeable (set : CodecSet) (target source : Message) : Prop :=
  ∃ merged, merge set target source = .ok merged ∧ merged.typeName = target.typeName ∧
    Conforms set merged

/-- Conforming messages of one type can be merged as far as the source nests less than a bound. -/
def MergeableBelow (set : CodecSet) (bound : Nat) : Prop :=
  ∀ target source : Message, source.depth < bound → Conforms set target → Conforms set source →
    source.typeName = target.typeName → Mergeable set target source

theorem sameIsEq_holds {scalar : Scalar} (isKey : scalar.isKey) :
    Value.SameIsEq scalar.Holds :=
  fun _ _ holds holds' => holds.same_iff isKey holds'

/-- A value merged into a value of the same form has this form too, if messages inside can be
merged. -/
theorem fits_mergeValue {bound : Nat} (below : MergeableBelow set bound) {form : FieldForm}
    (closed : form.Closed set) {held : Option Value} {value : Value} (fits : Fits set form value)
    (fits' : ∀ old, held = some old → Fits set form old) (shallow : value.levels ≤ bound) :
    ∃ merged, mergeValue set held value = .ok merged ∧ Fits set form merged := by
  cases held with
  | none => exact ⟨value, mergeValue_none value, fits⟩
  | some old =>
    have fitsOld := fits' old rfl
    cases fits with
    | single holds => exact ⟨value, mergeValue_atom holds.isAtom _, .single holds⟩
    | repeated hold =>
      cases fitsOld with
      | repeated hold' => exact ⟨_, rfl, .repeated (List.forall_mem_append.2 ⟨hold', hold⟩)⟩
    | packed hold =>
      cases fitsOld with
      | packed hold' => exact ⟨_, rfl, .packed (List.forall_mem_append.2 ⟨hold', hold⟩)⟩
    | messages fit =>
      cases fitsOld with
      | messages fit' => exact ⟨_, rfl, .messages (List.forall_mem_append.2 ⟨fit', fit⟩)⟩
    | @message type source named conforms =>
      cases fitsOld with
      | @message _ target named' conforms' =>
        rw [Value.levels_message] at shallow
        obtain ⟨merged, done, sameName, good⟩ :=
          below target source shallow conforms' conforms (named.trans named'.symm)
        refine ⟨.message merged, ?_, .message (sameName.trans named') good⟩
        rw [mergeValue_message, done, map_ok]
    | @map entry key form more found keys values distinct =>
      cases fitsOld with
      | @map _ key' form' entries found' keys' values' distinct' =>
        cases closed with
        | map isKey single found'' =>
          obtain ⟨rfl, rfl⟩ := entryCodec_unique found found'
          obtain ⟨rfl, rfl⟩ := entryCodec_unique found found''
          have identity := sameIsEq_holds isKey
          refine ⟨_, mergeValue_map entries more, .map found ?_ ?_ ?_⟩
          · exact Value.areKeys_setEntries identity keys' keys
          · intro entry there
            rcases Value.mem_setEntries identity keys' keys there with before | after
            · exact values' entry before
            · exact values entry after
          · exact Value.nodup_setEntries identity keys' keys distinct'

/-! ## Messages -/

theorem Absorbs.addUnknown {target result : Message} {fields : List (Nat × Value)}
    (absorbs : Absorbs set codec target fields [] result) (unknown : List UnknownField) :
    Absorbs set codec target fields unknown (result.addUnknown unknown) :=
  ⟨absorbs.typeName, by rw [MessageOf.unknown_addUnknown, absorbs.unknown, List.append_nil],
    absorbs.ordered, absorbs.merged, absorbs.displaced, absorbs.kept⟩

/-- Fields of a conforming message that are absorbed by another one leave it conforming. -/
theorem Absorbs.conformsTo {target source result : Message}
    (absorbs : Absorbs set codec target source.fields source.unknown result)
    (conforms : ConformsTo set codec target) (conforms' : ConformsTo set codec source)
    (fits : ∀ tag value merged plan, source.get? tag = some value → codec.reader? tag = some plan →
      mergeValue set (target.get? tag) value = .ok merged → Fits set plan.form merged) :
    ConformsTo set codec result where
  ordered := absorbs.ordered
  fits := by
    intro tag value held
    cases there : source.get? tag with
    | some added =>
      obtain ⟨plan, planned, -⟩ := conforms'.fits tag added there
      obtain ⟨merged, done, same⟩ := absorbs.merged tag added there
      obtain rfl := Option.some.inj (held.symm.trans same)
      exact ⟨plan, planned, fits tag added _ plan there planned done⟩
    | none =>
      by_cases ousts : codec.Ousts source.fields tag
      · rw [absorbs.displaced tag there ousts] at held
        cases held
      · exact conforms.fits tag value ((absorbs.kept tag there ousts).symm.trans held)
  exclusive := by
    intro tag other rivals held
    by_cases there : (source.get? tag).isSome
    · have missing := conforms'.exclusive tag other rivals there
      exact absorbs.displaced other missing ⟨tag, rivals, there⟩
    · have missing := Option.not_isSome_iff_eq_none.1 there
      have quiet : ¬codec.Ousts source.fields tag := fun ousts => by
        rw [absorbs.displaced tag missing ousts] at held
        cases held
      have before : (target.get? tag).isSome := absorbs.kept tag missing quiet ▸ held
      have missing' : source.get? other = none :=
        Option.not_isSome_iff_eq_none.1 fun there' => quiet ⟨other, rivals.symm, there'⟩
      have quiet' : ¬codec.Ousts source.fields other := by
        rintro ⟨rival, rivals', there'⟩
        rcases rivals.symm.eq_or rivals'.symm with rfl | between
        · exact there there'
        · exact quiet ⟨rival, between.symm, there'⟩
      rw [absorbs.kept other missing' quiet']
      exact conforms.exclusive tag other rivals before
  unknown := absorbs.unknown ▸ List.forall_mem_append.2 ⟨conforms.unknown, conforms'.unknown⟩

/-- Merging is absorbing if messages that nest less than the source can be merged. -/
theorem merge_absorbs_of_below (coherent : set.Coherent) {target source : Message}
    (below : MergeableBelow set source.depth) (found : set.get? target.typeName = some codec)
    (conforms : ConformsTo set codec target) (conforms' : ConformsTo set codec source) :
    ∃ result, merge set target source = .ok result ∧
      Absorbs set codec target source.fields source.unknown result ∧
      ConformsTo set codec result := by
  have good := coherent target.typeName codec found
  have values : ∀ tag value plan, source.get? tag = some value → codec.reader? tag = some plan →
      ∃ merged, mergeValue set (target.get? tag) value = .ok merged ∧
        Fits set plan.form merged := by
    intro tag value plan held planned
    have closed := good.closed plan (MessageCodec.reader?_mem planned)
    exact fits_mergeValue below closed (conforms'.fits_plan held planned)
      (fun old held => conforms.fits_plan held planned) (MessageOf.levels_le_depth held)
  have merge : ∀ tag value, source.get? tag = some value →
      ∃ merged, mergeValue set (target.get? tag) value = .ok merged := by
    intro tag value held
    obtain ⟨plan, planned, -⟩ := conforms'.fits tag value held
    obtain ⟨merged, done, -⟩ := values tag value plan held planned
    exact ⟨merged, done⟩
  obtain ⟨result, done, absorbs⟩ :=
    mergeFields_absorbs good conforms'.ordered conforms'.exclusive conforms.ordered merge
  have absorbs := absorbs.addUnknown source.unknown
  refine ⟨result.addUnknown source.unknown, ?_, absorbs, ?_⟩
  · rw [CodecSet.merge, codec_eq_ok found, ok_bind, done, ok_bind, pure_eq_ok]
  · apply absorbs.conformsTo conforms conforms'
    intro tag value merged plan held planned done
    obtain ⟨merged', done', fits⟩ := values tag value plan held planned
    rwa [Except.ok.inj (done.symm.trans done')]

/-- All conforming messages of one type can be merged, however deep they nest. -/
theorem mergeableBelow (coherent : set.Coherent) (bound : Nat) : MergeableBelow set bound := by
  rintro target source -
  induction source using MessageOf.induct generalizing target with
  | nest source ih =>
    intro conforms conforms' same
    have below : MergeableBelow set source.depth :=
      fun target inner shallow => ih inner shallow target
    obtain ⟨codec, found, conforms⟩ := conforms.exists_codec
    have conforms' := (conforms_iff (same ▸ found)).1 conforms'
    obtain ⟨result, done, absorbs, conformsResult⟩ :=
      merge_absorbs_of_below coherent below found conforms conforms'
    have conformsResult := (conforms_iff (absorbs.typeName ▸ found)).2 conformsResult
    exact ⟨result, done, absorbs.typeName, conformsResult⟩

/-- Merging conforming messages of one type is absorbing the fields of the second, and the outcome
conforms. -/
theorem merge_absorbs (coherent : set.Coherent) {target source : Message}
    (found : set.get? target.typeName = some codec) (conforms : ConformsTo set codec target)
    (conforms' : ConformsTo set codec source) :
    ∃ result, merge set target source = .ok result ∧
      Absorbs set codec target source.fields source.unknown result ∧
      ConformsTo set codec result :=
  merge_absorbs_of_below coherent (mergeableBelow coherent _) found conforms conforms'

/-- Conforming messages of one type can be merged, and the outcome is of the type and conforms. -/
theorem mergeable (coherent : set.Coherent) {target source : Message}
    (conforms : Conforms set target) (conforms' : Conforms set source)
    (same : source.typeName = target.typeName) : Mergeable set target source :=
  mergeableBelow coherent (source.depth + 1) target source (Nat.lt_succ_self _) conforms conforms'
    same

end CodecSet

end Protobuf
