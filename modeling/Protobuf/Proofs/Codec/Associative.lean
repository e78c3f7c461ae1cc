import Protobuf.Proofs.Codec.Merge

/-! # Merging groups either way

Merging is associative on conforming messages of one type, unless the second one displaces an
embedded message that the first one holds in a field which the last one holds again: then this is
gone before the last merge, or takes part in it, as the grouping goes. A message with nothing set is
neutral. Main statement: `merge_assoc_of_not_displaces`.

## Implementation notes

The proof compares the answers to lookups. What a field holds in the end depends only on what the
three messages hold there and on which of them hold a rival. The induction is on how deep the last
message nests. -/

namespace Protobuf

open Wire

/-- Of three messages, the second one holds a rival of a field in which the two others hold embedded
messages; or this is so of three messages that they hold, each in one and the same field. -/
inductive Message.Displaces (rivals : String → Nat → Nat → Prop) :
    Message → Message → Message → Prop
  | here {first second third before after : Message} {tag rival : Nat}
    (apart : rivals first.typeName rival tag) (held : first.get? tag = some (.message before))
    (between : (second.get? rival).isSome) (again : third.get? tag = some (.message after)) :
    Displaces rivals first second third
  | inside {first second third before middle after : Message} {tag : Nat}
    (held : first.get? tag = some (.message before))
    (between : second.get? tag = some (.message middle))
    (again : third.get? tag = some (.message after))
    (displaces : Displaces rivals before middle after) : Displaces rivals first second third

/-- More rivals displace more. -/
theorem Message.Displaces.mono {rivals others : String → Nat → Nat → Prop}
    (le : ∀ name rival tag, rivals name rival tag → others name rival tag)
    {first second third : Message} (displaces : Displaces rivals first second third) :
    Displaces others first second third := by
  induction displaces with
  | here apart held between again => exact .here (le _ _ _ apart) held between again
  | inside held between again _ ih => exact .inside held between again ih

/-- No member of a group is an embedded message. -/
def CodecSet.PlainGroups (set : CodecSet) : Prop :=
  ∀ name codec, set.get? name = some codec → ∀ plan ∈ codec.fields, plan.oneof.isSome →
    ∀ type, plan.form ≠ .message type

namespace CodecSet

variable {set : CodecSet} {codec : MessageCodec} {name : String}

/-- Two fields of a type are rivals. -/
def Rivals (set : CodecSet) (name : String) (tag other : Nat) : Prop :=
  ∃ codec, set.get? name = some codec ∧ codec.Rivals tag other

/-- A member of a group holds a scalar or an embedded message, as it is planned. -/
theorem isAtom_or_message (coherent : codec.Coherent set name) {message : Message}
    (conforms : ConformsTo set codec message) {tag rival : Nat} (rivals : codec.Rivals rival tag)
    {value : Value} (held : message.get? tag = some value) :
    value.IsAtom ∨ ∃ plan type embedded, codec.reader? tag = some plan ∧ plan.oneof.isSome ∧
      plan.form = .message type ∧ value = .message embedded := by
  obtain ⟨plan, planned, fits⟩ := conforms.fits tag value held
  have grouped : plan.oneof.isSome := by
    have isSome := rivals.symm.2.1
    rwa [MessageCodec.group?, planned, Option.bind_some] at isSome
  have single := coherent.member plan (MessageCodec.reader?_mem planned) grouped
  cases form : plan.form with
  | single scalar =>
    rw [form] at fits
    cases fits with
    | single holds => exact .inl holds.isAtom
  | message type =>
    rw [form] at fits
    cases fits with
    | message => exact .inr ⟨plan, type, _, planned, grouped, form, rfl⟩
  | _ => simp [form, FieldForm.isRepeated] at single

/-- Where no member of a group is an embedded message, none is displaced. -/
theorem PlainGroups.not_displaces (coherent : set.Coherent) (plain : set.PlainGroups)
    {a b c : Message} (conforms : Conforms set a) :
    ¬Message.Displaces set.Rivals a b c := by
  intro displaces
  induction displaces with
  | here apart held =>
    obtain ⟨codec, found, rivals⟩ := apart
    have conforms := (conforms_iff found).1 conforms
    rcases isAtom_or_message (coherent _ codec found) conforms rivals held with
      atom | ⟨plan, type, -, planned, grouped, form, -⟩
    · exact atom
    · exact plain _ codec found plan (MessageCodec.reader?_mem planned) grouped type form
  | inside held _ _ _ ih =>
    obtain ⟨codec, found, conforms⟩ := conforms.exists_codec
    obtain ⟨plan, -, fits⟩ := conforms.fits _ _ held
    generalize plan.form = form at fits
    cases fits with
    | single holds => exact holds.isAtom
    | message _ conforms => exact ih conforms

/-- Conforming messages of one type can be merged in either grouping as far as the last one nests
less than a bound, if none is displaced in between. -/
def AssociativeBelow (set : CodecSet) (bound : Nat) : Prop :=
  ∀ a b c ab bc : Message, c.depth < bound → Conforms set a → Conforms set b → Conforms set c →
    b.typeName = a.typeName → c.typeName = a.typeName → ¬Message.Displaces set.Rivals a b c →
    merge set a b = .ok ab → merge set b c = .ok bc → merge set ab c = merge set a bc

/-- Values of one form can be merged in either grouping, if messages inside can be. -/
theorem mergeValue_assoc {bound : Nat} (below : AssociativeBelow set bound) {form : FieldForm}
    (closed : form.Closed set) {first second third : Value} (fits : Fits set form first)
    (fits' : Fits set form second) (fits'' : Fits set form third) (shallow : third.levels ≤ bound)
    (stays : ∀ a b c, first = .message a → second = .message b → third = .message c →
      ¬Message.Displaces set.Rivals a b c)
    {front back : Value} (done : mergeValue set (some first) second = .ok front)
    (done' : mergeValue set (some second) third = .ok back) :
    mergeValue set (some front) third = mergeValue set (some first) back := by
  cases fits'' with
  | single holds =>
    rw [mergeValue_atom holds.isAtom] at done' ⊢
    cases done'
    rw [mergeValue_atom holds.isAtom]
  | repeated | packed | messages =>
    cases fits
    cases fits'
    cases done
    cases done'
    simp [mergeValue]
  | @message type c named conforms =>
    cases fits with
    | @message _ a named' conforms' =>
      cases fits' with
      | @message _ b named'' conforms'' =>
        rw [mergeValue_message, map_eq_ok_iff] at done done'
        obtain ⟨ab, done, rfl⟩ := done
        obtain ⟨bc, done', rfl⟩ := done'
        rw [Value.levels_message] at shallow
        rw [mergeValue_message, mergeValue_message, below a b c ab bc shallow conforms' conforms''
          conforms (named''.trans named'.symm) (named.trans named'.symm) (stays a b c rfl rfl rfl)
          done done']
  | @map entry key value others found keys values distinct =>
    cases fits with
    | @map _ key' value' entries found' keys' values' distinct' =>
      cases fits' with
      | @map _ key'' value'' more found'' keys'' values'' distinct'' =>
        cases closed with
        | map isKey single there =>
          obtain ⟨rfl, rfl⟩ := entryCodec_unique found found'
          obtain ⟨rfl, rfl⟩ := entryCodec_unique found found''
          obtain ⟨rfl, rfl⟩ := entryCodec_unique found there
          rw [mergeValue_map] at done done'
          cases done
          cases done'
          rw [mergeValue_map, mergeValue_map,
            Value.setEntries_assoc (sameIsEq_holds isKey) keys' keys'' keys distinct'']

/-- Absorbing fields that hold neither a field nor a rival of it leaves its rivals as they were. -/
theorem Absorbs.ousts_iff {target source result : Message} {tag : Nat}
    (absorbs : Absorbs set codec target source.fields source.unknown result)
    (missing : source.get? tag = none) (quiet : ¬codec.Ousts source.fields tag) :
    codec.Ousts result.fields tag ↔ codec.Ousts target.fields tag := by
  have untouched : ∀ rival, codec.Rivals rival tag → result.get? rival = target.get? rival := by
    intro rival rivals
    apply absorbs.kept rival
    · exact Option.not_isSome_iff_eq_none.1 fun there => quiet ⟨rival, rivals, there⟩
    · rintro ⟨third, rivals', there⟩
      rcases rivals.eq_or rivals'.symm with rfl | between
      · have isSome : (source.get? tag).isSome := there
        simp [missing] at isSome
      · exact quiet ⟨third, between.symm, there⟩
  constructor
  · rintro ⟨rival, rivals, there⟩
    exact ⟨rival, rivals, (congrArg Option.isSome (untouched rival rivals)).symm.trans there⟩
  · rintro ⟨rival, rivals, there⟩
    exact ⟨rival, rivals, (congrArg Option.isSome (untouched rival rivals)).trans there⟩

section Lookups

variable {a b c ab bc left right : Message}
  (front : Absorbs set codec a b.fields b.unknown ab)
  (back : Absorbs set codec b c.fields c.unknown bc)
  (onFront : Absorbs set codec ab c.fields c.unknown left)
  (onBack : Absorbs set codec a bc.fields bc.unknown right)
include front back onFront onBack

/-- Of three messages merged in either grouping, a field that the last one holds is alike if its
values are, and if there is nothing to merge into where rivals are held. -/
theorem Absorbs.get?_assoc_of_held
    (alone : ∀ tag value, codec.Ousts b.fields tag → c.get? tag = some value →
      mergeValue set (a.get? tag) value = .ok value)
    (values : ∀ tag first second third before after, a.get? tag = some first →
      b.get? tag = some second → c.get? tag = some third →
      mergeValue set (some first) second = .ok before →
      mergeValue set (some second) third = .ok after →
      mergeValue set (some before) third = mergeValue set (some first) after)
    {tag : Nat} {third : Value} (held : c.get? tag = some third) :
    left.get? tag = right.get? tag := by
  obtain ⟨merged, done, same⟩ := onFront.merged tag third held
  obtain ⟨after, doneBack, heldBack⟩ := back.merged tag third held
  obtain ⟨merged', done', same'⟩ := onBack.merged tag after heldBack
  suffices mergeValue set (ab.get? tag) third = mergeValue set (a.get? tag) after by
    rw [same, same', Except.ok.inj (done.symm.trans (this.trans done'))]
  cases heldB : b.get? tag with
  | some second =>
    obtain ⟨before, doneFront, heldFront⟩ := front.merged tag second heldB
    rw [heldB] at doneBack
    rw [heldFront]
    cases heldA : a.get? tag with
    | some first =>
      rw [heldA] at doneFront
      exact values tag first second third before after heldA heldB held doneFront doneBack
    | none =>
      rw [heldA, mergeValue_none] at doneFront
      cases doneFront
      rw [mergeValue_none, doneBack]
  | none =>
    rw [heldB, mergeValue_none] at doneBack
    cases doneBack
    by_cases ousts : codec.Ousts b.fields tag
    · rw [front.displaced tag heldB ousts, mergeValue_none, alone tag third ousts held]
    · rw [front.kept tag heldB ousts]

/-- Of three messages merged in either grouping, a field that the last one does not hold is
alike. -/
theorem Absorbs.get?_assoc_of_missing {tag : Nat} (missing : c.get? tag = none) :
    left.get? tag = right.get? tag := by
  by_cases oustsC : codec.Ousts c.fields tag
  · -- The third message displaces the field in both groupings.
    have missingBack := back.displaced tag missing oustsC
    obtain ⟨rival, rivals, there⟩ := oustsC
    obtain ⟨value, heldC⟩ := Option.isSome_iff_exists.1 there
    obtain ⟨after, -, heldBack⟩ := back.merged rival value heldC
    have thereBack : (bc.get? rival).isSome := by rw [heldBack]; rfl
    rw [onFront.displaced tag missing ⟨rival, rivals, there⟩,
      onBack.displaced tag missingBack ⟨rival, rivals, thereBack⟩]
  · -- The third message has no part in the field.
    have heldBack := back.kept tag missing oustsC
    rw [onFront.kept tag missing oustsC]
    cases heldB : b.get? tag with
    | some second =>
      rw [heldB] at heldBack
      obtain ⟨before, done, same⟩ := front.merged tag second heldB
      obtain ⟨before', done', same'⟩ := onBack.merged tag second heldBack
      rw [same, same', Except.ok.inj (done.symm.trans done')]
    | none =>
      rw [heldB] at heldBack
      have alike := back.ousts_iff missing oustsC
      by_cases oustsB : codec.Ousts b.fields tag
      · rw [front.displaced tag heldB oustsB, onBack.displaced tag heldBack (alike.2 oustsB)]
      · rw [front.kept tag heldB oustsB, onBack.kept tag heldBack (mt alike.1 oustsB)]

end Lookups

/-- Where the second of three messages holds a rival of a field that the last one holds, there is
nothing in the first one to merge into, unless it is displaced. -/
theorem mergeValue_of_ousts (coherent : codec.Coherent set name) {a b c : Message}
    (found : set.get? a.typeName = some codec) (stays : ¬Message.Displaces set.Rivals a b c)
    (conforms : ConformsTo set codec a) (conforms' : ConformsTo set codec c) {tag : Nat}
    {value : Value} (ousts : codec.Ousts b.fields tag) (held : c.get? tag = some value) :
    mergeValue set (a.get? tag) value = .ok value := by
  obtain ⟨rival, rivals, there⟩ := ousts
  rcases isAtom_or_message coherent conforms' rivals held with
    atom | ⟨plan, type, after, planned, -, form, rfl⟩
  · exact mergeValue_atom atom _
  · cases first : a.get? tag with
    | none => exact mergeValue_none _
    | some old =>
      have fits := form ▸ conforms.fits_plan first planned
      cases fits with
      | message => exact absurd (.here ⟨codec, found, rivals⟩ first there held) stays

/-- Three messages can be merged in either grouping if messages that nest less than the last one
can be. -/
theorem merge_assoc_of_below (coherent : set.Coherent)
    {a b c ab bc : Message} (below : AssociativeBelow set c.depth) (conforms : Conforms set a)
    (conforms' : Conforms set b) (conforms'' : Conforms set c) (same : b.typeName = a.typeName)
    (same' : c.typeName = a.typeName) (stays : ¬Message.Displaces set.Rivals a b c)
    (done : merge set a b = .ok ab) (done' : merge set b c = .ok bc) :
    merge set ab c = merge set a bc := by
  obtain ⟨codec, found, conformsA⟩ := conforms.exists_codec
  have conformsB := (conforms_iff (same ▸ found)).1 conforms'
  have conformsC := (conforms_iff (same' ▸ found)).1 conforms''
  have good := coherent _ codec found
  obtain ⟨front, doneFront, absorbsFront, conformsFront⟩ :=
    merge_absorbs coherent found conformsA conformsB
  obtain ⟨back, doneBack, absorbsBack, conformsBack⟩ :=
    merge_absorbs coherent (same ▸ found) conformsB conformsC
  obtain rfl := Except.ok.inj (doneFront.symm.trans done)
  obtain rfl := Except.ok.inj (doneBack.symm.trans done')
  obtain ⟨left, doneLeft, absorbsLeft, conformsLeft⟩ :=
    merge_absorbs coherent (absorbsFront.typeName ▸ found) conformsFront conformsC
  obtain ⟨right, doneRight, absorbsRight, conformsRight⟩ :=
    merge_absorbs coherent found conformsA conformsBack
  rw [doneLeft, doneRight]
  apply congrArg Except.ok
  apply conformsLeft.ordered.ext conformsRight.ordered
  · calc
      left.typeName = front.typeName := absorbsLeft.typeName
      _ = a.typeName := absorbsFront.typeName
      _ = right.typeName := absorbsRight.typeName.symm
  · rw [absorbsLeft.unknown, absorbsFront.unknown, absorbsRight.unknown, absorbsBack.unknown,
      List.append_assoc]
  · intro tag
    cases held : c.get? tag with
    | none => exact absorbsFront.get?_assoc_of_missing absorbsBack absorbsLeft absorbsRight held
    | some third =>
      refine absorbsFront.get?_assoc_of_held absorbsBack absorbsLeft absorbsRight ?_ ?_ held
      · exact fun tag value ousts held =>
          mergeValue_of_ousts good found stays conformsA conformsC ousts held
      · intro tag first second third before after heldA heldB heldC doneFront doneBack
        obtain ⟨plan, planned, fits⟩ := conformsA.fits tag first heldA
        have closed := good.closed plan (MessageCodec.reader?_mem planned)
        refine mergeValue_assoc below closed fits (conformsB.fits_plan heldB planned)
          (conformsC.fits_plan heldC planned) (MessageOf.levels_le_depth heldC) ?_ doneFront
          doneBack
        rintro before middle after rfl rfl rfl inside
        exact stays (.inside heldA heldB heldC inside)

/-- Conforming messages of one type can be merged in either grouping, however deep they nest. -/
theorem associativeBelow (coherent : set.Coherent) (bound : Nat) : AssociativeBelow set bound := by
  rintro a b c ab bc -
  induction c using MessageOf.induct generalizing a b ab bc with
  | nest c ih =>
    apply merge_assoc_of_below coherent
    intro a b c' ab bc shallow
    exact ih c' shallow a b ab bc

/-- Three conforming messages of one type can be merged in either grouping, if the second one
displaces nothing in between. -/
theorem merge_assoc_of_not_displaces (coherent : set.Coherent) {a b c ab bc : Message}
    (conforms : Conforms set a) (conforms' : Conforms set b) (conforms'' : Conforms set c)
    (same : b.typeName = a.typeName) (same' : c.typeName = a.typeName)
    (stays : ¬Message.Displaces set.Rivals a b c) (done : merge set a b = .ok ab)
    (done' : merge set b c = .ok bc) : merge set ab c = merge set a bc :=
  associativeBelow coherent (c.depth + 1) a b c ab bc (Nat.lt_succ_self _) conforms conforms'
    conforms'' same same' stays done done'

/-- Three conforming messages of one type can be merged in either grouping, where no member of a
group is an embedded message. -/
theorem merge_assoc (coherent : set.Coherent) (plain : set.PlainGroups) {a b c ab bc : Message}
    (conforms : Conforms set a) (conforms' : Conforms set b) (conforms'' : Conforms set c)
    (same : b.typeName = a.typeName) (same' : c.typeName = a.typeName)
    (done : merge set a b = .ok ab) (done' : merge set b c = .ok bc) :
    merge set ab c = merge set a bc :=
  merge_assoc_of_not_displaces coherent conforms conforms' conforms'' same same'
    (plain.not_displaces coherent conforms) done done'

/-- Merging a message with nothing set into another one changes nothing. -/
theorem merge_new (found : set.get? name = some codec) {message : Message}
    (named : message.typeName = name) : merge set message (.new name) = .ok message := by
  rw [merge, codec_eq_ok (named ▸ found), ok_bind]
  exact congrArg Except.ok (MessageOf.addUnknown_nil message)

/-- Merging a conforming message into one with nothing set gives this message. -/
theorem new_merge (coherent : set.Coherent) {message : Message} (conforms : Conforms set message)
    (named : message.typeName = name) : merge set (.new name) message = .ok message := by
  obtain ⟨codec, found, conforms⟩ := conforms.exists_codec
  rw [named] at found
  obtain ⟨result, done, absorbs, conformsResult⟩ :=
    merge_absorbs coherent found (conformsTo_new set codec name) conforms
  rw [done]
  refine congrArg Except.ok (MessageOf.Ordered.ext conformsResult.ordered conforms.ordered
    (absorbs.typeName.trans named.symm) ?_ fun tag => ?_)
  · rw [absorbs.unknown, MessageOf.unknown_new, List.nil_append]
  · cases held : message.get? tag with
    | some value =>
      obtain ⟨merged, done, same⟩ := absorbs.merged tag value held
      rw [MessageOf.get?_new, mergeValue_none] at done
      cases done
      exact same
    | none =>
      by_cases ousts : codec.Ousts message.fields tag
      · exact absorbs.displaced tag held ousts
      · exact absorbs.kept tag held ousts

end CodecSet

end Protobuf
