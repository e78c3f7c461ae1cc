import Protobuf.Proofs.Codec.Generate
import Protobuf.Proofs.Codec.Nesting

/-! # Faults of reading

With the codecs of an accepted schema, reading fails because of the bytes or not at all: whatever
it looks up is there, and whatever it merges can be merged. Main statement: `decode_ofBytes`.

## Implementation notes

What is merged while a message is read was read itself, so it conforms, and conforming messages of
one type can be merged. The induction is on the levels that are left. -/

namespace Protobuf

open Wire

/-- The bytes are at fault: they are malformed, or a record is laid out otherwise than its field. -/
inductive CodecError.OfBytes : CodecError → Prop
  | malformed (error : Error) : OfBytes (.malformed error)
  | wireTypeMismatch (offset : Nat) (message field : String) (tag : Nat)
    (expected actual : WireType) :
    OfBytes (.wireTypeMismatch offset message field tag expected actual)

/-- The message that a form names has a codec. -/
theorem FieldForm.Closed.exists_codec {set : CodecSet} {form : FieldForm} {target : String}
    (closed : form.Closed set) (names : form.target? = some target) :
    ∃ codec, set.get? target = some codec := by
  cases closed with
  | single | repeated | packed => cases names
  | message found | messages found | map _ _ found =>
    cases names
    exact ⟨_, found⟩

namespace CodecSet

variable {schema : Schema} {set : CodecSet} {nested : String → Slice → Except CodecError Message}
  {codec : MessageCodec} {name : String} {bytes : List UInt8} {plan : FieldPlan} {record : Record}
  {before : Message} {levels : Nat} {slice : Slice} {error : CodecError}

/-- Messages that have codecs are read unless their bytes are at fault. -/
def FailsOfBytes (set : CodecSet) (nested : String → Slice → Except CodecError Message) : Prop :=
  ∀ type slice error, (set.get? type).isSome → nested type slice = .error error → error.OfBytes

/-! ## Records -/

theorem ofBytes_expect {α : Type} {reading : Option (Except Error α)}
    (failed : expect codec plan record reading = .error error) : error.OfBytes := by
  rcases reading with _ | wireError | value
  · cases failed
    exact .wireTypeMismatch ..
  · cases failed
    exact .malformed _
  · cases failed

/-- A record of a field has a value unless its bytes are at fault. -/
theorem ofBytes_fieldValue (closed : plan.form.Closed set) (inside : FailsOfBytes set nested)
    (failed : fieldValue set nested codec plan record = .error error) : error.OfBytes := by
  have found : ∀ target, plan.form.target? = some target → (set.get? target).isSome :=
    fun target names => Option.isSome_iff_exists.2 (closed.exists_codec names)
  unfold fieldValue at failed
  cases form : plan.form with
  | single scalar =>
    simp only [form] at failed
    exact ofBytes_expect failed
  | repeated | packed =>
    simp only [form, map_eq_error_iff] at failed
    exact ofBytes_expect failed
  | message type | messages type =>
    simp only [form, bind_eq_error_iff, map_eq_error_iff] at failed
    rcases failed with failed | ⟨inner, -, failed⟩
    · exact ofBytes_expect failed
    · exact inside _ _ _ (found type (by rw [form]; rfl)) failed
  | map entry =>
    rw [form] at closed
    cases closed with
    | @map _ key value isKey single there =>
      obtain ⟨first, second⟩ := default?_entryCodec entry key value
      simp only [form, codec_eq_ok there, ok_bind, bind_eq_error_iff] at failed
      rcases failed with failed | ⟨inner, -, failed | ⟨decoded, -, failed⟩⟩
      · exact ofBytes_expect failed
      · exact inside _ _ _ (found entry (by rw [form]; rfl)) failed
      · -- A half that is left out has a default, so there are always both.
        simp only [first, second, Option.or_some, pure_eq_ok, reduceCtorEq] at failed

/-- A record is applied to a conforming message unless its bytes are at fault. -/
theorem ofBytes_applyRecord (coherent : set.Coherent) (found : set.get? name = some codec)
    (conforming : ReadsConforming set nested) (inside : FailsOfBytes set nested)
    (conforms : ConformsTo set codec before)
    (failed : applyRecord set nested codec before record = .error error) : error.OfBytes := by
  have good := coherent name codec found
  unfold applyRecord at failed
  cases planned : codec.reader? record.key.tag with
  | none => simp only [planned, reduceCtorEq] at failed
  | some plan =>
    have among := MessageCodec.reader?_mem planned
    have tag := MessageCodec.reader?_tag planned
    have closed := good.closed plan among
    have self : (codec.clearOthers plan before).get? plan.tag = before.get? plan.tag := by
      rw [good.get?_clearOthers planned, if_neg fun rivals => rivals.1 tag.symm]
    simp only [planned, applyField_eq good among, self, bind_eq_error_iff] at failed
    rcases failed with failed | ⟨value, stands, failed | ⟨merged, -, failed⟩⟩
    · exact ofBytes_fieldValue closed inside failed
    · -- What the field holds and what the record stands for can be merged.
      have fits := ((fieldValue_eq_ok_iff closed).1 stands).fits coherent conforming closed
      obtain ⟨merged, done, -⟩ := fits_mergeValue (mergeableBelow coherent _) closed fits
        (fun old held => conforms.fits_plan (tag ▸ held) planned) (Nat.le_refl _)
      rw [done] at failed
      cases failed
    · cases failed

/-- A buffer breaks off because of its bytes. -/
theorem ofBytes_breakError (good : codec.Coherent set name) (broken : Break) :
    (breakError set codec broken).OfBytes := by
  cases broken with
  | key error => exact .malformed error
  | value offset key error =>
    simp only [breakError]
    split
    · exact .malformed error
    · rename_i plan planned
      split
      · split
        · rename_i entry form
          have closed := good.closed plan (MessageCodec.reader?_mem planned)
          have names : plan.form.target? = some entry := by rw [form]; rfl
          rw [if_pos (Option.isSome_iff_exists.2 (closed.exists_codec names))]
          exact .malformed error
        · exact .malformed error
      · exact .wireTypeMismatch ..

/-! ## Messages -/

/-- Where reading comes to a record, it has built a conforming message. -/
theorem Reaches.conforms (coherent : set.Coherent)
    (reaches : set.Reaches levels name slice codec before record) :
    before.typeName = name ∧ ConformsTo set codec before := by
  obtain ⟨found, front, back, broken, parts, led⟩ := reaches
  obtain ⟨used, -, -, row⟩ := row_of_split parts
  obtain ⟨used, -, -, row, -⟩ := row.of_append
  have named := (coherent name codec found).named
  exact conforms_foldlM coherent found (readsConforming_decodeWithin coherent levels) row named
    (conformsTo_new set codec codec.message) led

/-- Messages that have codecs are read unless their bytes are at fault, whatever levels are left. -/
theorem failsOfBytes_decodeWithin (coherent : set.Coherent) (levels : Nat) :
    FailsOfBytes set (decodeWithin set levels) := by
  induction levels with
  | zero =>
    intro type slice error known failed
    cases failed
    exact .malformed _
  | succ levels ih =>
    intro type slice error known failed
    rcases cases_of_decodeWithin_eq_error failed with
      ⟨missing, -⟩ | ⟨codec, before, record, reaches, failed⟩ | ⟨codec, broken, found, rfl⟩
    · rw [missing] at known
      cases known
    · exact ofBytes_applyRecord coherent reaches.found
        (readsConforming_decodeWithin coherent levels) ih (reaches.conforms coherent).2 failed
    · exact ofBytes_breakError (coherent _ _ found) broken

/-- What is merged while a message is read can be merged. -/
theorem Merges.exists_merged (coherent : set.Coherent) {held decoded : Message}
    (merges : Merges set name bytes held decoded) :
    ∃ merged, merge set held decoded = .ok merged := by
  obtain ⟨outer, deep, reaches, planned, form, payload, done, there⟩ := merges
  obtain ⟨-, conforms⟩ := reaches.conforms coherent
  have good := coherent _ _ reaches.found
  have tag := MessageCodec.reader?_tag planned
  rw [good.get?_clearOthers planned, if_neg fun rivals => rivals.1 tag.symm, tag] at there
  have fits := conforms.fits_plan there planned
  rw [form] at fits
  obtain ⟨named, conforms'⟩ := readsConforming_decodeWithin coherent _ _ _ _ done
  cases fits with
  | message named' conforms =>
    obtain ⟨merged, done, -, -⟩ :=
      mergeable coherent conforms conforms' (named.trans named'.symm)
    exact ⟨merged, done⟩

/-- In the codecs of an accepted schema every type that is named has a codec, and both halves of an
entry have defaults. Under any limits, a message of the schema is read from any bytes unless these
are malformed or have a record of another wire type than its field, and all messages that are
merged on the way can be merged. -/
theorem decode_ofBytes (accepted : schema.Accepted) (limits : Limits) :
    (∀ name codec, (ofSchema schema).get? name = some codec → ∀ plan ∈ codec.fields,
      (∀ target, plan.form.target? = some target → ((ofSchema schema).get? target).isSome) ∧
      ∀ entry, plan.form = .map entry → ∃ entryCodec,
        (ofSchema schema).get? entry = some entryCodec ∧ (entryCodec.default? 1).isSome ∧
          (entryCodec.default? 2).isSome) ∧
    ∀ type ∈ schema.types, ∀ bytes,
      (∀ error, ((ofSchema schema).withLimits limits).decode type.name bytes = .error error →
        error.OfBytes) ∧
      ∀ held decoded, Merges ((ofSchema schema).withLimits limits) type.name bytes held decoded →
        ∃ merged, ((ofSchema schema).withLimits limits).merge held decoded = .ok merged := by
  have coherent := (coherent_ofSchema accepted).withLimits limits
  refine ⟨fun name codec found plan planned => ⟨fun target names => ?_, fun entry form => ?_⟩,
    fun type held bytes => ⟨fun error failed => ?_, fun held decoded merges => ?_⟩⟩
  · have closed := (coherent_ofSchema accepted name codec found).closed plan planned
    exact Option.isSome_iff_exists.2 (closed.exists_codec names)
  · have closed := (coherent_ofSchema accepted name codec found).closed plan planned
    rw [form] at closed
    cases closed with
    | map isKey single there => exact ⟨_, there, rfl, rfl⟩
  · have known : (((ofSchema schema).withLimits limits).get? type.name).isSome :=
      Option.isSome_iff_exists.2 ⟨_, (get?_ofSchema_iff accepted).2 ⟨type, held, rfl, rfl⟩⟩
    unfold decode at failed
    split at failed
    · cases failed
      exact .malformed _
    · exact failsOfBytes_decodeWithin coherent _ _ _ _ known failed
  · exact merges.exists_merged coherent

/-- The two halves of a child that comes in two records are merged. -/
theorem merges_tree : Merges ((ofSchema .tree).withLimits {}) "Node"
    [18, 9, 18, 2, 8, 1, 18, 3, 34, 1, 97] ⟨"Node", [(1, .uint32 1)], []⟩
    ⟨"Node", [(4, .string "a")], []⟩ := by
  let entry : Slice := ⟨2, [18, 2, 8, 1, 18, 3, 34, 1, 97]⟩
  let children : FieldPlan := ⟨"children", 2, .map "Node.ChildrenEntry", none, false, none⟩
  have outer : Reaches ((ofSchema .tree).withLimits {}) 100 "Node"
      ⟨0, [18, 9, 18, 2, 8, 1, 18, 3, 34, 1, 97]⟩ (.ofType (.ofSchema .tree) _) (.new "Node")
      ⟨0, ⟨2, .lengthDelimited⟩, .payload entry, [18, 9, 18, 2, 8, 1, 18, 3, 34, 1, 97]⟩ :=
    ⟨(get?_ofSchema_iff Schema.accepted_tree).2 ⟨_, List.mem_cons_self, rfl, rfl⟩, [], [], none,
      by with_unfolding_all rfl, rfl⟩
  have inner : Reaches ((ofSchema .tree).withLimits {}) 99 "Node.ChildrenEntry" entry
      (entryCodec "Node.ChildrenEntry" .string (.message "Node"))
      ⟨"Node.ChildrenEntry", [(2, .message ⟨"Node", [(1, .uint32 1)], []⟩)], []⟩
      ⟨6, ⟨2, .lengthDelimited⟩, .payload ⟨8, [34, 1, 97]⟩, [18, 3, 34, 1, 97]⟩ :=
    ⟨by with_unfolding_all rfl, [⟨2, ⟨2, .lengthDelimited⟩, .payload ⟨4, [8, 1]⟩, [18, 2, 8, 1]⟩],
      [], none, by with_unfolding_all rfl, by with_unfolding_all rfl⟩
  exact .intro (.inside .whole (Nat.zero_le _) outer (show _ = some children from rfl) rfl rfl)
    (by decide) inner rfl rfl rfl (by with_unfolding_all rfl) rfl

/-- The entries of children have a codec. A tree that ends within a child is at fault itself, and
the two halves of a child can be merged. -/
theorem decode_ofBytes_tree :
    ((ofSchema .tree).get? "Node.ChildrenEntry").isSome ∧
    CodecError.OfBytes (.malformed (.truncated 2 3 1)) ∧
    ∃ merged, ((ofSchema .tree).withLimits {}).merge ⟨"Node", [(1, .uint32 1)], []⟩
      ⟨"Node", [(4, .string "a")], []⟩ = .ok merged := by
  obtain ⟨closed, reads⟩ := decode_ofBytes Schema.accepted_tree {}
  refine ⟨?_, (reads _ List.mem_cons_self [18, 3, 10]).1 _ (by with_unfolding_all rfl),
    (reads _ List.mem_cons_self _).2 _ _ merges_tree⟩
  have found : (ofSchema .tree).get? "Node" = some (.ofType (.ofSchema .tree) _) :=
    (get?_ofSchema_iff Schema.accepted_tree).2 ⟨_, List.mem_cons_self, rfl, rfl⟩
  exact (closed "Node" _ found ⟨"children", 2, .map "Node.ChildrenEntry", none, false, none⟩
    (List.mem_cons_of_mem _ List.mem_cons_self)).1 _ rfl

end CodecSet

end Protobuf
