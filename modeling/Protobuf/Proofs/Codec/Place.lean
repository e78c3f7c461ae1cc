import Protobuf.Proofs.Codec.Generate
import Protobuf.Proofs.Codec.Limits
import Protobuf.Proofs.Wire.Place

/-! # Places of errors

Errors name places of the outermost input. So a message further back is read alike, with errors
further back by as much, and an error in an embedded message is the error of the whole. Main
statement: `decode_offset`.

## Implementation notes

Moving is an equation between what two runs come to, errors included, so it is carried through
runs by `mapError`. Nothing is asked of the schema: where entries are looked up before they are
read, all that counts is that generated codecs have those of all entries. -/

namespace Protobuf

open Wire

/-- An error moved further back in the outermost input. -/
def CodecError.shift (distance : Nat) : CodecError → CodecError
  | .malformed error => .malformed (error.shift distance)
  | .wireTypeMismatch offset message field tag expected actual =>
    .wireTypeMismatch (offset + distance) message field tag expected actual
  | error => error

namespace Scalar

variable (scalar : Scalar) (distance : Nat) (raw : RawValue)

theorem read?_shift :
    scalar.read? (raw.shift distance) =
      (scalar.read? raw).map (·.mapError (Error.shift distance)) := by
  cases raw with
  | word layout n =>
    cases scalar with
    | numeric kind =>
      simp only [read?, RawValue.shift, Option.map_map]
      rfl
    | string | bytes => rfl
  | payload slice =>
    cases scalar with
    | numeric kind => rfl
    | bytes => rfl
    | string =>
      simp only [read?, RawValue.shift, RawValue.payload?, Option.map_some]
      cases Text.Utf8.decode? slice.bytes <;> rfl

theorem readAll?_shift :
    scalar.readAll? (raw.shift distance) =
      (scalar.readAll? raw).map (·.mapError (Error.shift distance)) := by
  have single : ((scalar.read? (raw.shift distance)).map (·.map ([·]))) =
      ((scalar.read? raw).map (·.map ([·]))).map (·.mapError (Error.shift distance)) := by
    rw [read?_shift]
    rcases scalar.read? raw with _ | _ | _ <;> rfl
  cases raw with
  | word layout n => cases scalar <;> exact single
  | payload slice =>
    cases scalar with
    | string | bytes => exact single
    | numeric kind =>
      have moved := readRun_shift kind.layout distance (.ofSlice slice)
      rw [← Cursor.ofSlice_shift] at moved
      simp only [readAll?, RawValue.shift]
      change some ((readRun kind.layout (.ofSlice (slice.shift distance))).map _) = _
      rw [moved]
      cases readRun kind.layout (.ofSlice slice) <;> rfl

variable {scalar raw}

/-- What is wrong with a value that is read lies within its payload. -/
theorem exists_payload_of_read? {error : Error} (failed : scalar.read? raw = some (.error error)) :
    ∃ inner, raw = .payload inner ∧ error.offset ≤ inner.stop := by
  cases raw with
  | word layout n =>
    cases scalar with
    | numeric kind =>
      obtain ⟨word, -, wrong⟩ := Option.map_eq_some_iff.1 failed
      cases wrong
    | string | bytes => cases failed
  | payload slice =>
    cases scalar with
    | numeric kind => cases failed
    | bytes => cases failed
    | string =>
      simp only [read?, RawValue.payload?, Option.map_some, Option.some.injEq] at failed
      split at failed <;> cases failed
      exact ⟨slice, rfl, Nat.le_add_right ..⟩

theorem exists_payload_of_readAll? {error : Error}
    (failed : scalar.readAll? raw = some (.error error)) :
    ∃ inner, raw = .payload inner ∧ error.offset ≤ inner.stop := by
  unfold readAll? at failed
  split at failed
  · rename_i kind slice
    cases run : readRun kind.layout (.ofSlice slice) with
    | ok ns =>
      rw [run] at failed
      cases failed
    | error wrong =>
      rw [run] at failed
      cases failed
      exact ⟨slice, rfl, readRun_spans run⟩
  · obtain ⟨single, read, wrong⟩ := Option.map_eq_some_iff.1 failed
    cases single with
    | ok value => cases wrong
    | error error' =>
      cases wrong
      exact exists_payload_of_read? read

end Scalar

namespace CodecSet

variable {set : CodecSet} {nested : String → Slice → Except CodecError Message}
  {codec : MessageCodec} {name : String} {bytes : List UInt8} {plan : FieldPlan} {record : Record}
  {before message : Message} {levels distance stop : Nat} {slice : Slice} {error : CodecError}

/-! ## Merging -/

/-- A run fails only where a codec is missing. -/
def LacksCodec {α : Type} (run : Except CodecError α) : Prop :=
  ∀ error, run = .error error → ∃ type, error = .unknownMessage type

namespace LacksCodec

variable {α β : Type}

theorem ok (a : α) : LacksCodec (.ok a) := by
  intro error failed
  cases failed

theorem bind {first : Except CodecError α} {next : α → Except CodecError β}
    (lacks : LacksCodec first) (after : ∀ a, LacksCodec (next a)) :
    LacksCodec (first >>= next) := by
  intro error failed
  rcases bind_eq_error_iff.1 failed with failed | ⟨a, -, failed⟩
  · exact lacks error failed
  · exact after a error failed

/-- Where a codec is missing, no place is named. -/
theorem mapError_eq {run : Except CodecError α} (lacks : LacksCodec run) (distance : Nat) :
    run.mapError (CodecError.shift distance) = run := by
  cases run with
  | ok a => rfl
  | error error =>
    obtain ⟨type, rfl⟩ := lacks error rfl
    rfl

end LacksCodec

theorem lacksCodec_codec (set : CodecSet) (name : String) : LacksCodec (set.codec name) := by
  intro error failed
  unfold CodecSet.codec at failed
  split at failed
  · cases failed
  · exact ⟨name, (Except.error.inj failed).symm⟩

theorem lacksCodec_mergeFields {fields : List (Nat × Value)}
    (inside : ∀ field ∈ fields, ∀ held, LacksCodec (mergeValue set held field.2))
    (codec : MessageCodec) (target : Message) :
    LacksCodec (mergeFields set codec target fields) := by
  induction fields generalizing target with
  | nil => exact .ok target
  | cons field rest ih =>
    obtain ⟨here, later⟩ := List.forall_mem_cons.1 inside
    rw [mergeFields_cons]
    exact (here _).bind fun merged => ih later _

theorem lacksCodec_merge_of {source : Message}
    (inside : ∀ field ∈ source.fields, ∀ held, LacksCodec (mergeValue set held field.2))
    (target : Message) : LacksCodec (merge set target source) :=
  (lacksCodec_codec set _).bind fun codec =>
    (lacksCodec_mergeFields inside codec target).bind fun _ => .ok _

theorem lacksCodec_mergeValue (value : Value) (held : Option Value) :
    LacksCodec (mergeValue set held value) := by
  induction value using Value.induct generalizing held with
  | message source inside =>
    cases held with
    | none =>
      rw [mergeValue_none]
      exact .ok _
    | some old =>
      cases old with
      | message target =>
        rw [mergeValue_message, ← bind_pure_comp]
        exact (lacksCodec_merge_of inside target).bind fun _ => .ok _
      | _ => exact .ok _
  | list | map =>
    cases held with
    | none => exact .ok _
    | some old => cases old <;> exact .ok _
  | atom value atom =>
    rw [mergeValue_atom atom]
    exact .ok value

/-- Merging fails only where a codec is missing. -/
theorem lacksCodec_merge (target source : Message) : LacksCodec (merge set target source) :=
  lacksCodec_merge_of (fun field _ => lacksCodec_mergeValue field.2) target

/-! ## Moving -/

/-- Embedded messages further back are read alike, with errors further back. -/
def Moves (nested : String → Slice → Except CodecError Message) : Prop :=
  ∀ distance type slice,
    nested type (slice.shift distance) = (nested type slice).mapError (CodecError.shift distance)

theorem expect_shift {α : Type} (reading : Option (Except Error α)) :
    expect codec plan (record.shift distance)
        (reading.map (·.mapError (Error.shift distance))) =
      (expect codec plan record reading).mapError (CodecError.shift distance) := by
  rcases reading with _ | _ | _ <;> rfl

theorem expect_payload_shift :
    expect codec plan (record.shift distance) ((record.shift distance).value.payload?.map .ok) =
      (expect codec plan record (record.value.payload?.map .ok)).mapError
          (CodecError.shift distance) >>= fun inner => .ok (inner.shift distance) := by
  obtain ⟨offset, key, value, raw⟩ := record
  cases value <;> rfl

/-- A record further back is applied alike. -/
theorem applyRecord_shift (moves : Moves nested) (distance : Nat) (record : Record)
    (before : Message) :
    applyRecord set nested codec before (record.shift distance) =
      (applyRecord set nested codec before record).mapError (CodecError.shift distance) := by
  unfold applyRecord
  rw [Record.key_shift, Record.keep_shift]
  cases codec.reader? record.key.tag with
  | none => rfl
  | some plan =>
    simp only [applyField]
    cases plan.form with
    | single scalar =>
      simp only [Record.value_shift, Scalar.read?_shift, expect_shift, mapError_bind]
      rfl
    | repeated scalar =>
      simp only [Record.value_shift, Scalar.readAll?_shift, expect_shift, mapError_bind]
      rfl
    | packed kind =>
      simp only [Record.value_shift, Scalar.readAll?_shift, expect_shift, mapError_bind]
      rfl
    | message type =>
      simp only [expect_payload_shift, bind_assoc, ok_bind, moves distance, mapError_bind]
      refine congrArg _ (funext fun inner => congrArg _ (funext fun decoded => ?_))
      split
      · rw [mapError_bind, (lacksCodec_merge _ _).mapError_eq]
        rfl
      · rfl
    | messages type =>
      simp only [expect_payload_shift, bind_assoc, ok_bind, moves distance, mapError_bind]
      rfl
    | map entry =>
      simp only [expect_payload_shift, bind_assoc, ok_bind, moves distance, mapError_bind,
        (lacksCodec_codec set entry).mapError_eq]
      refine congrArg _ (funext fun inner => congrArg _ (funext fun entryCodec =>
        congrArg _ (funext fun decoded => ?_)))
      split <;> rfl

theorem breakError_shift (distance : Nat) (broken : Break) :
    breakError set codec (broken.shift distance) =
      (breakError set codec broken).shift distance := by
  cases broken with
  | key error => rfl
  | value offset key error =>
    simp only [Break.shift, breakError]
    split
    · rfl
    · split
      · split
        · split <;> rfl
        · rfl
      · rfl

/-- A message further back is read alike, with errors further back by as much. -/
theorem decodeOver_shift (moves : Moves nested) : Moves (decodeOver set nested) := by
  intro distance type slice
  simp only [decodeOver, mapError_bind, (lacksCodec_codec set type).mapError_eq]
  refine congrArg _ (funext fun codec => ?_)
  rw [Cursor.ofSlice_shift, split_shift]
  generalize split set.limits.maxLength (.ofSlice slice) = parts
  obtain ⟨records, broken⟩ := parts
  simp only [List.foldlM_map, applyRecord_shift moves, mapError_foldlM]
  refine congrArg _ (funext fun message => ?_)
  cases broken with
  | none => rfl
  | some broken => exact congrArg _ (breakError_shift distance broken)

theorem moves_decodeWithin (levels : Nat) : Moves (decodeWithin set levels) := by
  induction levels with
  | zero => exact fun distance type slice => rfl
  | succ levels ih => exact decodeOver_shift ih

/-! ## Errors within a buffer -/

/-- What goes wrong in a run names no place behind another one. -/
def Spans {α : Type} (stop : Nat) (run : Except CodecError α) : Prop :=
  ∀ error offset, run = .error error → error.offset? = some offset → offset ≤ stop

namespace Spans

variable {α β σ : Type}

theorem ok (a : α) : Spans stop (.ok a) := by
  intro error offset failed
  cases failed

theorem mono {run : Except CodecError α} {other : Nat} (spans : Spans stop run)
    (le : stop ≤ other) : Spans other run :=
  fun error offset failed here => Nat.le_trans (spans error offset failed here) le

theorem of_lacksCodec {run : Except CodecError α} (lacks : LacksCodec run) : Spans stop run := by
  intro error offset failed here
  obtain ⟨type, rfl⟩ := lacks error failed
  cases here

theorem bind {first : Except CodecError α} {next : α → Except CodecError β}
    (spans : Spans stop first) (after : ∀ a, first = .ok a → Spans stop (next a)) :
    Spans stop (first >>= next) := by
  intro error offset failed
  rcases bind_eq_error_iff.1 failed with failed | ⟨a, first, failed⟩
  · exact spans error offset failed
  · exact after a first error offset failed

theorem foldlM {step : σ → α → Except CodecError σ} {items : List α}
    (each : ∀ item ∈ items, ∀ state, Spans stop (step state item)) (start : σ) :
    Spans stop (items.foldlM step start) := by
  intro error offset failed
  obtain ⟨front, item, back, before, rfl, -, failed⟩ := foldlM_eq_error_iff.1 failed
  exact each item (List.mem_append_cons_self) before error offset failed

end Spans

/-- A reading of a record names no place behind the record or its payload. -/
theorem spans_expect {α : Type} {reading : Option (Except Error α)} (here : record.offset ≤ stop)
    (value : ∀ error, reading = some (.error error) → error.offset ≤ stop) :
    Spans stop (expect codec plan record reading) := by
  rintro error offset failed place
  rcases reading with _ | wrong | a
  · cases failed
    cases place
    exact here
  · cases failed
    cases place
    exact value wrong rfl
  · cases failed

theorem spans_expect_payload (here : record.offset ≤ stop) :
    Spans stop (expect codec plan record (record.value.payload?.map .ok)) := by
  refine spans_expect here fun error failed => ?_
  obtain ⟨inner, -, wrong⟩ := Option.map_eq_some_iff.1 failed
  cases wrong

/-- Embedded messages name no place behind them. -/
def SpansAll (nested : String → Slice → Except CodecError Message) : Prop :=
  ∀ type slice, Spans slice.stop (nested type slice)

/-- What goes wrong in a record lies within its buffer. -/
theorem spans_applyRecord (inside : SpansAll nested) (here : record.offset ≤ stop)
    (payload : ∀ inner, record.value = .payload inner → inner.stop ≤ stop) (before : Message) :
    Spans stop (applyRecord set nested codec before record) := by
  have value {scalar : Scalar} (error : Error)
      (failed : scalar.read? record.value = some (.error error)) : error.offset ≤ stop := by
    obtain ⟨inner, held, le⟩ := Scalar.exists_payload_of_read? failed
    exact Nat.le_trans le (payload inner held)
  have values {scalar : Scalar} (error : Error)
      (failed : scalar.readAll? record.value = some (.error error)) : error.offset ≤ stop := by
    obtain ⟨inner, held, le⟩ := Scalar.exists_payload_of_readAll? failed
    exact Nat.le_trans le (payload inner held)
  have embedded {plan : FieldPlan} {inner : Slice} (type : String)
      (held : expect codec plan record (record.value.payload?.map .ok) = .ok inner) :
      Spans stop (nested type inner) :=
    (inside type inner).mono (payload inner (payload?_map_eq_ok_iff.1 (expect_eq_ok_iff.1 held)))
  unfold applyRecord
  cases codec.reader? record.key.tag with
  | none => exact .ok _
  | some plan =>
    simp only [applyField]
    cases plan.form with
    | single scalar => exact (spans_expect here value).bind fun _ _ => .ok _
    | repeated scalar => exact (spans_expect here values).bind fun _ _ => .ok _
    | packed kind => exact (spans_expect here values).bind fun _ _ => .ok _
    | message type =>
      refine (spans_expect_payload here).bind fun inner held =>
        (embedded type held).bind fun decoded _ => ?_
      split
      · exact (Spans.of_lacksCodec (lacksCodec_merge _ _)).bind fun _ _ => .ok _
      · exact .ok _
    | messages type =>
      exact (spans_expect_payload here).bind fun inner held =>
        (embedded type held).bind fun _ _ => .ok _
    | map entry =>
      refine (spans_expect_payload here).bind fun inner held =>
        (Spans.of_lacksCodec (lacksCodec_codec set entry)).bind fun entryCodec _ =>
          (embedded entry held).bind fun decoded _ => ?_
      split
      · exact .ok _
      · rintro error offset ⟨⟩ ⟨⟩

/-- The error of a buffer that breaks off names no place behind the break. -/
theorem spans_breakError {broken : Break} (within : broken.Within stop) {offset : Nat}
    (place : (breakError set codec broken).offset? = some offset) : offset ≤ stop := by
  cases within with
  | key le =>
    cases place
    exact le
  | @value start found fault here le =>
    rw [breakError_value] at place
    cases wrong : keyFault? set codec start found with
    | none =>
      rw [wrong] at place
      cases place
      exact le
    | some error =>
      rw [wrong] at place
      unfold keyFault? at wrong
      split at wrong
      · cases wrong
      · split at wrong
        · split at wrong
          · split at wrong <;> cases wrong
            cases place
          · cases wrong
        · cases wrong
          cases place
          exact here

theorem spansAll_decodeOver (inside : SpansAll nested) : SpansAll (decodeOver set nested) := by
  intro type slice
  refine (Spans.of_lacksCodec (lacksCodec_codec set type)).bind fun codec _ => ?_
  cases parts : split set.limits.maxLength (.ofSlice slice) with
  | mk records broken =>
    refine .bind (.foldlM (fun record held before => ?_) _) fun message _ => ?_
    · exact spans_applyRecord inside (offset_le_of_split parts held)
        (fun inner payload => (inside_of_split parts held payload).stop_le) before
    · cases broken with
      | none => exact .ok message
      | some broken =>
        rintro error offset ⟨⟩ place
        exact spans_breakError (split_spans parts) place

/-- What goes wrong in a message lies within it. -/
theorem spansAll_decodeWithin (levels : Nat) : SpansAll (decodeWithin set levels) := by
  induction levels with
  | zero =>
    rintro type slice error offset ⟨⟩ ⟨⟩
    exact Nat.le_add_right ..
  | succ levels ih => exact spansAll_decodeOver ih

/-! ## Errors of embedded messages -/

/-- The entries of each map have a codec. -/
def FindsEntries (set : CodecSet) : Prop :=
  ∀ name codec plan entry, set.get? name = some codec → plan ∈ codec.fields →
    plan.form = .map entry → (set.get? entry).isSome

/-- The error of an embedded message is the error of its record. -/
theorem applyRecord_of_embedded (finds : set.FindsEntries) (found : set.get? name = some codec)
    (planned : codec.reader? record.key.tag = some plan) {target : String}
    (names : plan.form.target? = some target) {inner : Slice}
    (payload : record.value = .payload inner) (failed : nested target inner = .error error)
    (before : Message) : applyRecord set nested codec before record = .error error := by
  rcases applyRecord_embedded planned names payload before with ⟨next, reads⟩ | ⟨form, missing, -⟩
  · rw [reads, failed, error_bind]
  · have there := finds name codec plan target found (MessageCodec.reader?_mem planned) form
    rw [missing] at there
    cases there

/-- The error of a record that is reached is the error of its message. -/
theorem Reaches.eq_error (reaches : set.Reaches levels name slice codec before record)
    (failed : applyRecord set (decodeWithin set levels) codec before record = .error error) :
    decodeWithin set (levels + 1) name slice = .error error := by
  obtain ⟨found, front, back, broken, parts, led⟩ := reaches
  rw [decodeWithin, decodeOver, codec_eq_ok found, ok_bind, parts]
  simp only [foldlM_eq_error_iff.2 ⟨front, record, back, before, rfl, led, failed⟩, error_bind]

/-- The error of a message that is opened is the error of the whole. -/
theorem Opens.eq_error (finds : set.FindsEntries) {depth : Nat} {type : String}
    (opens : Opens set name bytes depth type slice)
    (failed : decodeWithin set (set.limits.maxDepth + 1 - depth) type slice = .error error) :
    decodeWithin set (set.limits.maxDepth + 1) name ⟨0, bytes⟩ = .error error := by
  induction opens with
  | whole => exact failed
  | @inside depth type target slice inner codec plan before record outer deep reaches planned names
      payload ih =>
    rw [Nat.add_sub_add_right] at failed
    rw [Nat.succ_sub deep] at ih
    exact ih (reaches.eq_error
      (applyRecord_of_embedded finds reaches.found planned names payload failed before))

/-- A message that is opened is the part of the whole that stands at its place. -/
theorem Opens.exists_front {depth : Nat} {type : String}
    (opens : Opens set name bytes depth type slice) :
    ∃ front back, bytes = front ++ slice.bytes ++ back ∧ front.length = slice.offset := by
  induction opens with
  | whole => exact ⟨[], [], (List.append_nil bytes).symm, rfl⟩
  | inside outer deep reaches planned names payload ih =>
    obtain ⟨front, back, rfl, place⟩ := ih
    obtain ⟨-, before, after, broken, parts, -⟩ := reaches
    obtain ⟨head, tail, whole, -, place'⟩ :=
      inside_of_split parts (List.mem_append_right _ List.mem_cons_self) payload
    refine ⟨front ++ head, tail ++ back, by rw [whole]; simp only [List.append_assoc], ?_⟩
    rw [List.length_append, place, place']

/-- With generated codecs, the place that an error of reading names is in the bytes or at their end.
Where a message is opened inside, so that everything in front of it was read, the bytes at its place
are its own, and the error of these bytes alone, as deep as they lie, is the error of the whole: it
names a place further back by as much as the message stands in, and is the same otherwise. -/
theorem decode_offset (registry : Registry) (limits : Limits) (name : String)
    (bytes : List UInt8) :
    (∀ error offset, ((ofRegistry registry).withLimits limits).decode name bytes = .error error →
      error.offset? = some offset → offset ≤ bytes.length) ∧
    (bytes.length ≤ limits.maxMessageSize → ∀ depth type slice,
      Opens ((ofRegistry registry).withLimits limits) name bytes depth type slice →
      (∃ front back, bytes = front ++ slice.bytes ++ back ∧ front.length = slice.offset) ∧
      ∀ error, decodeWithin ((ofRegistry registry).withLimits limits) (limits.maxDepth + 1 - depth)
          type ⟨0, slice.bytes⟩ = .error error →
        ((ofRegistry registry).withLimits limits).decode name bytes =
          .error (error.shift slice.offset)) := by
  refine ⟨fun error offset failed place => ?_, fun short depth type slice opens =>
    ⟨opens.exists_front, fun error failed => ?_⟩⟩
  · unfold decode at failed
    split at failed
    · cases failed
      cases place
      exact Nat.zero_le _
    · exact Nat.zero_add bytes.length ▸ spansAll_decodeWithin _ _ _ error offset failed place
  · have finds : ((ofRegistry registry).withLimits limits).FindsEntries :=
      fun name codec plan entry found planned form => isSome_get?_of_map found planned form
    have moves : Moves (decodeWithin ((ofRegistry registry).withLimits limits)
        (limits.maxDepth + 1 - depth)) := moves_decodeWithin _
    have moved := moves slice.offset type ⟨0, slice.bytes⟩
    rw [failed, Slice.shift, Nat.zero_add, mapError_error] at moved
    exact (if_neg (Nat.not_lt.2 short)).trans (opens.eq_error finds moved)

/-- The name of a child is too short: the child alone says so two bytes behind its start, and the
tree six bytes further back. -/
theorem decode_offset_tree :
    ((ofSchema .tree).withLimits {}).decode "Node" [8, 0, 18, 5, 18, 3, 34, 2, 97] =
        .error (.malformed (.truncated 8 2 1)) ∧
      8 ≤ [8, 0, 18, 5, 18, 3, 34, 2, 97].length := by
  let entry : Slice := ⟨4, [18, 3, 34, 2, 97]⟩
  let child : Slice := ⟨6, [34, 2, 97]⟩
  have outer : Reaches ((ofSchema .tree).withLimits {}) 100 "Node"
      ⟨0, [8, 0, 18, 5, 18, 3, 34, 2, 97]⟩ (.ofType (.ofSchema .tree) _)
      ⟨"Node", [(1, .uint32 0)], []⟩
      ⟨2, ⟨2, .lengthDelimited⟩, .payload entry, [18, 5, 18, 3, 34, 2, 97]⟩ :=
    ⟨(get?_ofSchema_iff Schema.accepted_tree).2 ⟨_, List.mem_cons_self, rfl, rfl⟩,
      [⟨0, ⟨1, .varint⟩, .word .varint 0, [8, 0]⟩], [], none, by with_unfolding_all rfl,
      by with_unfolding_all rfl⟩
  have inner : Reaches ((ofSchema .tree).withLimits {}) 99 "Node.ChildrenEntry" entry
      (entryCodec "Node.ChildrenEntry" .string (.message "Node")) (.new "Node.ChildrenEntry")
      ⟨4, ⟨2, .lengthDelimited⟩, .payload child, [18, 3, 34, 2, 97]⟩ :=
    ⟨by with_unfolding_all rfl, [], [], none, by with_unfolding_all rfl, rfl⟩
  have opened : Opens ((ofSchema .tree).withLimits {}) "Node" [8, 0, 18, 5, 18, 3, 34, 2, 97] 1
      "Node.ChildrenEntry" entry := .inside .whole (Nat.zero_le _) outer rfl rfl rfl
  obtain ⟨within, inside⟩ :=
    decode_offset (.ofSchema .tree) {} "Node" [8, 0, 18, 5, 18, 3, 34, 2, 97]
  obtain ⟨-, fails⟩ := inside (by decide) 2 "Node" child
    (.inside opened (by decide) inner rfl rfl rfl)
  have failed := fails (.malformed (.truncated 2 2 1)) (by with_unfolding_all rfl)
  exact ⟨failed, within _ 8 failed rfl⟩

end CodecSet

end Protobuf
