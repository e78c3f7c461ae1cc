import Protobuf.Proofs.Codec.Nesting
import Protobuf.Proofs.Schema.Accepted
import Protobuf.Proofs.Wire.Place

/-! # Reading comes to an end

Each record takes two bytes or more, and a message inside a record is shorter than what holds the
record by as much. So reading ends by itself, without a limit on how deep messages nest, and comes
to no more records than half as many as there are bytes. Main statement: `decode_terminates`.

## Implementation notes

Levels are counted down when messages are read, so that the functions here are total in any case.
That reading ends without them is that the equation between a message and those inside it has one
solution. -/

namespace Protobuf

open Wire

/-- Records ascend between two places, and two bytes or more lie from each to the next one and from
the last one to the end. -/
inductive Spaced (stop : Nat) : Nat → List Record → Prop
  | nil {start : Nat} (le : start ≤ stop) : Spaced stop start []
  | cons {start : Nat} {record : Record} {rest : List Record} (le : start ≤ record.offset)
    (tail : Spaced stop (record.offset + 2) rest) : Spaced stop start (record :: rest)

namespace Spaced

variable {start middle stop : Nat} {records more : List Record}

theorem mono (spaced : Spaced stop middle records) (le : start ≤ middle) :
    Spaced stop start records := by
  cases spaced with
  | nil le' => exact .nil (Nat.le_trans le le')
  | cons le' tail => exact .cons (Nat.le_trans le le') tail

theorem append (spaced : Spaced middle start records) (spaced' : Spaced stop middle more) :
    Spaced stop start (records ++ more) := by
  induction spaced with
  | nil le => exact spaced'.mono le
  | cons le tail ih => exact .cons le ih

theorem le_offset (spaced : Spaced stop start records) {record : Record}
    (held : record ∈ records) : start ≤ record.offset := by
  induction spaced with
  | nil => cases held
  | cons le tail ih =>
    rcases List.mem_cons.1 held with rfl | later
    · exact le
    · have := ih later
      omega

theorem pairwise (spaced : Spaced stop start records) :
    records.Pairwise (·.offset < ·.offset) := by
  induction spaced with
  | nil => exact .nil
  | cons le tail ih => exact .cons (fun record held => Nat.lt_of_succ_lt (tail.le_offset held)) ih

/-- No more records fit between two places than half as many as there are bytes. -/
theorem length_le (spaced : Spaced stop start records) : start + 2 * records.length ≤ stop := by
  induction spaced with
  | nil le => exact le
  | cons le tail ih =>
    rw [List.length_cons]
    omega

end Spaced

namespace CodecSet

variable {set : CodecSet} {nested nested' : String → Slice → Except CodecError Message}
  {inside : String → Slice → List Record} {codec : MessageCodec} {name : String}
  {bytes : List UInt8} {record : Record} {before start message : Message} {levels : Nat}
  {slice : Slice}

/-! ## Without a limit on levels -/

/-- A record is applied alike if the message in its payload is read alike. -/
theorem applyRecord_congr
    (alike : ∀ type inner, record.value = .payload inner → nested type inner = nested' type inner)
    (before : Message) :
    applyRecord set nested codec before record = applyRecord set nested' codec before record := by
  unfold applyRecord
  cases codec.reader? record.key.tag with
  | none => rfl
  | some plan =>
    simp only [applyField]
    cases plan.form with
    | single | repeated | packed => rfl
    | message type | messages type | map type =>
      cases held : record.value with
      | word => rfl
      | payload inner =>
        simp only [RawValue.payload?, Option.map_some, expect, ok_bind, alike type inner held]

/-- Reading a message reads only shorter ones inside it. -/
theorem decodeOver_congr
    (alike : ∀ type inner, inner.bytes.length + 2 ≤ slice.bytes.length →
      nested type inner = nested' type inner) (name : String) :
    decodeOver set nested name slice = decodeOver set nested' name slice := by
  unfold decodeOver
  refine congrArg _ (funext fun codec => ?_)
  cases parts : split set.limits.maxLength (.ofSlice slice) with
  | mk records broken =>
    simp only
    rw [foldlM_congr fun record held before => applyRecord_congr (fun type inner payload =>
      alike type inner (inside_of_split parts held payload).length_lt) before]

/-- Read a message of a type that may go on nesting without a limit. -/
def decodeUnlimited (set : CodecSet) (name : String) (slice : Slice) :
    Except CodecError Message :=
  decodeWithin set (slice.bytes.length + 1) name slice

/-- With half as many levels as there are bytes, and one more, any further ones do not matter. -/
theorem decodeWithin_eq_of_lt {more : Nat} (enough : slice.bytes.length < 2 * levels)
    (enough' : slice.bytes.length < 2 * more) (name : String) :
    decodeWithin set levels name slice = decodeWithin set more name slice := by
  induction levels generalizing more name slice with
  | zero => omega
  | succ levels ih =>
    cases more with
    | zero => omega
    | succ more =>
      exact decodeOver_congr (fun type inner shorter => ih (by omega) (by omega) type) name

theorem decodeWithin_eq_decodeUnlimited (enough : slice.bytes.length < 2 * levels)
    (name : String) : decodeWithin set levels name slice = decodeUnlimited set name slice :=
  decodeWithin_eq_of_lt enough (by omega) name

/-- Reading without a limit is the one way to read messages from those inside them. -/
theorem eq_decodeUnlimited_iff :
    (∀ name slice, nested name slice = decodeOver set nested name slice) ↔
      nested = decodeUnlimited set := by
  constructor
  · intro solves
    have same (levels : Nat) : ∀ name slice, slice.bytes.length < 2 * levels →
        nested name slice = decodeWithin set levels name slice := by
      induction levels with
      | zero => exact fun name slice enough => absurd enough (Nat.not_lt_zero _)
      | succ levels ih =>
        intro name slice enough
        rw [solves, decodeWithin]
        exact decodeOver_congr (fun type inner shorter => ih type inner (by omega)) name
    exact funext fun name => funext fun slice => same _ name slice (by omega)
  · rintro rfl name slice
    rw [decodeUnlimited, decodeWithin]
    exact decodeOver_congr (fun type inner shorter =>
      decodeWithin_eq_decodeUnlimited (by omega) type) name

/-! ## The records that reading comes to -/

/-- The records that reading the message in a record comes to, where `inside` has those of embedded
messages. -/
def recordsInside (inside : String → Slice → List Record) (codec : MessageCodec)
    (record : Record) : List Record :=
  match (codec.reader? record.key.tag).bind (·.form.target?), record.value with
  | some target, .payload inner => inside target inner
  | _, _ => []

/-- The records that reading a row of records comes to, up to the first that cannot be applied: each
of these and, behind it, those of the message in it. -/
def recordsOver (set : CodecSet) (nested : String → Slice → Except CodecError Message)
    (inside : String → Slice → List Record) (codec : MessageCodec) :
    Message → List Record → List Record
  | _, [] => []
  | before, record :: rest =>
    record :: (recordsInside inside codec record ++
      match applyRecord set nested codec before record with
      | .ok after => recordsOver set nested inside codec after rest
      | .error _ => [])

/-- The records that reading a message of a type comes to, where it may go on nesting for some
levels, itself included. -/
def recordsWithin (set : CodecSet) : Nat → String → Slice → List Record
  | 0, _, _ => []
  | levels + 1, name, slice =>
    match set.get? name with
    | some codec =>
      recordsOver set (decodeWithin set levels) (recordsWithin set levels) codec
        (.new codec.message) (split set.limits.maxLength (.ofSlice slice)).1
    | none => []

/-- The records that reading a whole message of a type comes to, those of all messages inside it
included. -/
def recordsRead (set : CodecSet) (name : String) (bytes : List UInt8) : List Record :=
  if set.limits.maxMessageSize < bytes.length then []
  else recordsWithin set (set.limits.maxDepth + 1) name ⟨0, bytes⟩

theorem mem_recordsInside_iff {other : Record} :
    other ∈ recordsInside inside codec record ↔
      ∃ plan target inner, codec.reader? record.key.tag = some plan ∧
        plan.form.target? = some target ∧ record.value = .payload inner ∧
        other ∈ inside target inner := by
  unfold recordsInside
  constructor
  · intro held
    split at held
    · rename_i target inner names payload
      obtain ⟨plan, planned, names⟩ := Option.bind_eq_some_iff.1 names
      exact ⟨plan, target, inner, planned, names, payload, held⟩
    · cases held
  · rintro ⟨plan, target, inner, planned, names, payload, held⟩
    simp only [planned, Option.bind_some, names, payload]
    exact held

theorem mem_recordsOver_iff {records : List Record} {other : Record} :
    other ∈ recordsOver set nested inside codec start records ↔
      ∃ front record back before, records = front ++ record :: back ∧
        front.foldlM (applyRecord set nested codec) start = .ok before ∧
        (other = record ∨ other ∈ recordsInside inside codec record) := by
  constructor
  · intro held
    induction records generalizing start with
    | nil => cases held
    | cons record rest ih =>
      rw [recordsOver, List.mem_cons, List.mem_append, ← or_assoc] at held
      rcases held with here | later
      · exact ⟨[], record, rest, start, rfl, rfl, here⟩
      · cases step : applyRecord set nested codec start record with
        | error error =>
          simp only [step] at later
          cases later
        | ok after =>
          simp only [step] at later
          obtain ⟨front, found, back, before, rfl, led, held⟩ := ih later
          refine ⟨record :: front, found, back, before, rfl, ?_, held⟩
          rw [List.foldlM_cons, step, ok_bind, led]
  · rintro ⟨front, record, back, before, rfl, led, held⟩
    induction front generalizing start with
    | nil =>
      rw [List.nil_append, recordsOver, List.mem_cons, List.mem_append, ← or_assoc]
      exact .inl held
    | cons first front ih =>
      obtain ⟨after, step, led⟩ := bind_eq_ok_iff.1 led
      rw [List.cons_append, recordsOver, List.mem_cons, List.mem_append, step]
      exact .inr (.inr (ih led))

/-- Reading a message comes to a record exactly if it reaches it, or reaches a record with a message
inside and reading this one comes to it. -/
theorem mem_recordsWithin_iff {other : Record} :
    other ∈ recordsWithin set (levels + 1) name slice ↔
      ∃ codec before record, set.Reaches levels name slice codec before record ∧
        (other = record ∨ other ∈ recordsInside (recordsWithin set levels) codec record) := by
  rw [recordsWithin]
  constructor
  · intro held
    split at held
    · rename_i codec found
      obtain ⟨front, record, back, before, parts, led, held⟩ := mem_recordsOver_iff.1 held
      exact ⟨codec, before, record, ⟨found, front, back, _, Prod.ext parts rfl, led⟩, held⟩
    · cases held
  · rintro ⟨codec, before, record, ⟨found, front, back, broken, parts, led⟩, held⟩
    simp only [found, parts]
    exact mem_recordsOver_iff.2 ⟨front, record, back, before, rfl, led, held⟩

/-- Reading a whole message comes to a record in one of the messages that it opens. -/
def IsRead (set : CodecSet) (name : String) (bytes : List UInt8) (record : Record) : Prop :=
  ∃ depth type slice codec before, Opens set name bytes depth type slice ∧
    depth ≤ set.limits.maxDepth ∧
    set.Reaches (set.limits.maxDepth - depth) type slice codec before record

theorem isRead_of_mem_recordsWithin {depth : Nat} {type : String}
    (opens : Opens set name bytes depth type slice)
    (held : record ∈ recordsWithin set (set.limits.maxDepth + 1 - depth) type slice) :
    IsRead set name bytes record := by
  generalize left : set.limits.maxDepth + 1 - depth = levels at held
  induction levels generalizing depth type slice with
  | zero => cases held
  | succ levels ih =>
    obtain rfl : levels = set.limits.maxDepth - depth := by omega
    have deep : depth ≤ set.limits.maxDepth := by omega
    obtain ⟨codec, before, outer, reaches, rfl | held⟩ := mem_recordsWithin_iff.1 held
    · exact ⟨depth, type, slice, codec, before, opens, deep, reaches⟩
    · obtain ⟨plan, target, inner, planned, names, payload, held⟩ := mem_recordsInside_iff.1 held
      exact ih (.inside opens deep reaches planned names payload) (by omega) held

theorem mem_recordsWithin_of_opens {depth : Nat} {type : String}
    (opens : Opens set name bytes depth type slice)
    (held : record ∈ recordsWithin set (set.limits.maxDepth + 1 - depth) type slice) :
    record ∈ recordsWithin set (set.limits.maxDepth + 1) name ⟨0, bytes⟩ := by
  induction opens with
  | whole => exact held
  | inside outer deep reaches planned names payload ih =>
    rw [Nat.add_sub_add_right] at held
    rw [Nat.succ_sub deep] at ih
    exact ih (mem_recordsWithin_iff.2 ⟨_, _, _, reaches, .inr
      (mem_recordsInside_iff.2 ⟨_, _, _, planned, names, payload, held⟩)⟩)

theorem mem_recordsRead_iff :
    record ∈ recordsRead set name bytes ↔
      bytes.length ≤ set.limits.maxMessageSize ∧ IsRead set name bytes record := by
  unfold recordsRead
  split
  · rename_i tooLong
    simp [Nat.not_le.2 tooLong]
  · rename_i short
    rw [and_iff_right (Nat.not_lt.1 short)]
    constructor
    · exact isRead_of_mem_recordsWithin .whole
    · rintro ⟨depth, type, slice, codec, before, opens, deep, reaches⟩
      refine mem_recordsWithin_of_opens opens ?_
      rw [Nat.succ_sub deep]
      exact mem_recordsWithin_iff.2 ⟨codec, before, record, reaches, .inl rfl⟩

/-! ## Their number -/

theorem spaced_recordsInside {maxLength place : Nat}
    (each : ∀ target inner, Spaced inner.stop inner.offset (inside target inner))
    (form : record.Spells maxLength place bytes) :
    Spaced (place + bytes.length) (place + 2) (recordsInside inside codec record) := by
  unfold recordsInside
  split
  · rename_i target inner names payload
    obtain ⟨front, rfl, behind, start⟩ := form.exists_front payload
    have spaced := (each target inner).mono (show place + 2 ≤ inner.offset by omega)
    rwa [Slice.stop, start, Nat.add_assoc, ← List.length_append] at spaced
  · exact .nil (Nat.add_le_add_left form.two_le place)

theorem spaced_recordsOver {maxLength place stop : Nat} {records : List Record}
    (each : ∀ target inner, Spaced inner.stop inner.offset (inside target inner))
    (row : Record.Row maxLength place bytes records) (le : place + bytes.length ≤ stop)
    (start : Message) : Spaced stop place (recordsOver set nested inside codec start records) := by
  induction row generalizing start with
  | nil => exact .nil le
  | @cons place first rest record records head tail ih =>
    rw [List.length_append, ← Nat.add_assoc] at le
    refine .cons (Nat.le_of_eq head.offset.symm) ?_
    rw [head.offset]
    refine (spaced_recordsInside each head).append ?_
    split
    · exact ih le _
    · exact .nil (by omega)

/-- The records that reading a message comes to lie within it, one behind the start of another. -/
theorem spaced_recordsWithin (levels : Nat) (name : String) (slice : Slice) :
    Spaced slice.stop slice.offset (recordsWithin set levels name slice) := by
  induction levels generalizing name slice with
  | zero => exact .nil (Nat.le_add_right ..)
  | succ levels ih =>
    rw [recordsWithin]
    split
    · rename_i codec found
      cases parts : split set.limits.maxLength (.ofSlice slice) with
      | mk records broken =>
        obtain ⟨used, rest, whole, row⟩ := row_of_split parts
        refine spaced_recordsOver ih row ?_ _
        rw [Slice.stop, show slice.bytes = used ++ rest from whole, List.length_append]
        exact Nat.add_le_add_left (Nat.le_add_right ..) _
    · exact .nil (Nat.le_add_right ..)

/-- Reading ends, whatever the codecs and the limits are. Each record that is read leaves two bytes
less or more, each number of a run one byte less or more. Reading a message depends on that of
others only for shorter slices, so that there is one way of reading messages from those inside them
without a limit on levels; with more levels than half the bytes, reading comes to the same. And the
records that reading a whole message comes to, those that it reaches in any message it opens, ascend
and are at most half as many as there are bytes. -/
theorem decode_terminates (set : CodecSet) :
    (∀ maxLength cursor record finish, nextRecord maxLength cursor = .ok (record, finish) →
      finish.rest.length + 2 ≤ cursor.rest.length) ∧
    (∀ layout cursor n finish, Read.word layout cursor = .ok n finish →
      finish.rest.length + 1 ≤ cursor.rest.length) ∧
    (∀ nested nested' name slice, (∀ type inner, inner.bytes.length < slice.bytes.length →
        nested type inner = nested' type inner) →
      decodeOver set nested name slice = decodeOver set nested' name slice) ∧
    (∀ nested, (∀ name slice, nested name slice = decodeOver set nested name slice) ↔
      nested = decodeUnlimited set) ∧
    (∀ levels name slice, slice.bytes.length < 2 * levels →
      decodeWithin set levels name slice = decodeUnlimited set name slice) ∧
    ∀ name bytes,
      (∀ record, record ∈ recordsRead set name bytes ↔
        bytes.length ≤ set.limits.maxMessageSize ∧ IsRead set name bytes record) ∧
      (recordsRead set name bytes).Pairwise (·.offset < ·.offset) ∧
      2 * (recordsRead set name bytes).length ≤ bytes.length := by
  refine ⟨fun maxLength cursor record finish => nextRecord_le,
    fun layout cursor n finish => Read.word_lt,
    fun nested nested' name slice alike =>
      decodeOver_congr (fun type inner shorter => alike type inner (by omega)) name,
    fun nested => eq_decodeUnlimited_iff,
    fun levels name slice enough => decodeWithin_eq_decodeUnlimited enough name,
    fun name bytes => ⟨fun record => mem_recordsRead_iff, ?_⟩⟩
  unfold recordsRead
  split
  · exact ⟨.nil, Nat.zero_le _⟩
  · have spaced : Spaced _ _ (recordsWithin set _ _ _) :=
      spaced_recordsWithin (set.limits.maxDepth + 1) name ⟨0, bytes⟩
    refine ⟨spaced.pairwise, ?_⟩
    simpa only [Slice.stop, Nat.zero_add] using spaced.length_le

/-- An entry whose child is empty: as many records as half the bytes. -/
example :
    (recordsRead ((ofSchema .tree).withLimits {}) "Node" [18, 2, 18, 0]).length = 2 := by
  with_unfolding_all rfl

end CodecSet

end Protobuf
