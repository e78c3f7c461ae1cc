import Protobuf.Number.Binary
import Protobuf.Proofs.Wire.Place

/-! # Sessions with a reader

A reader is asked for one thing after another, also behind reads that failed, and payloads can be
opened as buffers of their own and read in between. Whatever is asked for, a cursor never leaves its
buffer and never goes back, every buffer stands where its place says, and what is read depends on
nothing but the bytes it was read from. Main statement: `session_sound`.

## Implementation notes

A reply that opens a buffer tells where this buffer stands, which is the one thing about a reply
that other bytes in front change. Such a buffer ends where the read of it ended, so replies are
compared with their ends moved there. -/

namespace Protobuf.Wire

open Number

/-- What a reader can be asked for. -/
inductive Operation
  | byte
  | bytes (count : Nat)
  | varint
  | varint32
  | zigzag64
  | zigzag32
  | bool
  | fixed32
  | fixed64
  | float
  | double
  | payload (maxLength : Nat)
  | text (maxLength : Nat)
  | key
  | skip (maxLength : Nat) (wireType : WireType)
  /-- A payload, as a buffer of its own. -/
  | enter (maxLength : Nat)
deriving DecidableEq, Repr

/-- What a reader answers. -/
inductive Reply
  | byte (value : UInt8)
  | bytes (data : List UInt8)
  | word (value : Nat)
  | signed (value : Int)
  | bool (value : Bool)
  | float (value : Binary32)
  | double (value : Binary64)
  | text (value : String)
  | key (value : Key)
  | buffer (slice : Slice)
deriving DecidableEq, Repr

/-- The read that answers what is asked for. -/
def Operation.read : Operation → Read Reply
  | .byte => .byte <$> Read.byte
  | .bytes count => .bytes <$> Read.bytes count
  | .varint => .word <$> Read.varint
  | .varint32 => .word <$> Read.varint32
  | .zigzag64 => .signed <$> Read.zigzag64
  | .zigzag32 => .signed <$> Read.zigzag32
  | .bool => .bool <$> Read.bool
  | .fixed32 => .word <$> Read.fixed32
  | .fixed64 => .word <$> Read.fixed64
  | .float => (fun n => .float ⟨n.toUInt32⟩) <$> Read.fixed32
  | .double => (fun n => .double ⟨n.toUInt64⟩) <$> Read.fixed64
  | .payload maxLength => (fun slice => .bytes slice.bytes) <$> Read.payload maxLength
  | .text maxLength => .text <$> Read.text maxLength
  | .key => .key <$> Read.key
  | .skip maxLength wireType => .bytes <$> Read.skip maxLength wireType
  | .enter maxLength => .buffer <$> Read.payload maxLength

/-- A reply with the buffer that it opens, if any, moved so that it ends at a place. -/
def Reply.endingAt (stop : Nat) : Reply → Reply
  | .buffer slice => .buffer ⟨stop - slice.bytes.length, slice.bytes⟩
  | reply => reply

/-- A buffer that is being read. -/
structure Buffer where
  data : List UInt8
  cursor : Cursor
deriving DecidableEq, Repr

/-- A slice as a buffer that nothing was read of. -/
def Buffer.ofSlice (slice : Slice) : Buffer :=
  ⟨slice.bytes, .ofSlice slice⟩

/-- The buffers that a reply opens. -/
def Reply.opened : Reply → List Buffer
  | .buffer slice => [.ofSlice slice]
  | _ => []

/-- An operation on one of the open buffers. -/
structure Request where
  target : Nat
  operation : Operation
deriving DecidableEq, Repr

/-- The open buffers behind a request. The one that was read stands where the read left it, also
where it failed, and one that was opened comes last. -/
def Request.step (buffers : List Buffer) (request : Request) : List Buffer :=
  match buffers[request.target]? with
  | none => buffers
  | some buffer =>
    match request.operation.read buffer.cursor with
    | .ok reply finish => buffers.set request.target ⟨buffer.data, finish⟩ ++ reply.opened
    | .error _ finish => buffers.set request.target ⟨buffer.data, finish⟩

/-- The open buffers behind a row of requests, the outermost one first. -/
def session (slice : Slice) (requests : List Request) : List Buffer :=
  requests.foldl Request.step [.ofSlice slice]

/-! ## Single reads -/

namespace Read

variable {α β : Type} {read : Read α} {origin : Nat}

/-- A read that succeeds moves over some bytes, and comes to the same wherever these bytes are next.
A buffer that it opens ends where they end. -/
def Local (read : Read Reply) : Prop :=
  ∀ cursor reply finish, read cursor = .ok reply finish →
    ∃ used rest, cursor.rest = used ++ rest ∧ finish = cursor.past used rest ∧
      reply.endingAt finish.offset = reply ∧
      ∀ (other : Cursor) (more : List UInt8), other.rest = used ++ more →
        read other = .ok (reply.endingAt (other.past used more).offset) (other.past used more)

/-- A read is local if the value that some bytes have at a place is, with its end moved, the one
that they have anywhere else. -/
theorem Takes.isLocal {form : Nat → List UInt8 → α → Prop} (takes : read.Takes form)
    {f : α → Reply}
    (settled : ∀ place used a, form place used a → (f a).endingAt (place + used.length) = f a)
    (moves : ∀ place used a, form place used a → ∀ other,
      ∃ b, form other used b ∧ f b = (f a).endingAt (other + used.length)) :
    Local (f <$> read) := by
  intro cursor reply finish done
  obtain ⟨a, first, rfl⟩ := map_eq_ok_iff.1 done
  obtain ⟨used, rest, front, rfl, holds⟩ := (takes _ _ _).1 first
  rw [Cursor.offset_past]
  refine ⟨used, rest, front, rfl, settled _ _ _ holds, fun other more front' => ?_⟩
  rw [Cursor.offset_past]
  obtain ⟨b, holds', same⟩ := moves _ _ _ holds other.offset
  exact map_eq_ok_iff.2 ⟨b, (takes _ _ _).2 ⟨used, more, front', rfl, holds'⟩, same⟩

/-- What is read off the bytes alone, whatever their place, is local. -/
theorem Takes.isLocal_of_bytes {form : List UInt8 → α → Prop} (takes : read.Takes fun _ => form)
    {f : α → Reply} (plain : ∀ stop a, (f a).endingAt stop = f a) : Local (f <$> read) :=
  takes.isLocal (fun _ _ a _ => plain _ a) fun _ _ a holds _ => ⟨a, holds, (plain _ a).symm⟩

end Read

namespace Operation

/-- Whatever is asked for, the answer depends on nothing but the bytes that it was read from. -/
theorem isLocal (operation : Operation) : operation.read.Local := by
  cases operation with
  | byte =>
    have takes := (Read.takes_bytes 1).bind fun data => Read.takes_pure (data.headD 0)
    exact takes.isLocal_of_bytes fun _ _ => rfl
  | bytes count => exact (Read.takes_bytes count).isLocal_of_bytes fun _ _ => rfl
  | varint => exact Read.takes_varint.isLocal_of_bytes fun _ _ => rfl
  | varint32 => exact (Read.takes_varint.map _).isLocal_of_bytes fun _ _ => rfl
  | zigzag64 => exact (Read.takes_varint.map _).isLocal_of_bytes fun _ _ => rfl
  | zigzag32 => exact ((Read.takes_varint.map _).map _).isLocal_of_bytes fun _ _ => rfl
  | bool => exact (Read.takes_varint.map _).isLocal_of_bytes fun _ _ => rfl
  | fixed32 => exact (Read.takes_word .fixed32).isLocal_of_bytes fun _ _ => rfl
  | fixed64 => exact (Read.takes_word .fixed64).isLocal_of_bytes fun _ _ => rfl
  | float => exact (Read.takes_word .fixed32).isLocal_of_bytes fun _ _ => rfl
  | double => exact (Read.takes_word .fixed64).isLocal_of_bytes fun _ _ => rfl
  | payload maxLength =>
    refine (Read.takes_payload maxLength).isLocal (fun _ _ _ _ => rfl) ?_
    rintro place used slice ⟨length, form, short, -, rfl⟩ other
    exact ⟨⟨other + length.length, slice.bytes⟩, ⟨length, form, short, rfl, rfl⟩, rfl⟩
  | text maxLength => exact (Read.takes_text maxLength).isLocal_of_bytes fun _ _ => rfl
  | key => exact Read.takes_key.isLocal_of_bytes fun _ _ => rfl
  | skip maxLength wireType =>
    exact (Read.takes_skip maxLength wireType).isLocal_of_bytes fun _ _ => rfl
  | enter maxLength =>
    -- A buffer that is opened is told by where it ends, which is where the read of it ended.
    have ends (place : Nat) (length bytes : List UInt8) :
        place + (length ++ bytes).length - bytes.length = place + length.length := by
      rw [List.length_append]
      omega
    refine (Read.takes_payload maxLength).isLocal ?_ ?_
    · rintro place used ⟨start, bytes⟩ ⟨length, form, short, rfl, rfl⟩
      simp only [Reply.endingAt, ends]
    · rintro place used slice ⟨length, form, short, -, rfl⟩ other
      refine ⟨⟨other + length.length, slice.bytes⟩, ⟨length, form, short, rfl, rfl⟩, ?_⟩
      simp only [Reply.endingAt, ends]

theorem failsFrom (operation : Operation) {origin : Nat} : operation.read.FailsFrom origin := by
  cases operation with
  | byte =>
    exact ((Read.failsFrom_bytes 1).bind (Read.takes_bytes 1) fun _ => Read.failsFrom_pure _).map _
  | bytes count => exact (Read.failsFrom_bytes count).map _
  | varint => exact Read.failsFrom_varint.map _
  | varint32 => exact (Read.failsFrom_varint.map _).map _
  | zigzag64 => exact (Read.failsFrom_varint.map _).map _
  | zigzag32 => exact ((Read.failsFrom_varint.map _).map _).map _
  | bool => exact (Read.failsFrom_varint.map _).map _
  | fixed32 => exact (Read.failsFrom_word .fixed32).map _
  | fixed64 => exact (Read.failsFrom_word .fixed64).map _
  | float => exact (Read.failsFrom_word .fixed32).map _
  | double => exact (Read.failsFrom_word .fixed64).map _
  | payload maxLength => exact (Read.failsFrom_payload maxLength).map _
  | text maxLength => exact (Read.failsFrom_text maxLength).map _
  | key => exact Read.failsFrom_key.map _
  | skip maxLength wireType => exact (Read.failsFrom_skip maxLength wireType).map _
  | enter maxLength => exact (Read.failsFrom_payload maxLength).map _

/-- A buffer that is opened is a part of what was left of the buffer that is read, and stands where
this part does. -/
theorem exists_part {operation : Operation} {cursor finish : Cursor} {slice : Slice}
    (done : operation.read cursor = .ok (.buffer slice) finish) :
    ∃ front rest, cursor.rest = front ++ slice.bytes ++ rest ∧
      slice.offset = cursor.offset + front.length := by
  cases operation with
  | enter maxLength =>
    obtain ⟨_, first, ⟨⟩⟩ := Read.map_eq_ok_iff.1 done
    obtain ⟨_, rest, front, -, length, -, -, place, rfl⟩ :=
      (Read.takes_payload maxLength _ _ _).1 first
    exact ⟨length, rest, front, place⟩
  | _ => obtain ⟨_, -, ⟨⟩⟩ := Read.map_eq_ok_iff.1 done

end Operation

/-! ## Rows of requests -/

/-- A buffer is the part of an input that its place says, and its cursor stands in it. -/
structure Buffer.Within (outer : Slice) (buffer : Buffer) : Prop where
  split : ∃ used, buffer.data = used ++ buffer.cursor.rest ∧ buffer.cursor.index = used.length
  part : ∃ front back, outer.bytes = front ++ buffer.data ++ back ∧
    buffer.cursor.base = outer.offset + front.length

/-- A buffer is the same one as another, with its cursor further on. -/
structure Buffer.Precedes (buffer later : Buffer) : Prop where
  data : later.data = buffer.data
  onward : buffer.cursor.Onward later.cursor

namespace Buffer.Within

variable {outer : Slice} {buffer : Buffer}

theorem ofSlice (outer : Slice) : Within outer (.ofSlice outer) :=
  ⟨⟨[], rfl, rfl⟩, [], [], by simp [Buffer.ofSlice], rfl⟩

theorem stop_eq (within : buffer.Within outer) :
    buffer.cursor.stop = buffer.cursor.base + buffer.data.length := by
  obtain ⟨used, split, index⟩ := within.split
  simp only [Cursor.stop, Cursor.offset, index, split, List.length_append]
  omega

theorem stop_le (within : buffer.Within outer) :
    buffer.cursor.base + buffer.data.length ≤ outer.stop := by
  obtain ⟨front, back, whole, base⟩ := within.part
  simp only [base, Slice.stop, whole, List.length_append]
  omega

/-- A buffer stays within the input when its cursor moves on. -/
theorem precedes {later : Buffer} (within : buffer.Within outer)
    (precedes : buffer.Precedes later) : later.Within outer := by
  obtain ⟨used, split, index⟩ := within.split
  obtain ⟨data, more, rest, front, moved⟩ := precedes
  refine ⟨⟨used ++ more, ?_, ?_⟩, ?_⟩
  · rw [data, split, front, moved, Cursor.rest_past, List.append_assoc]
  · rw [moved, Cursor.past, index, List.length_append]
  · rw [data, moved]
    exact within.part

/-- A part of what is left of a buffer is, at its place, within the input. -/
theorem opened {slice : Slice} (within : buffer.Within outer) {front rest : List UInt8}
    (here : buffer.cursor.rest = front ++ slice.bytes ++ rest)
    (place : slice.offset = buffer.cursor.offset + front.length) :
    (Buffer.ofSlice slice).Within outer := by
  obtain ⟨used, split, index⟩ := within.split
  obtain ⟨before, behind, whole, base⟩ := within.part
  refine ⟨⟨[], rfl, rfl⟩, before ++ used ++ front, rest ++ behind, ?_, ?_⟩
  · simp only [whole, split, here, Buffer.ofSlice, List.append_assoc]
  · simp only [Buffer.ofSlice, Cursor.ofSlice, place, Cursor.offset, base, index,
      List.length_append, Nat.add_assoc]

end Buffer.Within

namespace Request

variable {outer : Slice} {buffers : List Buffer} {request : Request}

/-- What a request does: nothing, or it moves one cursor on and opens parts of what its buffer has
left. -/
theorem step_cases (buffers : List Buffer) (request : Request) :
    request.step buffers = buffers ∨
      ∃ buffer later opened, buffers[request.target]? = some buffer ∧ buffer.Precedes later ∧
        request.step buffers = buffers.set request.target later ++ opened ∧
        ∀ new ∈ opened, ∀ outer, buffer.Within outer → new.Within outer := by
  unfold step
  split
  · exact .inl rfl
  · rename_i buffer found
    refine .inr ⟨buffer, ?_⟩
    split
    · rename_i reply finish done
      obtain ⟨used, rest, front, moved, -⟩ := request.operation.isLocal _ _ _ done
      refine ⟨⟨buffer.data, finish⟩, reply.opened, found, ⟨rfl, used, rest, front, moved⟩, rfl, ?_⟩
      cases reply with
      | buffer slice =>
        obtain ⟨front, rest, here, place⟩ := Operation.exists_part done
        intro new held outer within
        obtain rfl := List.mem_singleton.1 held
        exact within.opened here place
      | _ => simp [Reply.opened]
    · rename_i error finish failed
      obtain ⟨onward, -⟩ := request.operation.failsFrom _ _ _ (Nat.zero_le _) failed
      exact ⟨⟨buffer.data, finish⟩, [], found, ⟨rfl, onward⟩, (List.append_nil _).symm, by simp⟩

/-- A request leaves all buffers within the input. -/
theorem within_step (within : ∀ buffer ∈ buffers, buffer.Within outer) :
    ∀ buffer ∈ request.step buffers, buffer.Within outer := by
  obtain same | ⟨buffer, later, opened, found, precedes, same, inside⟩ :=
    step_cases buffers request
  · rwa [same]
  · have here := within buffer (List.mem_of_getElem? found)
    intro new held
    rw [same, List.mem_append] at held
    obtain held | held := held
    · obtain held | rfl := List.mem_or_eq_of_mem_set held
      · exact within new held
      · exact here.precedes precedes
    · exact inside new held outer here

/-- A request leaves every buffer where it is in the row, with its cursor moved on at most. -/
theorem precedes_step (request : Request) {i : Nat} {buffer : Buffer}
    (found : buffers[i]? = some buffer) :
    ∃ later, (request.step buffers)[i]? = some later ∧ buffer.Precedes later := by
  obtain same | ⟨read, later, opened, target, precedes, same, -⟩ := step_cases buffers request
  · exact ⟨buffer, by rw [same, found], rfl, .refl _⟩
  · obtain ⟨bound, -⟩ := List.getElem?_eq_some_iff.1 found
    rw [same, List.getElem?_append_left (by rwa [List.length_set]), List.getElem?_set]
    by_cases here : request.target = i
    · subst here
      obtain rfl := Option.some.inj (target.symm.trans found)
      exact ⟨later, by simp [bound], precedes⟩
    · exact ⟨buffer, by simp [here, found], rfl, .refl _⟩

end Request

/-- Requests leave all buffers within the input. -/
theorem within_foldl_step {outer : Slice} {buffers : List Buffer}
    (within : ∀ buffer ∈ buffers, buffer.Within outer) (requests : List Request) :
    ∀ buffer ∈ requests.foldl Request.step buffers, buffer.Within outer := by
  induction requests generalizing buffers with
  | nil => exact within
  | cons request requests ih => exact ih (Request.within_step within)

theorem within_session (slice : Slice) (requests : List Request) :
    ∀ buffer ∈ session slice requests, buffer.Within slice := by
  apply within_foldl_step
  intro buffer held
  obtain rfl := List.mem_singleton.1 held
  exact .ofSlice slice

/-- A buffer stays open behind further requests, with its cursor moved on at most. -/
theorem precedes_foldl_step {buffers : List Buffer} {i : Nat} {buffer : Buffer}
    (found : buffers[i]? = some buffer) (requests : List Request) :
    ∃ later, (requests.foldl Request.step buffers)[i]? = some later ∧ buffer.Precedes later := by
  induction requests generalizing buffers buffer with
  | nil => exact ⟨buffer, found, rfl, .refl _⟩
  | cons request requests ih =>
    obtain ⟨middle, found', data, onward⟩ := request.precedes_step found
    obtain ⟨later, found'', data', onward'⟩ := ih found'
    exact ⟨later, found'', data'.trans data, onward.trans onward'⟩

/-- Whatever a reader of an input is asked for, one thing behind another and behind failures as
well, each buffer that is open has its cursor within its data and is the part of the input that its
base says; what it answers next depends on nothing but the bytes that the read moves over; a fault
lies between its cursor and its end; and from then on its cursor is never moved back. -/
theorem session_sound (slice : Slice) (requests : List Request) (i : Nat) (buffer : Buffer)
    (held : (session slice requests)[i]? = some buffer) :
    (buffer.cursor.index ≤ buffer.data.length ∧
      buffer.cursor.index + buffer.cursor.remaining = buffer.data.length ∧
      buffer.cursor.offset = buffer.cursor.base + buffer.cursor.index ∧
      buffer.cursor.base + buffer.data.length ≤ slice.offset + slice.bytes.length) ∧
    (∃ front back, slice.bytes = front ++ buffer.data ++ back ∧
      buffer.cursor.base = slice.offset + front.length) ∧
    (∀ operation reply finish, Operation.read operation buffer.cursor = .ok reply finish →
      ∃ used rest, buffer.cursor.rest = used ++ rest ∧ finish = buffer.cursor.past used rest ∧
        reply.endingAt finish.offset = reply ∧
        ∀ (other : Cursor) (more : List UInt8), other.rest = used ++ more →
          operation.read other =
            .ok (reply.endingAt (other.past used more).offset) (other.past used more)) ∧
    (∀ operation error finish, Operation.read operation buffer.cursor = .error error finish →
      buffer.cursor.offset ≤ error.offset ∧
        error.offset ≤ buffer.cursor.base + buffer.data.length) ∧
    ∀ more, ∃ later, (session slice (requests ++ more))[i]? = some later ∧
      later.data = buffer.data ∧ later.cursor.base = buffer.cursor.base ∧
      buffer.cursor.index ≤ later.cursor.index := by
  have within := within_session slice requests buffer (List.mem_of_getElem? held)
  obtain ⟨used, split, index⟩ := within.split
  have length := congrArg List.length split
  rw [List.length_append] at length
  refine ⟨⟨by omega, ?_, rfl, within.stop_le⟩, within.part, ?_, ?_, ?_⟩
  · rw [Cursor.remaining, length, index]
  · exact fun operation reply finish done => operation.isLocal _ _ _ done
  · intro operation error finish failed
    obtain ⟨-, le, le'⟩ := operation.failsFrom _ _ _ (Nat.le_refl _) failed
    exact ⟨le, within.stop_eq ▸ le'⟩
  · intro more
    obtain ⟨later, found, data, ⟨moved, rest, -, same⟩⟩ := precedes_foldl_step held more
    refine ⟨later, ?_, data, ?_, ?_⟩
    · rwa [session, List.foldl_append]
    · rw [same, Cursor.past]
    · rw [same, Cursor.past]
      exact Nat.le_add_right ..

/-- A buffer that was opened in the middle of an input, of which a number was read and a second
one, which is cut off, could not be. -/
theorem session_sound_cut :
    let slice : Slice := ⟨40, [0x0A, 0x03, 0x80, 0x01, 0xFF, 0x05]⟩
    let requests : List Request :=
      [⟨0, .fixed64⟩, ⟨0, .key⟩, ⟨0, .enter 3⟩, ⟨1, .varint⟩, ⟨0, .byte⟩, ⟨1, .text 9⟩]
    let buffer : Buffer := ⟨[0x80, 0x01, 0xFF], ⟨42, 2, [0xFF]⟩⟩
    (session slice requests)[1]? = some buffer ∧
      buffer.cursor.offset ≤ 44 ∧ 44 ≤ buffer.cursor.base + buffer.data.length ∧
      ∀ more, ∃ later, (session slice (requests ++ more))[1]? = some later ∧
        later.data = buffer.data ∧ later.cursor.base = buffer.cursor.base ∧
        buffer.cursor.index ≤ later.cursor.index := by
  intro slice requests buffer
  have held : (session slice requests)[1]? = some buffer := by decide
  have failed : Operation.read (.text 9) buffer.cursor =
    .error (.malformedVarint 44) buffer.cursor := rfl
  obtain ⟨-, -, -, faults, later⟩ := session_sound slice requests 1 buffer held
  obtain ⟨le, le'⟩ := faults _ _ _ failed
  exact ⟨held, le, le', later⟩

end Protobuf.Wire
