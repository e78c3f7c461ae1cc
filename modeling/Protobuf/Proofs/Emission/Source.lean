import Protobuf.Emission.Encoder

/-! # Keys in emitted text

The keys that pieces of source write to the buffer of a message are those that their lines pass to
it, from top to bottom, if no other line starts like a call that writes bytes as they are. Main
statements: `Source.Plain.keyLines_lines`, and `keyLines_emitEncoder` for what the emitter makes.

## Implementation notes

Most lines are known by their first letters, whatever identifiers follow. `Settled` says this of a
text and of everything that it can be the front of. -/

namespace Protobuf.Emission

namespace Source

variable {buffer : String}

@[simp] theorem allKeysTo_nil : allKeysTo buffer [] = [] := rfl

@[simp] theorem allKeysTo_cons (source : Source) (rest : List Source) :
    allKeysTo buffer (source :: rest) = source.keysTo buffer ++ allKeysTo buffer rest := rfl

@[simp] theorem allKeysTo_append (sources more : List Source) :
    allKeysTo buffer (sources ++ more) = allKeysTo buffer sources ++ allKeysTo buffer more := by
  induction sources with
  | nil => rfl
  | cons source rest ih => simp [ih]

@[simp] theorem keysTo_line (text : String) : keysTo buffer (.line text) = [] := rfl

@[simp] theorem keysTo_writeKey (key : List UInt8) : keysTo buffer (.writeKey buffer key) = [key] :=
  if_pos rfl

@[simp] theorem keysTo_block (opening : String) (body : List Source) :
    keysTo buffer (Emission.block opening body) = allKeysTo buffer body := rfl

/-- A line without the blanks that set it in. -/
def trimmed (line : String) : String :=
  String.ofList (line.toList.dropWhile (· = ' '))

/-- Whether a line starts with a call that writes bytes as they are to the buffer of a message. -/
def writesBytes (line : String) : Bool :=
  "bb.write_bytes(".toList.isPrefixOf line.toList

/-- The lines that start with such a call, without the blanks that set them in. -/
def keyLines (lines : List String) : List String :=
  (lines.map trimmed).filter writesBytes

/-- The line that writes a key to the buffer of a message. -/
def keyLine (key : List UInt8) : String :=
  "bb.write_bytes(" ++ keyLiteral key ++ ");"

/-- A text is not set in, and does not start with such a call. -/
structure Quiet (text : String) : Prop where
  flush : text.toList.head? ≠ some ' '
  other : writesBytes text = false

/-- Only statements that are marked become such lines. -/
inductive Plain : Source → Prop
  | blank : Plain .blank
  | line {text : String} (quiet : Quiet text) : Plain (.line text)
  | own (key : List UInt8) : Plain (.writeKey "bb" key)
  | entry (key : List UInt8) : Plain (.writeKey "entry" key)
  | block {opening : String} {body : List Source} (quiet : Quiet (opening ++ " \x7b"))
    (inside : ∀ source ∈ body, Plain source) : Plain (.block opening body "")

theorem keyLines_append (lines more : List String) :
    keyLines (lines ++ more) = keyLines lines ++ keyLines more := by
  rw [keyLines, List.map_append, List.filter_append]
  rfl

theorem trimmed_indented {text : String} (flush : text.toList.head? ≠ some ' ') (level : Nat) :
    trimmed (indented level text) = text := by
  have blanks : ∀ c ∈ List.replicate (4 * level) ' ', decide (c = ' ') = true := by simp
  have first : text.toList.dropWhile (· = ' ') = text.toList := by
    cases letters : text.toList with
    | nil => rfl
    | cons c rest =>
      have apart : ¬decide (c = ' ') = true := by simpa [letters] using flush
      exact List.dropWhile_cons_of_neg apart
  rw [trimmed, indented, String.toList_append, String.toList_ofList,
    List.dropWhile_append_of_pos blanks, first, String.ofList_toList]

theorem Quiet.keyLines_indented {text : String} (quiet : Quiet text) (level : Nat) :
    keyLines [indented level text] = [] := by
  rw [keyLines, List.map_singleton, trimmed_indented quiet.flush]
  exact List.filter_cons_of_neg (by simp [quiet.other])

theorem keyLines_keyLine (key : List UInt8) (level : Nat) :
    keyLines [indented level (keyLine key)] = [keyLine key] := by
  have letters : (keyLine key).toList =
      "bb.write_bytes(".toList ++ (keyLiteral key ++ ");").toList :=
    (congrArg String.toList String.append_assoc).trans String.toList_append
  have flush : (keyLine key).toList.head? ≠ some ' ' := by rw [letters]; simp
  have call : writesBytes (keyLine key) = true := by
    rw [writesBytes, letters]
    exact List.isPrefixOf_iff_prefix.2 (List.prefix_append _ _)
  rw [keyLines, List.map_singleton, trimmed_indented flush]
  exact List.filter_cons_of_pos call

/-- However a text goes on, it does not start with another one. -/
def Apart (start text : String) : Prop :=
  ∀ more, ¬start.toList <+: text.toList ++ more

theorem Apart.append {start text : String} (apart : Apart start text) (more : String) :
    Apart start (text ++ more) := by
  intro rest
  rw [String.toList_append, List.append_assoc]
  exact apart _

theorem Apart.behind {start text : String} (apart : Apart start text) (front : String) :
    Apart (front ++ start) (front ++ text) := by
  intro rest
  rw [String.toList_append, String.toList_append, List.append_assoc, List.prefix_append_right_inj]
  exact apart rest

/-- However a text goes on, it is not set in and does not start with such a call. -/
structure Settled (text : String) : Prop where
  flush : ∃ c, text.toList.head? = some c ∧ c ≠ ' '
  other : Apart "bb.write_bytes(" text

theorem Settled.append {text : String} (settled : Settled text) (more : String) :
    Settled (text ++ more) := by
  obtain ⟨c, head, flush⟩ := settled.flush
  refine ⟨⟨c, ?_, flush⟩, settled.other.append more⟩
  rw [String.toList_append, List.head?_append, head]
  rfl

/-- A call on the buffer of a message is settled by the name of the method. -/
theorem settled_call {call : String} (other : Apart "write_bytes(" call) :
    Settled ("bb." ++ call) := by
  refine ⟨⟨'b', ?_, by decide⟩, other.behind "bb."⟩
  rw [String.toList_append]
  rfl

theorem Settled.quiet {text : String} (settled : Settled text) : Quiet text := by
  obtain ⟨c, head, flush⟩ := settled.flush
  refine ⟨fun blank => flush (Option.some.inj (head.symm.trans blank)), ?_⟩
  have other := settled.other []
  rwa [List.append_nil, ← List.isPrefixOf_iff_prefix, Bool.not_eq_true] at other

/-- Pieces have the lines that each of them has. -/
theorem keyLines_linesAll_of_each {sources : List Source} {level : Nat}
    (each : ∀ source ∈ sources, keyLines (source.lines level) = (source.keysTo "bb").map keyLine) :
    keyLines (linesAll level sources) = (allKeysTo "bb" sources).map keyLine := by
  induction sources with
  | nil => rfl
  | cons source rest ih =>
    rw [linesAll, keyLines_append, each source List.mem_cons_self,
      ih fun other held => each other (List.mem_cons_of_mem _ held), allKeysTo_cons,
      List.map_append]

/-- The lines of a piece that write bytes as they are to the buffer of a message write its keys. -/
theorem Plain.keyLines_lines {source : Source} (plain : Plain source) (level : Nat) :
    keyLines (source.lines level) = (source.keysTo "bb").map keyLine := by
  induction plain generalizing level with
  | blank => rfl
  | line quiet => exact quiet.keyLines_indented level
  | own key =>
    rw [keysTo_writeKey]
    exact keyLines_keyLine key level
  | entry key =>
    have entry : Settled "entry" := ⟨⟨'e', rfl, by decide⟩, fun _ => by simp⟩
    have quiet := (((entry.append ".write_bytes(").append (keyLiteral key)).append ");").quiet
    rw [keysTo, if_neg (by decide)]
    exact quiet.keyLines_indented level
  | block quiet _ ih =>
    have closing : Quiet ("\x7d" ++ "") :=
      Settled.quiet ⟨⟨'\x7d', rfl, by decide⟩, fun _ => by simp⟩
    rw [lines, ← List.singleton_append, keyLines_append, keyLines_append,
      quiet.keyLines_indented, closing.keyLines_indented,
      keyLines_linesAll_of_each fun source held => ih source held (level + 1), List.append_nil,
      List.nil_append]
    rfl

end Source

open Source

/-! ## What the emitter makes -/

theorem apart_writeNumber (value : String) (kind : Numeric) :
    Apart "write_bytes(" (writeNumber value kind) := by
  cases kind <;> exact (Apart.append (fun _ => by simp) _).append _

theorem plain_writeScalar (scalar : Scalar) (place : Place) :
    Plain (writeScalar "bb" scalar place) := by
  have call : ∀ text, Apart "write_bytes(" text → Plain (.line ("bb" ++ "." ++ text ++ ";")) :=
    fun text apart => .line ((settled_call apart).append ";").quiet
  cases scalar with
  | numeric kind => exact call _ (apart_writeNumber _ kind)
  | string => exact call _ ((Apart.append (fun _ => by simp) _).append _)
  | bytes => exact call _ ((Apart.append (fun _ => by simp) _).append _)

/-- What is written to another buffer is no call on the buffer of a message. -/
theorem plain_writeScalar_of_settled {target : String} (settled : Settled target) (scalar : Scalar)
    (place : Place) : Plain (writeScalar target scalar place) :=
  .line (((settled.append ".").append _).append ";").quiet

/-- A text that starts like neither a blank nor the name of the buffer of a message is settled. -/
theorem settled_of_head {text : String} {c : Char} {rest : List Char}
    (letters : text.toList = c :: rest) (flush : c ≠ ' ') (other : c ≠ 'b') : Settled text := by
  refine ⟨⟨c, by rw [letters]; rfl, flush⟩, fun more => ?_⟩
  rw [letters]
  simp [Ne.symm other]

theorem settled_front {text : String} {c : Char} {rest : List Char}
    (letters : text.toList = c :: rest) (flush : c ≠ ' ') (other : c ≠ 'b') (more : String) :
    Settled (text ++ more) :=
  (settled_of_head letters flush other).append more

theorem plain_block {opening : String} {body : List Source} (settled : Settled opening)
    (inside : ∀ source ∈ body, Plain source) : Plain (Emission.block opening body) :=
  .block (settled.append " \x7b").quiet inside

/-- A statement that writes a key and a value, when there is one. -/
theorem plain_write {opening : String} {key : List UInt8} {write : Source}
    (settled : Settled opening) (plain : Plain write) :
    Plain (Emission.block opening [.writeKey "bb" key, write]) :=
  plain_block settled
    (List.forall_mem_cons.2 ⟨.own key, List.forall_mem_singleton.2 plain⟩)

theorem plain_writeNested (value : String) : Plain (writeNested "bb" value) := by
  have other : Apart ".write_bytes(" ".write_length_delimited(&" := fun _ => by simp
  have start : Settled ("bb" ++ ".write_length_delimited(&") :=
    ⟨⟨'b', by rw [String.toList_append]; rfl, by decide⟩, other.behind "bb"⟩
  exact .line ((start.append value).append ".encode());").quiet

theorem settled_whenSet (identifier : String) (scalar : Scalar) :
    Settled (whenSet identifier scalar).1 := by
  cases scalar <;> exact settled_front rfl (by decide) (by decide) _

theorem settled_forEach (identifier : String) (scalar : Scalar) :
    Settled (forEach identifier scalar).1 := by
  cases scalar <;> exact settled_front rfl (by decide) (by decide) _

/-- The halves of an entry are written to a buffer of its own. -/
theorem plain_writeHalf (entry : MessageCodec) (tag : Nat) (type : FieldType)
    (reference : String) : ∀ source ∈ writeHalf entry tag type reference, Plain source := by
  have settled : Settled "entry" := settled_of_head rfl (by decide) (by decide)
  unfold writeHalf
  split
  · exact List.forall_mem_nil _
  · split
    · refine List.forall_mem_singleton.2 (plain_block ?_ (List.forall_mem_cons.2
        ⟨.entry _, List.forall_mem_singleton.2 (plain_writeScalar_of_settled settled _ _)⟩))
      exact settled_front rfl (by decide) (by decide) _
    · refine List.forall_mem_cons.2 ⟨.entry _, List.forall_mem_singleton.2 (.line ?_)⟩
      exact ((settled.append _).append _ |>.append _).quiet

/-- The bytes of another buffer are written with their length. -/
theorem plain_writeBuffer (target : String) : Plain (writeBuffer target) := by
  have start : Settled "bb.write_length_delimited(" :=
    ⟨⟨'b', rfl, by decide⟩, fun _ => by simp⟩
  exact .line ((start.append target).append ".as_slice());").quiet

theorem plain_writeField (codecs : CodecSet) (plan : FieldPlan) (type : FieldType)
    (identifier : String) : ∀ source ∈ writeField codecs plan type identifier, Plain source := by
  unfold writeField
  split
  · exact List.forall_mem_singleton.2
      (plain_write (settled_front rfl (by decide) (by decide) _) (plain_writeScalar _ _))
  · exact List.forall_mem_singleton.2
      (plain_write (settled_whenSet identifier _) (plain_writeScalar _ _))
  · exact List.forall_mem_singleton.2
      (plain_write (settled_forEach identifier _) (plain_writeScalar _ _))
  · have packed : Settled "packed" := settled_of_head rfl (by decide) (by decide)
    have opening : Settled "if !self." := settled_of_head rfl (by decide) (by decide)
    refine List.forall_mem_singleton.2 (plain_block ((opening.append _).append _) ?_)
    simp only [List.forall_mem_cons]
    refine ⟨.line (settled_of_head rfl (by decide) (by decide)).quiet, plain_block
      (settled_front rfl (by decide) (by decide) _) ?_, .own _, plain_writeBuffer _,
      List.forall_mem_nil _⟩
    exact List.forall_mem_singleton.2 (plain_writeScalar_of_settled packed _ _)
  · exact List.forall_mem_singleton.2
      (plain_write (settled_front rfl (by decide) (by decide) _) (plain_writeNested _))
  · exact List.forall_mem_singleton.2
      (plain_write (settled_front rfl (by decide) (by decide) _) (plain_writeNested _))
  · split
    · refine List.forall_mem_singleton.2 (plain_block ?_ ?_)
      · exact settled_front rfl (by decide) (by decide) _
      simp only [List.forall_mem_cons, List.forall_mem_append]
      exact ⟨.line (settled_of_head rfl (by decide) (by decide)).quiet,
        ⟨plain_writeHalf _ _ _ _, plain_writeHalf _ _ _ _⟩, .own _, plain_writeBuffer _,
        List.forall_mem_nil _⟩
    · exact List.forall_mem_nil _

theorem plain_writeVariant {scope : MessageScope} {group : String} {field : Field}
    {arm : String × Source} (made : writeVariant scope group field = some arm) : Plain arm.2 := by
  obtain ⟨plan, -, made⟩ := Option.bind_eq_some_iff.1 made
  obtain ⟨member, -, made⟩ := Option.bind_eq_some_iff.1 made
  obtain ⟨variant, -, made⟩ := Option.bind_eq_some_iff.1 made
  cases made
  have opening : Settled "Some(" := settled_of_head rfl (by decide) (by decide)
  refine plain_write ((opening.append _).append _) ?_
  split
  · exact plain_writeScalar _ _
  · exact plain_writeNested _

theorem plain_writeGroup (scope : MessageScope) (group : String) :
    ∀ source ∈ writeGroup scope group, Plain source := by
  have arms : ∀ arm ∈ (scope.type.fields.filter (·.oneof = some group)).filterMap
      (writeVariant scope group), Plain arm.2 := by
    intro arm held
    obtain ⟨field, -, made⟩ := List.mem_filterMap.1 held
    exact plain_writeVariant made
  unfold writeGroup
  generalize (scope.type.fields.filter (·.oneof = some group)).filterMap
    (writeVariant scope group) = made at arms
  cases made with
  | nil => exact List.forall_mem_nil _
  | cons arm rest =>
    have opening : Settled "match &self." := settled_of_head rfl (by decide) (by decide)
    have closing : Settled "None => \x7b\x7d" := settled_of_head rfl (by decide) (by decide)
    refine List.forall_mem_singleton.2 (plain_block (opening.append _) ?_)
    refine List.forall_mem_append.2 ⟨?_, List.forall_mem_singleton.2 (.line closing.quiet)⟩
    exact List.forall_mem_map.2 arms

theorem plain_writeFields (codecs : CodecSet) (scope : MessageScope) (plans : List FieldPlan) :
    ∀ written, ∀ source ∈ writeFields codecs scope written plans, Plain source := by
  induction plans with
  | nil => exact fun written => List.forall_mem_nil _
  | cons plan rest ih =>
    intro written
    unfold writeFields
    split
    · split
      · split
        · exact ih _
        · exact List.forall_mem_append.2 ⟨plain_writeGroup _ _, ih _⟩
      · exact List.forall_mem_append.2 ⟨plain_writeField _ _ _ _, ih _⟩
    · exact ih _

/-- The lines of an emitted body that write bytes as they are write its keys. -/
theorem keyLines_emitEncoder (codecs : CodecSet) (scope : MessageScope) (level : Nat) :
    keyLines (linesAll level (emitEncoder codecs scope)) =
      (allKeysTo "bb" (emitEncoder codecs scope)).map keyLine :=
  keyLines_linesAll_of_each fun source held =>
    (plain_writeFields codecs scope scope.codec.fields [] source held).keyLines_lines level

end Protobuf.Emission
