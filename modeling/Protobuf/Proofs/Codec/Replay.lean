import Protobuf.Proofs.Codec.Encode
import Protobuf.Proofs.Codec.Plays
import Protobuf.Proofs.Value.Normal

/-! # Reading back what is written

The bytes of a value are records of its field which, merged one after another, build its normal
form. The bytes of a message are rows of such records, so reading them replays the message field by
field. Main statement: `writeValue_builds`.

## Implementation notes

How much a value nests bounds the levels that reading has to be given. That embedded messages are
read back is a hypothesis here, `RoundTripsBelow`, which the induction over messages supplies. -/

namespace Protobuf

open Wire

/-- Whether zeros of the field are left out. -/
def FieldPlan.omitsZero (plan : FieldPlan) : Bool :=
  plan.presence = .implicit || plan.presence = .repeated

namespace CodecSet

/-- Whether zeros of a field of a type are left out. -/
def omits (set : CodecSet) (name : String) (tag : Nat) : Bool :=
  ((set.get? name).bind (·.reader? tag)).any (·.omitsZero)

variable {set : CodecSet} {nested : String → Slice → Except CodecError Message}
  {codec : MessageCodec} {name : String} {plan : FieldPlan}

/-! ## Records that build a value -/

/-- Some bytes are a value of the wire type of a form and stand for a part of what a field holds,
as soon as so many levels are left. -/
def Stands (set : CodecSet) (form : FieldForm) (depth : Nat) (bytes : List UInt8)
    (value : Value) : Prop :=
  ∀ levels, depth ≤ levels → Short set.limits.maxLength bytes → ∀ place, ∃ raw,
    RawValue.Spells set.limits.maxLength place form.wireType bytes raw ∧
      Reads set (decodeWithin set levels) form raw value

/-- Some bytes are records of a field that lead from what it holds to what it holds in the end. -/
inductive Builds (set : CodecSet) (plan : FieldPlan) (depth : Nat) :
    Option Value → List UInt8 → Option Value → Prop
  | nil {held : Option Value} : Builds set plan depth held [] held
  | cons {held final : Option Value} {bytes rest : List UInt8} {value merged : Value}
    (stands : Stands set plan.form depth bytes value)
    (done : mergeValue set held value = .ok merged)
    (tail : Builds set plan depth (some merged) rest final) :
    Builds set plan depth held (plan.key ++ bytes ++ rest) final

theorem Builds.single {depth : Nat} {bytes : List UInt8} {value : Value}
    (stands : Stands set plan.form depth bytes value) :
    Builds set plan depth none (plan.key ++ bytes) (some value) := by
  have builds := Builds.cons stands (mergeValue_none value) .nil
  rwa [List.append_nil] at builds

/-- Records of a field replay what they build, in a message that holds no rival of the field. -/
theorem Builds.plays (coherent : set.Coherent) (found : set.get? name = some codec) {tag : Nat}
    (planned : codec.reader? tag = some plan) {depth levels : Nat} (deep : depth ≤ levels)
    {held final : Option Value} {bytes : List UInt8}
    (builds : Builds set plan depth held bytes final) (short : Short set.limits.maxLength bytes)
    {base : Message} (ordered : base.Ordered) (missing : base.get? tag = none)
    (quiet : ∀ other, codec.Rivals tag other → base.get? other = none) :
    Plays set (decodeWithin set levels) codec bytes (base.setIfAny tag held)
      (base.setIfAny tag final) := by
  have good := coherent name codec found
  have among := MessageCodec.reader?_mem planned
  obtain rfl := MessageCodec.reader?_tag planned
  induction builds with
  | nil => exact .nil _
  | @cons held final bytes rest value merged stands done tail ih =>
    refine .append good (readsAnywhere_decodeWithin coherent levels) ?_
      (ih (short.of_le (by simp; omega)))
    obtain ⟨raw, form, reads⟩ :=
      stands levels deep (short.of_le (by simp; omega)) (0 + plan.key.length)
    let record : Record := ⟨0, ⟨plan.tag, plan.wireType⟩, raw, plan.key ++ bytes⟩
    have spells : record.Spells set.limits.maxLength 0 (plan.key ++ bytes) :=
      ⟨rfl, rfl, plan.key, bytes, rfl, Key.spells_write (good.pos plan among) (good.le plan among),
        form⟩
    refine ⟨[record], .singleton spells, ?_⟩
    have value_eq : fieldValue set (decodeWithin set levels) codec plan record = .ok value :=
      (fieldValue_eq_ok_iff (good.closed plan among)).2 reads
    have untouched : codec.clearOthers plan (base.setIfAny plan.tag held) =
        base.setIfAny plan.tag held := by
      apply good.clearOthers_eq planned (ordered.setIfAny _ _)
      intro other rivals
      rw [MessageOf.get?_setIfAny missing, if_neg rivals.1.symm, quiet other rivals]
    have applied : applyRecord set (decodeWithin set levels) codec (base.setIfAny plan.tag held)
        record = .ok (base.setIfAny plan.tag (some merged)) := by
      simp only [applyRecord, record, planned]
      rw [applyField_eq good among, value_eq, ok_bind, untouched, MessageOf.get?_setIfAny missing,
        if_pos rfl, done, ok_bind, MessageOf.set_setIfAny]
    rw [List.foldlM_cons, applied]
    rfl

/-! ## Values without messages -/

theorem stands_payload {form : FieldForm} (delimited : form.wireType = .lengthDelimited)
    {depth : Nat} {bytes : List UInt8} {value : Value}
    (reads : ∀ levels start, depth ≤ levels → Short set.limits.maxLength bytes →
      Reads set (decodeWithin set levels) form (.payload ⟨start, bytes⟩) value) :
    Stands set form depth (Write.payload bytes) value := by
  intro levels deep short place
  obtain ⟨start, spells⟩ := RawValue.spells_payload place short
  rw [← delimited] at spells
  exact ⟨_, spells, reads levels start deep (short.of_le (by simp [Write.payload]))⟩

theorem stands_single {scalar : Scalar} {bytes : List UInt8} {value : Value}
    (written : scalar.write? value = some bytes) (depth : Nat) :
    Stands set (.single scalar) depth bytes value := by
  intro levels _ short place
  obtain ⟨raw, spells, read, -⟩ := Scalar.spells_write written short place
  exact ⟨raw, spells, .single read⟩

theorem stands_repeated {scalar : Scalar} {bytes : List UInt8} {value : Value}
    (written : scalar.write? value = some bytes) (depth : Nat) :
    Stands set (.repeated scalar) depth bytes (.list [value]) := by
  intro levels _ short place
  obtain ⟨raw, spells, -, read⟩ := Scalar.spells_write written short place
  exact ⟨raw, spells, .repeated read⟩

/-- What a repeated field holds: nothing if there are no elements. -/
def heldList (elements : List Value) : Option Value :=
  if elements.isEmpty then none else some (.list elements)

theorem mergeValue_heldList (elements more : List Value) :
    mergeValue set (heldList elements) (.list more) = .ok (.list (elements ++ more)) := by
  cases elements <;> rfl

theorem heldList_append_singleton (elements : List Value) (value : Value) :
    heldList (elements ++ [value]) = some (.list (elements ++ [value])) := by
  cases elements <;> rfl

/-- A record of one element, in front of records that build the others. -/
theorem Builds.element {depth : Nat} {bytes rest : List UInt8} {value : Value}
    {elements : List Value} {final : Option Value}
    (stands : Stands set plan.form depth bytes (.list [value]))
    (tail : Builds set plan depth (heldList (elements ++ [value])) rest final) :
    Builds set plan depth (heldList elements) (plan.key ++ bytes ++ rest) final := by
  rw [heldList_append_singleton] at tail
  exact .cons stands (mergeValue_heldList elements [value]) tail

/-- Elements of a scalar kind are written as a record each, and these build the list of them. -/
theorem writeEach_builds {scalar : Scalar} (form : plan.form = .repeated scalar)
    {elements : List Value} (hold : ∀ element ∈ elements, scalar.Holds element) (depth : Nat) :
    ∃ bytes, writeEach (fun element => (scalar.write? element).map (plan.key ++ ·)) elements =
        some bytes ∧
      ∀ before, Builds set plan depth (heldList before) bytes (heldList (before ++ elements)) := by
  induction elements with
  | nil => exact ⟨[], rfl, fun before => by rw [List.append_nil]; exact .nil⟩
  | cons value rest ih =>
    obtain ⟨here, later⟩ := List.forall_mem_cons.1 hold
    obtain ⟨bytes, written⟩ := Option.isSome_iff_exists.1 here
    obtain ⟨more, writtenRest, builds⟩ := ih later
    refine ⟨plan.key ++ bytes ++ more, by simp [writeEach, written, writtenRest], fun before => ?_⟩
    have after := builds (before ++ [value])
    rw [List.append_assoc] at after
    exact .element (form ▸ stands_repeated written depth) after

/-! ## Values with messages -/

/-- A message can be written, in the same way when it is trimmed, and its normal form is read back
as soon as there are levels enough and the limits admit its bytes. -/
def RoundTrips (set : CodecSet) (message : Message) : Prop :=
  ∃ bytes, (∀ trimmed, message.Trims set.omits trimmed → encode set trimmed = .ok bytes) ∧
    ∀ levels start, message.depth < levels → Short set.limits.maxLength bytes →
      decodeWithin set levels message.typeName ⟨start, bytes⟩ = .ok (message.normal set.omits)

/-- Embedded messages are written as a record each, and these build the list of them. -/
theorem writeElements_builds {type : String} (form : plan.form = .messages type)
    {elements : List Value} {depth : Nat}
    (fit : ∀ element ∈ elements, ∃ source, element = .message source ∧ source.typeName = type ∧
      source.Ordered ∧ source.depth < depth ∧ RoundTrips set source) (message : String) :
    ∃ bytes, writeElements set elements message plan type = .ok bytes ∧
      writeElements set (elements.map (Value.normal set.omits)) message plan type = .ok bytes ∧
      ∀ before, Builds set plan depth (heldList before) bytes
        (heldList (before ++ elements.map (Value.normal set.omits))) := by
  induction elements with
  | nil => exact ⟨[], rfl, rfl, fun before => by rw [List.map_nil, List.append_nil]; exact .nil⟩
  | cons value rest ih =>
    obtain ⟨⟨source, rfl, rfl, ordered, shallow, bytes, written, back⟩, later⟩ :=
      List.forall_mem_cons.1 fit
    obtain ⟨more, writtenRest, againRest, builds⟩ := ih later
    refine ⟨plan.key ++ Write.payload bytes ++ more, ?_, ?_, fun before => ?_⟩
    · rw [writeElements_cons, written _ (.refl ..), ok_bind, writtenRest, ok_bind]
    · have again := written _ (MessageOf.trims_normal ordered)
      have sameName : (source.normal set.omits).typeName = source.typeName := rfl
      rw [List.map_cons, Value.normal_message, ← sameName, writeElements_cons, again, ok_bind,
        sameName, againRest, ok_bind]
    · have after := builds (before ++ [.message (source.normal set.omits)])
      rw [List.append_assoc] at after
      rw [List.map_cons, Value.normal_message]
      refine .element (form ▸ stands_payload rfl fun levels start deep short => ?_) after
      exact .messages (back levels start (Nat.lt_of_lt_of_le shallow deep) short)

/-- What a map field holds: nothing if there are no entries. -/
def heldMap (entries : List (Value × Value)) : Option Value :=
  if entries.isEmpty then none else some (.map entries)

/-- A record of one entry of a new key, in front of records that build the others. -/
theorem Builds.entry {depth : Nat} {bytes rest : List UInt8} {key value : Value}
    {entries : List (Value × Value)} {final : Option Value}
    (stands : Stands set plan.form depth bytes (.map [(key, value)]))
    (fresh : Value.setEntry key value entries = entries ++ [(key, value)])
    (tail : Builds set plan depth (heldMap (entries ++ [(key, value)])) rest final) :
    Builds set plan depth (heldMap entries) (plan.key ++ bytes ++ rest) final := by
  have done : mergeValue set (heldMap entries) (.map [(key, value)]) =
      .ok (.map (entries ++ [(key, value)])) := by
    rw [← fresh]
    cases entries <;> rfl
  refine .cons stands done ?_
  cases entries <;> exact tail

/-- The normal form of an entry as a message has the key, and the value in normal form, or what
they read as while they are not set. -/
theorem getD_normal_entryOf {entry : String} {key : Scalar} {form : FieldForm}
    (found : set.get? entry = some (entryCodec entry key form)) (single : form.isRepeated = false)
    {held : Value × Value} (holds : key.Holds held.1) (fits : Fits set form held.2) :
    (((Value.entryOf entry held).normal set.omits).get? 1).getD key.zero = held.1 ∧
      (((Value.entryOf entry held).normal set.omits).get? 2).getD form.zero =
        held.2.normal set.omits := by
  have ordered : (Value.entryOf entry held).Ordered := by
    simp [MessageOf.Ordered, Keyed.Ordered, Value.entryOf]
  have first : (Value.entryOf entry held).get? 1 = some held.1 := rfl
  have second : (Value.entryOf entry held).get? 2 = some held.2 := rfl
  have omitsKey : set.omits entry 1 = true := by
    rw [omits, found]
    rfl
  have named : (Value.entryOf entry held).typeName = entry := rfl
  rw [MessageOf.get?_normal ordered, MessageOf.get?_normal ordered, first, second, named, omitsKey]
  simp only [Option.bind_some, Bool.true_and]
  constructor
  · split
    · rename_i zero
      exact (holds.eq_zero zero).symm
    · exact Value.normal_of_isAtom holds.isAtom
  · cases form with
    | single scalar =>
      have omitsValue : set.omits entry 2 = true := by
        rw [omits, found]
        rfl
      cases fits with
      | single holds =>
        rw [omitsValue, Bool.true_and]
        split
        · rename_i zero
          rw [Value.normal_of_isAtom holds.isAtom]
          exact (holds.eq_zero zero).symm
        · rfl
    | message type =>
      have omitsValue : set.omits entry 2 = false := by
        rw [omits, found]
        rfl
      rw [omitsValue, Bool.false_and]
      rfl
    | _ => cases single

theorem trims_entryOf (entry : String) (held : Value × Value) :
    (Value.entryOf entry held).Trims set.omits
      (Value.entryOf entry (held.1, held.2.normal set.omits)) where
  typeName := rfl
  unknown := rfl
  missing tag missing := by
    rw [get?_entryOf] at missing ⊢
    by_cases first : tag = 1
    · simp [first] at missing
    · by_cases second : tag = 2
      · simp [second] at missing
      · rw [if_neg first, if_neg second]
  held tag value there := by
    rw [get?_entryOf] at there ⊢
    by_cases first : tag = 1
    · rw [if_pos first] at there ⊢
      exact .inl there
    · by_cases second : tag = 2
      · rw [if_neg first, if_pos second] at there ⊢
        cases there
        exact .inr (.inl rfl)
      · simp [first, second] at there

/-- Entries are written as a record each, and these build the map of them. -/
theorem writeEntries_builds {entry : String} {key : Scalar} {form : FieldForm}
    (mapped : plan.form = .map entry) (isKey : key.isKey) (single : form.isRepeated = false)
    (found : set.get? entry = some (entryCodec entry key form)) {entries : List (Value × Value)}
    {depth : Nat} (keys : ∀ held ∈ entries, key.Holds held.1)
    (values : ∀ held ∈ entries, Fits set form held.2)
    (each : ∀ held ∈ entries, (Value.entryOf entry held).depth < depth ∧
      RoundTrips set (Value.entryOf entry held)) :
    ∃ bytes, writeEntries (entryCodec entry key form) plan (entryDrafts set entries) = .ok bytes ∧
      writeEntries (entryCodec entry key form) plan
        (entryDrafts set (Value.normalEntries set.omits entries)) = .ok bytes ∧
      ∀ before, (∀ held ∈ before, key.Holds held.1) →
        ((before ++ entries).map (·.1)).Nodup → Builds set plan depth (heldMap before) bytes
          (heldMap (before ++ Value.normalEntries set.omits entries)) := by
  induction entries with
  | nil =>
    refine ⟨[], rfl, rfl, fun before _ _ => ?_⟩
    rw [Value.normalEntries, List.append_nil]
    exact .nil
  | cons held rest ih =>
    obtain ⟨isHeld, keys⟩ := List.forall_mem_cons.1 keys
    obtain ⟨fits, values⟩ := List.forall_mem_cons.1 values
    obtain ⟨⟨shallow, bytes, written, back⟩, each⟩ := List.forall_mem_cons.1 each
    obtain ⟨more, writtenRest, againRest, builds⟩ := ih keys values each
    refine ⟨plan.key ++ Write.payload bytes ++ more, ?_, ?_, fun before areKeys distinct => ?_⟩
    · rw [writeEntries_cons found, written _ (.refl ..), ok_bind, writtenRest, ok_bind]
    · have again := written _ (trims_entryOf entry held)
      rw [Value.normalEntries, writeEntries_cons found, again, ok_bind, againRest, ok_bind]
    · have distinct' :
          ((before ++ [(held.1, held.2.normal set.omits)] ++ rest).map (·.1)).Nodup := by
        simpa using distinct
      have fresh : Value.setEntry held.1 (held.2.normal set.omits) before =
          before ++ [(held.1, held.2.normal set.omits)] := by
        apply Value.setEntry_of_not_mem (sameIsEq_holds isKey) isHeld areKeys
        intro there
        rw [List.map_append, List.map_cons] at distinct
        exact List.disjoint_of_nodup_append distinct there List.mem_cons_self
      have stands : Stands set plan.form depth (Write.payload bytes)
          (.map [(held.1, held.2.normal set.omits)]) := by
        rw [mapped]
        apply stands_payload rfl
        intro levels start deep short
        obtain ⟨first, second⟩ := getD_normal_entryOf found single isHeld fits
        rw [← first, ← second]
        exact .map found (back levels start (Nat.lt_of_lt_of_le shallow deep) short)
      have after := builds (before ++ [(held.1, held.2.normal set.omits)])
        (List.forall_mem_append.2 ⟨areKeys, by simpa using isHeld⟩) distinct'
      rw [List.append_assoc] at after
      exact .entry stands fresh after

/-- An entry conforms as a message of the entry type. -/
theorem conforms_entryOf {entry : String} {key : Scalar} {form : FieldForm}
    (found : set.get? entry = some (entryCodec entry key form)) {held : Value × Value}
    (holds : key.Holds held.1) (fits : Fits set form held.2) :
    Conforms set (Value.entryOf entry held) := by
  refine (conforms_iff found).2 ⟨?_, ?_, ?_, fun field there => absurd there List.not_mem_nil⟩
  · simp [MessageOf.Ordered, Keyed.Ordered, Value.entryOf]
  · intro tag value there
    rw [get?_entryOf] at there
    split at there
    · rename_i first
      cases there
      subst first
      exact ⟨⟨"key", 1, .single key, none, false, none⟩, rfl, .single holds⟩
    · split at there
      · rename_i second
        cases there
        subst second
        exact ⟨⟨"value", 2, form, none, false, none⟩, rfl, fits⟩
      · cases there
  · exact fun tag other rivals => absurd rivals MessageCodec.not_rivals_entryCodec

theorem depth_entryOf (entry : String) (held : Value × Value) :
    (Value.entryOf entry held).depth = max held.1.levels held.2.levels := by
  simp [MessageOf.depth, Value.entryOf, Value.fieldLevels]

/-! ## All values -/

/-- Packed elements are written as one run, and no elements as nothing. -/
theorem packed_builds {kind : Numeric} (form : plan.form = .packed kind) {elements : List Value}
    (hold : ∀ element ∈ elements, (Scalar.numeric kind).Holds element) (depth : Nat)
    (message : String) :
    ∃ bytes, writeValue set (.list elements) message plan = .ok bytes ∧
      Builds set plan depth none bytes (heldList elements) := by
  obtain ⟨run, words, written, spelled, same⟩ := Scalar.run_writeEach hold
  cases elements with
  | nil =>
    refine ⟨[], ?_, .nil⟩
    simp only [writeValue, form, written, List.isEmpty_nil, if_true]
  | cons first rest =>
    refine ⟨plan.key ++ Write.payload run, ?_, .single ?_⟩
    · simp only [writeValue, form, written, List.isEmpty_cons, Bool.false_eq_true, if_false]
    · rw [form]
      apply stands_payload rfl
      intro levels start _ _
      exact .packed (Scalar.readAll?_payload_iff.2 ⟨words, spelled, same⟩)

/-- An embedded message is written as one record of its field. -/
theorem message_builds {source : Message} (form : plan.form = .message source.typeName)
    (ordered : source.Ordered) {depth : Nat} (shallow : source.depth < depth)
    (roundTrips : RoundTrips set source) (message : String) :
    ∃ bytes, writeValue set (.message source) message plan = .ok bytes ∧
      writeValue set (.message (source.normal set.omits)) message plan = .ok bytes ∧
      Builds set plan depth none bytes (some (.message (source.normal set.omits))) := by
  obtain ⟨bytes, written, back⟩ := roundTrips
  refine ⟨plan.key ++ Write.payload bytes, ?_, ?_, .single ?_⟩
  · rw [writeValue_message form, written _ (.refl ..), map_ok]
  · have again := written _ (MessageOf.trims_normal ordered)
    have form : plan.form = .message (source.normal set.omits).typeName := form
    rw [writeValue_message form, again, map_ok]
  · rw [form]
    apply stands_payload rfl
    intro levels start deep short
    exact .message (back levels start (Nat.lt_of_lt_of_le shallow deep) short)

/-- All conforming messages that nest less are written and read back. -/
def RoundTripsBelow (set : CodecSet) (depth : Nat) : Prop :=
  ∀ source, Conforms set source → source.depth < depth → RoundTrips set source

theorem element_roundTrips {depth : Nat} (below : RoundTripsBelow set depth) {type : String}
    {elements : List Value} (fit : ∀ element ∈ elements, Fits set (.message type) element)
    (deep : (Value.list elements).levels ≤ depth) {element : Value} (held : element ∈ elements) :
    ∃ source, element = .message source ∧ source.typeName = type ∧ source.Ordered ∧
      source.depth < depth ∧ RoundTrips set source := by
  cases fit element held with
  | @message _ source named conforms =>
    have shallow := Value.levels_le_elementLevels held
    rw [Value.levels_message] at shallow
    rw [Value.levels] at deep
    have lt : source.depth < depth := Nat.lt_of_lt_of_le shallow deep
    exact ⟨source, rfl, named, conforms.ordered, lt, below source conforms lt⟩

theorem entry_roundTrips {depth : Nat} (below : RoundTripsBelow set depth) {entry : String}
    {key : Scalar} {form : FieldForm} (found : set.get? entry = some (entryCodec entry key form))
    {entries : List (Value × Value)} (keys : ∀ held ∈ entries, key.Holds held.1)
    (values : ∀ held ∈ entries, Fits set form held.2)
    (deep : (Value.map entries).levels ≤ depth) {held : Value × Value} (there : held ∈ entries) :
    (Value.entryOf entry held).depth < depth ∧ RoundTrips set (Value.entryOf entry held) := by
  have shallow := (Value.levels_lt_entryLevels there).2
  rw [Value.levels] at deep
  have lt : (Value.entryOf entry held).depth < depth := by
    rw [depth_entryOf, (keys held there).isAtom.levels]
    omega
  exact ⟨lt, below _ (conforms_entryOf found (keys held there) (values held there)) lt⟩

/-- A value that fits its field is written, alike with its normal form, as records that build this
form; where a field takes any number of values and there are none, nothing is built. -/
theorem writeValue_builds {depth : Nat} (below : RoundTripsBelow set depth)
    (closed : plan.form.Closed set) {value : Value} (fits : Fits set plan.form value)
    (deep : value.levels ≤ depth) (message : String) :
    ∃ bytes, writeValue set value message plan = .ok bytes ∧
      writeValue set (value.normal set.omits) message plan = .ok bytes ∧
      Builds set plan depth none bytes
        (if plan.form.isRepeated && value.isZero then none else some (value.normal set.omits)) := by
  generalize form : plan.form = held at closed fits
  cases fits with
  | @single scalar value holds =>
    obtain ⟨bytes, written⟩ := Option.isSome_iff_exists.1 holds
    rw [Value.normal_of_isAtom holds.isAtom]
    refine ⟨plan.key ++ bytes, writeValue_single form written, writeValue_single form written, ?_⟩
    exact .single (form ▸ stands_single written depth)
  | @repeated scalar elements hold =>
    obtain ⟨bytes, written, builds⟩ := writeEach_builds form hold depth
    have done : writeValue set (.list elements) message plan = .ok bytes := by
      simp only [writeValue, form, written]
    rw [Value.normal_list_of_isAtom fun value held => (hold value held).isAtom]
    refine ⟨bytes, done, done, ?_⟩
    have built := builds []
    cases elements <;> exact built
  | @packed kind elements hold =>
    obtain ⟨bytes, done, builds⟩ := packed_builds form hold depth message
    rw [Value.normal_list_of_isAtom fun value held => (hold value held).isAtom]
    refine ⟨bytes, done, done, ?_⟩
    cases elements <;> exact builds
  | @message type source named conforms =>
    subst named
    rw [Value.levels_message] at deep
    rw [Value.normal_message]
    exact message_builds form conforms.ordered deep (below source conforms deep) message
  | @messages type elements fit =>
    obtain ⟨bytes, written, again, builds⟩ := writeElements_builds form
      (fun element held => element_roundTrips below fit deep held) message
    have writes : ∀ elements, writeValue set (.list elements) message plan =
        writeElements set elements message plan type := by
      intro elements
      simp only [writeValue, form]
    rw [Value.normal, Value.normalElements_eq_map, writes, writes]
    refine ⟨bytes, written, again, ?_⟩
    have built := builds []
    cases elements <;> exact built
  | @map entry key value entries found keys values distinct =>
    cases closed with
    | map isKey single found' =>
      obtain ⟨rfl, rfl⟩ := entryCodec_unique found found'
      obtain ⟨bytes, written, again, builds⟩ := writeEntries_builds form isKey single found keys
        values fun held there => entry_roundTrips below found keys values deep there
      have writes : ∀ entries, writeValue set (.map entries) message plan =
          writeEntries (entryCodec entry key value) plan (entryDrafts set entries) := by
        intro entries
        simp only [writeValue, form, codec_eq_ok found, ok_bind]
      rw [Value.normal, writes, writes]
      refine ⟨bytes, written, again, ?_⟩
      have built := builds [] (fun held there => absurd there List.not_mem_nil) distinct
      cases entries <;> exact built

end CodecSet

end Protobuf
