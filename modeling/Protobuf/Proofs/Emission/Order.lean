import Protobuf.Proofs.Codec.Lawful
import Protobuf.Proofs.Emission.Names
import Protobuf.Proofs.Emission.Source

/-! # The order of emitted writes

The emitted method that writes a message writes the key of each declared field once. The keys stand
in the order of the declarations, but for the members of a oneof group: they are written by one
statement, where the first of them stands. Main statements: `allKeysTo_writeFields` and
`emitted_keys`.

## Implementation notes

`gather` says of any list what the emitter does to the fields of a message. That it changes nothing
where groups stand together is a fact about lists.
-/

namespace Protobuf.Emission

/-! ## Rows with groups -/

section Groups

variable {α γ : Type} (group : α → Option γ)

/-- Between two members of a group, there are only members of it. -/
def Together (items : List α) : Prop :=
  ∀ first between last name, [first, between, last].Sublist items → group first = some name →
    group last = some name → group between = some name

variable {group} {name : γ}

/-- Members of one group, followed by items outside it of which the groups stand together. -/
theorem together_append {front back : List α} (members : ∀ item ∈ front, group item = some name)
    (others : ∀ item ∈ back, group item ≠ some name) (together : Together group back) :
    Together group (front ++ back) := by
  intro first between last other inside grouped grouped'
  obtain ⟨inFront, inBack, split, sub, sub'⟩ := List.sublist_append_iff.1 inside
  have absurd_of_last : first ∈ inFront → last ∈ inBack → group between = some other := by
    intro here there
    have same : other = name :=
      Option.some.inj (grouped.symm.trans (members _ (sub.subset here)))
    exact absurd (same ▸ grouped') (others _ (sub'.subset there))
  match inFront, split with
  | [], split =>
    rw [List.nil_append] at split
    exact together _ _ _ other (split ▸ sub') grouped grouped'
  | [_], split =>
    simp only [List.cons_append, List.nil_append, List.cons.injEq] at split
    exact absurd_of_last (by simp [split.1]) (by simp [← split.2])
  | [_, _], split =>
    simp only [List.cons_append, List.nil_append, List.cons.injEq] at split
    exact absurd_of_last (by simp [split.1]) (by simp [← split.2.2])
  | _ :: _ :: _ :: _, split =>
    simp only [List.cons_append, List.cons.injEq] at split
    obtain ⟨rfl, rfl, rfl, -⟩ := split
    have same := (members _ (sub.subset List.mem_cons_self)).symm.trans grouped
    rw [members between (sub.subset (by simp)), same]

variable [DecidableEq γ]

variable (group) in
/-- Items in their order, but for the members of a group, which all stand where the first of them
does. Members of groups that are taken are left out. -/
def gather (taken : List γ) : List α → List α
  | [] => []
  | item :: rest =>
    match group item with
    | none => item :: gather taken rest
    | some name =>
      if name ∈ taken then gather taken rest
      else item :: rest.filter (group · = some name) ++ gather (name :: taken) rest

variable (group) in
/-- An item is in no group or in one that is not taken. -/
def isFree (taken : List γ) (item : α) : Bool :=
  (group item).all (· ∉ taken)

variable {taken : List γ}

variable (group) in
/-- With one more group taken, the items outside it stay. -/
theorem filter_isFree_cons (fresh : name ∉ taken) (items : List α) :
    (items.filter (isFree group taken)).filter (group · = some name) =
        items.filter (group · = some name) ∧
      (items.filter (isFree group taken)).filter (fun item => !decide (group item = some name)) =
        items.filter (isFree group (name :: taken)) := by
  simp only [List.filter_filter]
  constructor <;>
  · refine congrArg (List.filter · items) (funext fun item => ?_)
    cases grouped : group item with
    | none => simp [isFree, grouped]
    | some other => by_cases same : other = name <;> simp_all [isFree]

/-- Nothing is lost and nothing comes twice. -/
theorem perm_gather (taken : List γ) (items : List α) :
    (gather group taken items).Perm (items.filter (isFree group taken)) := by
  induction items generalizing taken with
  | nil => exact .nil
  | cons item rest ih =>
    unfold gather
    cases grouped : group item with
    | none =>
      have free : isFree group taken item := by simp [isFree, grouped]
      rw [List.filter_cons_of_pos free]
      exact (ih taken).cons item
    | some name =>
      by_cases old : name ∈ taken
      · have held : ¬isFree group taken item := by simp [isFree, grouped, old]
        simpa only [List.filter_cons_of_neg held, old, if_true] using ih taken
      · have free : isFree group taken item := by simp [isFree, grouped, old]
        obtain ⟨members, others⟩ := filter_isFree_cons group old rest
        simp only [List.filter_cons_of_pos free, old, if_false, List.cons_append]
        refine .cons item (((ih (name :: taken)).append_left _).trans ?_)
        rw [← members, ← others]
        exact List.filter_append_perm _ _

/-- Where only items that fit come before one that fits, these are the first ones. -/
theorem filter_append_filter_not {fits : α → Bool} {items : List α}
    (early : items.Pairwise fun item later => fits later → fits item) :
    items.filter fits ++ items.filter (fun item => !fits item) = items := by
  induction items with
  | nil => rfl
  | cons item rest ih =>
    obtain ⟨before, tail⟩ := List.pairwise_cons.1 early
    by_cases here : fits item
    · simpa [here] using ih tail
    · have none_later : ∀ later ∈ rest, ¬fits later := fun later held fit =>
        here (before later held fit)
      have all_not : ∀ later ∈ rest, (!fits later) = true := by simpa using none_later
      rw [List.filter_eq_nil_iff.2 (by simpa [here] using none_later), List.nil_append,
        List.filter_eq_self.2 (by simpa [here] using all_not)]

/-- Items of which the groups stand together stay as they are. -/
theorem gather_of_together {items : List α} (together : Together group items) (taken : List γ) :
    gather group taken items = items.filter (isFree group taken) := by
  induction items generalizing taken with
  | nil => rfl
  | cons item rest ih =>
    have tail : Together group rest := fun first between last name inside =>
      together first between last name (inside.cons item)
    unfold gather
    cases grouped : group item with
    | none =>
      have free : isFree group taken item := by simp [isFree, grouped]
      rw [List.filter_cons_of_pos free]
      exact congrArg (item :: ·) (ih tail taken)
    | some name =>
      by_cases old : name ∈ taken
      · have held : ¬isFree group taken item := by simp [isFree, grouped, old]
        simpa only [List.filter_cons_of_neg held, old, if_true] using ih tail taken
      · have free : isFree group taken item := by simp [isFree, grouped, old]
        have early : rest.Pairwise fun between last =>
            decide (group last = some name) → decide (group between = some name) := by
          refine List.pairwise_iff_forall_sublist.2 fun inside => ?_
          simpa using together item _ _ name (inside.cons_cons item) grouped
        obtain ⟨members, others⟩ := filter_isFree_cons group old rest
        simp only [List.filter_cons_of_pos free, old, if_false, List.cons_append]
        rw [ih tail, ← members, ← others, filter_append_filter_not (early.filter _)]

/-- Gathered groups stand together. -/
theorem together_gather (taken : List γ) (items : List α) :
    Together group (gather group taken items) := by
  induction items generalizing taken with
  | nil =>
    intro first between last name inside
    cases inside
  | cons item rest ih =>
    unfold gather
    cases grouped : group item with
    | none =>
      intro first between last name inside named
      rcases List.sublist_cons_iff.1 inside with later | ⟨_, split, -⟩
      · exact ih taken first between last name later named
      · cases split
        rw [grouped] at named
        cases named
    | some name =>
      by_cases old : name ∈ taken
      · simpa only [old, if_true] using ih taken
      · simp only [old, if_false]
        have members : ∀ member ∈ item :: rest.filter (group · = some name),
            group member = some name := by
          simp [grouped]
        refine together_append members (fun later held named => ?_) (ih (name :: taken))
        have free := (List.mem_filter.1 ((perm_gather _ rest).subset held)).2
        simp [isFree, named] at free

/-- Items that a function tells apart are known by their images. -/
theorem eq_of_map_eq {β : Type} {f : α → β} {items others : List α}
    (apart : ∀ item ∈ items, ∀ other ∈ others, f item = f other → item = other)
    (same : items.map f = others.map f) : items = others := by
  induction items generalizing others with
  | nil => exact (List.map_eq_nil_iff.1 same.symm).symm
  | cons item rest ih =>
    obtain ⟨other, rest', rfl, head, tail⟩ := List.map_eq_cons_iff.1 same.symm
    rw [apart item List.mem_cons_self other List.mem_cons_self head.symm,
      ih (fun item held other held' => apart item (List.mem_cons_of_mem _ held) other
        (List.mem_cons_of_mem _ held')) tail.symm]

/-- Gathering changes nothing exactly if the groups stand together. -/
theorem gather_eq_self_iff {items : List α} : gather group [] items = items ↔
    Together group items := by
  constructor
  · intro same
    have together : Together group (gather group [] items) := together_gather [] items
    rwa [same] at together
  · intro together
    rw [gather_of_together together]
    exact List.filter_eq_self.2 fun item _ => by cases h : group item <;> simp [isFree, h]

end Groups

/-! ## What statements write -/

@[simp] theorem keysTo_writeScalar (buffer target : String) (scalar : Scalar) (place : Place) :
    Source.keysTo buffer (writeScalar target scalar place) = [] := rfl

@[simp] theorem keysTo_writeNested (buffer target value : String) :
    Source.keysTo buffer (writeNested target value) = [] := rfl

@[simp] theorem keysTo_writeBuffer (buffer target : String) :
    Source.keysTo buffer (writeBuffer target) = [] := rfl

/-- The halves of an entry are written to the buffer of the entry alone. -/
@[simp] theorem allKeysTo_writeHalf (entry : MessageCodec) (tag : Nat) (type : FieldType)
    (reference : String) : Source.allKeysTo "bb" (writeHalf entry tag type reference) = [] := by
  have inside (key : List UInt8) : Source.keysTo "bb" (.writeKey "entry" key) = [] := by
    rw [Source.keysTo, if_neg (by decide)]
  unfold writeHalf
  split
  · rfl
  · split <;> simp [inside]

/-- A field that is no member of a group has one statement that writes its key. -/
theorem allKeysTo_writeField {codecs : CodecSet} {plan : FieldPlan} {type : FieldType}
    (known : ∀ entry, plan.form = .map entry → type.isMap ∧ (codecs.get? entry).isSome)
    (identifier : String) :
    Source.allKeysTo "bb" (writeField codecs plan type identifier) = [plan.key] := by
  unfold writeField
  split
  · simp
  · simp
  · simp
  · simp
  · simp
  · simp
  · rename_i entry form
    obtain ⟨isMap, there⟩ := known entry form
    obtain ⟨entryCodec, found⟩ := Option.isSome_iff_exists.1 there
    cases type with
    | map key value => simp [found]
    | _ => cases isMap

/-! ## What a message writes -/

/-- What the statements about a message are made from, given what is derived from the message. -/
def MessageScope.of (registry : Registry) (names : Names) (type : MessageType) : MessageScope :=
  ⟨type, .ofType registry type, membersOf type, names⟩

/-- The entries of every map of a message have a codec. -/
def KnowsEntries (codecs : CodecSet) (type : MessageType) : Prop :=
  ∀ field ∈ type.fields, ∀ key value, field.type = .map key value →
    (codecs.get? (Name.join type.name (entryName field.name))).isSome

section Message

variable {registry : Registry} {type : MessageType} {names : Names} {codecs : CodecSet}
  {field : Field}

/-- The bytes in front of the records of a field. -/
def keyOf (registry : Registry) (type : MessageType) (field : Field) : List UInt8 :=
  (FieldPlan.ofField registry type.name field).key

variable (names) in
/-- The arm of a member of a group writes the key of this member. -/
theorem exists_writeVariant (valid : type.Valid registry) (declared : field ∈ type.fields)
    {group : String} (grouped : field.oneof = some group) :
    ∃ arm, writeVariant (.of registry names type) group field = some arm ∧
      arm.2.keysTo "bb" = [keyOf registry type field] := by
  obtain ⟨member, there, sound, -⟩ := exists_member (List.pairwise_map.2 valid.tags) declared
  obtain ⟨variant, named, -⟩ := sound.variant group grouped
  have planned := valid.writer?_ofType declared
  simp only [writeVariant, MessageScope.of, planned, there, named, Option.bind_eq_bind,
    Option.bind_some, Option.pure_def, Option.some.injEq, exists_eq_left']
  split <;> simp [keyOf]

/-- What the members of a group write is what its arms write. -/
theorem allKeysTo_arms (scope : MessageScope) (group : String) :
    Source.allKeysTo "bb" (writeGroup scope group) =
      Source.allKeysTo "bb" (((scope.type.fields.filter (·.oneof = some group)).filterMap
        (writeVariant scope group)).map (·.2)) := by
  unfold writeGroup
  cases (scope.type.fields.filter (·.oneof = some group)).filterMap (writeVariant scope group) <;>
    simp

/-- The members of a group write their keys, in declared order. -/
theorem allKeysTo_writeGroup (valid : type.Valid registry) (group : String) :
    Source.allKeysTo "bb" (writeGroup (.of registry names type) group) =
      (type.fields.filter (·.oneof = some group)).map (keyOf registry type) := by
  have among : ∀ field ∈ type.fields.filter (·.oneof = some group),
      field ∈ type.fields ∧ field.oneof = some group := by
    intro field held
    simpa using List.mem_filter.1 held
  have fields : (MessageScope.of registry names type).type.fields = type.fields := rfl
  rw [allKeysTo_arms, fields]
  generalize type.fields.filter (·.oneof = some group) = members at among
  induction members with
  | nil => rfl
  | cons field rest ih =>
    obtain ⟨declared, grouped⟩ := among field List.mem_cons_self
    obtain ⟨arm, made, keys⟩ := exists_writeVariant names valid declared grouped
    rw [List.filterMap_cons_some made, List.map_cons, List.map_cons, Source.allKeysTo_cons, keys,
      ih fun other held => among other (List.mem_cons_of_mem _ held), List.singleton_append]

variable (names codecs) in
/-- A field is written on its own, or with its group where this is not taken. -/
theorem writeFields_cons (valid : type.Valid registry) (declared : field ∈ type.fields)
    (taken : List String) (rest : List FieldPlan) :
    ∃ identifier, writeFields codecs (.of registry names type) taken
        (.ofField registry type.name field :: rest) =
      match field.oneof with
      | none =>
        writeField codecs (.ofField registry type.name field) field.type identifier ++
          writeFields codecs (.of registry names type) taken rest
      | some group =>
        if group ∈ taken then writeFields codecs (.of registry names type) taken rest
        else writeGroup (.of registry names type) group ++
          writeFields codecs (.of registry names type) (group :: taken) rest := by
  obtain ⟨member, there, -⟩ := exists_member (List.pairwise_map.2 valid.tags) declared
  have found : (MessageScope.of registry names type).type.fieldTagged?
      (FieldPlan.ofField registry type.name field).tag = some field :=
    valid.fieldTagged?_of_mem declared
  have there : (MessageScope.of registry names type).members.get?
      (FieldPlan.ofField registry type.name field).tag = some member := there
  refine ⟨member.identifier, ?_⟩
  simp only [writeFields, found, there]
  cases grouped : field.oneof with
  | some group => simp [(valid.presence_ofField declared).2 grouped]
  | none =>
    cases present : (FieldPlan.ofField registry type.name field).presence with
    | oneof group => simp [(valid.presence_ofField declared).1 present] at grouped
    | _ => rfl

/-- Where a field has the form of a map, its entries have a codec. -/
theorem KnowsEntries.of_ofField (entries : KnowsEntries codecs type)
    (declared : field ∈ type.fields) (entry : String)
    (form : FieldForm.ofField type.name field = .map entry) :
    field.type.isMap ∧ (codecs.get? entry).isSome := by
  obtain ⟨key, value, kind, rfl⟩ := FieldForm.exists_of_ofField_eq_map form
  exact ⟨by rw [kind]; rfl, entries field declared key value kind⟩

/-- Fields are written as they are gathered, if the groups of the fields in front are taken. -/
theorem allKeysTo_writeFields (valid : type.Valid registry)
    (entries : KnowsEntries codecs type) {taken : List String}
    {before fields : List Field} (split : type.fields = before ++ fields)
    (old : ∀ field ∈ before, ∀ group, field.oneof = some group → group ∈ taken) :
    Source.allKeysTo "bb" (writeFields codecs (.of registry names type) taken
      (fields.map (.ofField registry type.name))) =
      (gather (·.oneof) taken fields).map (keyOf registry type) := by
  induction fields generalizing taken before with
  | nil => rfl
  | cons field rest ih =>
    have declared : field ∈ type.fields := split ▸ List.mem_append_right _ List.mem_cons_self
    have split' : type.fields = (before ++ [field]) ++ rest := by simp [split]
    obtain ⟨identifier, step⟩ := writeFields_cons names codecs valid declared taken
      (rest.map (.ofField registry type.name))
    -- The groups of the fields in front stay taken, if the one of this field is taken as well.
    have further : ∀ taken' : List String, (∀ group ∈ taken, group ∈ taken') →
        (∀ group, field.oneof = some group → group ∈ taken') →
        ∀ other ∈ before ++ [field], ∀ group, other.oneof = some group → group ∈ taken' := by
      intro taken' more here other held group named
      rcases List.mem_append.1 held with earlier | last
      · exact more group (old other earlier group named)
      · exact here group (List.mem_singleton.1 last ▸ named)
    rw [List.map_cons, step, gather]
    cases grouped : field.oneof with
    | none =>
      have later := ih split' (further taken (fun _ held => held) (by simp [grouped]))
      simp only [Source.allKeysTo_append, later, List.map_cons]
      rw [allKeysTo_writeField (entries.of_ofField declared)]
      rfl
    | some group =>
      by_cases again : group ∈ taken
      · simp only [again, if_true]
        exact ih split' (further taken (fun _ held => held) (by simpa [grouped] using again))
      · -- None of the fields in front is a member, or the group would be taken.
        have members : type.fields.filter (·.oneof = some group) =
            field :: rest.filter (·.oneof = some group) := by
          have none_before : before.filter (·.oneof = some group) = [] := by
            refine List.filter_eq_nil_iff.2 fun other held named => ?_
            exact again (old other held group (by simpa using named))
          rw [split, List.filter_append, none_before, List.nil_append,
            List.filter_cons_of_pos (by simpa using grouped)]
        have later := ih split' (further (group :: taken)
          (fun _ held => List.mem_cons_of_mem _ held) (by simp [grouped]))
        simp only [again, if_false, Source.allKeysTo_append, later, allKeysTo_writeGroup valid,
          members, List.map_append]

/-- Different fields have different keys. -/
theorem eq_of_keyOf (valid : type.Valid registry) {other : Field} (declared : field ∈ type.fields)
    (declared' : other ∈ type.fields)
    (same : keyOf registry type field = keyOf registry type other) : field = other := by
  have spells {field : Field} (declared : field ∈ type.fields) :
      Wire.Key.Spells (keyOf registry type field) ⟨field.tag, _⟩ :=
    Wire.Key.spells_write (valid.fields field declared).pos (valid.fields field declared).le
  have tags : field.tag = other.tag := (spells declared).tag_unique (same ▸ spells declared')
  exact valid.eq_of_tag declared declared' tags

/-- The keys that a message is written with are those of its fields as they are gathered. -/
theorem allKeysTo_emitEncoder (valid : type.Valid registry)
    (entries : KnowsEntries codecs type) :
    Source.allKeysTo "bb" (emitEncoder codecs (.of registry names type)) =
      (gather (·.oneof) [] type.fields).map (keyOf registry type) :=
  allKeysTo_writeFields valid entries (List.nil_append _).symm fun _ held => by cases held

variable (names) in
/-- Each field of a message is written once, and the fields are written in declared order exactly
if the groups stand together. -/
theorem emitEncoder_order (valid : type.Valid registry)
    (entries : KnowsEntries codecs type) :
    let keys := Source.allKeysTo "bb" (emitEncoder codecs (.of registry names type))
    keys.Perm (type.fields.map (keyOf registry type)) ∧ keys.Nodup ∧
      (keys = type.fields.map (keyOf registry type) ↔ Together (·.oneof) type.fields) := by
  have all : type.fields.filter (isFree (·.oneof) []) = type.fields :=
    List.filter_eq_self.2 fun field _ => by cases h : field.oneof <;> simp [isFree, h]
  have perm : (gather (·.oneof) [] type.fields).Perm type.fields := by
    have perm : (gather Field.oneof [] type.fields).Perm _ := perm_gather [] type.fields
    rwa [all] at perm
  have nodup : (type.fields.map (keyOf registry type)).Nodup := by
    refine List.Nodup.map_on ?_ (List.Nodup.of_map _ (List.pairwise_map.2 valid.tags))
    exact fun field declared other declared' => eq_of_keyOf valid declared declared'
  rw [allKeysTo_emitEncoder valid entries, ← gather_eq_self_iff]
  refine ⟨perm.map _, (perm.map _).nodup_iff.2 nodup, fun same => ?_, fun same => by rw [same]⟩
  exact eq_of_map_eq (fun field held other held' =>
    eq_of_keyOf valid (perm.subset held) held') same

end Message

/-- The emitted method that writes a message of an accepted schema passes the key of each field to
the buffer once, as its lines show. The keys stand in declared order exactly if the members of each
oneof group stand together. -/
theorem emitted_keys {text : String} {config : Config} {compiled : Compiled}
    (accepted : compile text config = .ok compiled) (names : Names) {type : MessageType}
    (held : type ∈ (Registry.ofSchema compiled.schema).messages.values) :
    ∃ codec body keys, compiled.codecs.get? type.name = some codec ∧
      emitEncoder compiled.codecs ⟨type, codec, membersOf type, names⟩ = body ∧
      Source.allKeysTo "bb" body = keys ∧
      (∀ level, Source.keyLines (Source.linesAll level body) = keys.map Source.keyLine) ∧
      keys.Perm (codec.fields.map (·.key)) ∧ keys.Nodup ∧
      (keys = codec.fields.map (·.key) ↔ Together (·.oneof) type.fields) := by
  obtain ⟨schema, -, lawful, rfl⟩ := compile_eq_ok_iff.1 accepted
  have formed := (Schema.violations_eq_nil_iff.1 lawful).messages type
    (Schema.mem_types_of_mem_allMessages (Schema.mem_allMessages_of_registered held))
  have valid := formed.valid
  have entries : KnowsEntries ((CodecSet.ofSchema schema).withLimits config.limits) type := by
    intro field declared key value kind
    have inside := MessageType.mem_entryMessages declared kind
    exact CodecSet.isSome_get?_ofRegistry held (List.mem_cons_of_mem _ inside)
  have keys : (MessageCodec.ofType (.ofSchema schema) type).fields.map (·.key) =
      type.fields.map (keyOf (.ofSchema schema) type) := List.map_map
  obtain ⟨perm, nodup, ordered⟩ := emitEncoder_order names valid entries
  refine ⟨_, _, _, CodecSet.get?_ofSchema_registered held, rfl, rfl,
    keyLines_emitEncoder _ _, ?_, nodup, ?_⟩
  · rw [keys]
    exact perm
  · rw [keys]
    exact ordered

/-- The text that declares rows, with a size between their two ends, of which only one is set, and
slots with a name or else a note. -/
def rowsText : String :=
  "[null,[[\"Row\",[[\"head\",1,\"int32\",\"singular\",\"end\"],[\"size\",2,\"int32\"]," ++
    "[\"tail\",3,\"int32\",\"singular\",\"end\"]]],[\"Slot\",[[\"name\",1,\"string\"," ++
      "\"singular\",\"held\"],[\"note\",2,\"bytes\",\"singular\",\"held\"]]]]]"

/-- The fields of a row. -/
def rowFields : List Field :=
  [{ name := "head", tag := 1, type := .builtin .int32, oneof := some "end" },
    { name := "size", tag := 2, type := .builtin .int32 },
    { name := "tail", tag := 3, type := .builtin .int32, oneof := some "end" }]

/-- The fields of a slot. -/
def slotFields : List Field :=
  [{ name := "name", tag := 1, type := .builtin .string, oneof := some "held" },
    { name := "note", tag := 2, type := .builtin .bytes, oneof := some "held" }]

/-- The schema of rows and slots. -/
def rowsSchema : Schema :=
  { messages := [{ name := "Row", fields := rowFields, oneofs := .ofFields [] rowFields },
    { name := "Slot", fields := slotFields, oneofs := .ofFields [] slotFields }] }

set_option maxRecDepth 10000 in
theorem compile_rows : compile rowsText {} =
    .ok ⟨rowsSchema, (CodecSet.ofSchema rowsSchema).withLimits {}⟩ := by
  have read : readSchema rowsText = .ok rowsSchema := by decide +kernel
  exact compile_eq_ok_iff.2 ⟨_, read, by decide, rfl⟩

/-- The two keys of a slot are written in declared order. -/
theorem emitted_keys_slot : ∃ compiled, compile rowsText {} = .ok compiled ∧
    ∃ type ∈ (Registry.ofSchema compiled.schema).messages.values, type.name = "Slot" ∧
      ∃ codec, compiled.codecs.get? type.name = some codec ∧
        Source.allKeysTo "bb" (emitEncoder compiled.codecs ⟨type, codec, membersOf type,
          .of (.ofSchema compiled.schema) ""⟩) = codec.fields.map (·.key) := by
  have held : (⟨"Slot", slotFields, [], [], .ofFields [] slotFields, {}⟩ : MessageType) ∈
      (Registry.ofSchema rowsSchema).messages.values := List.mem_cons_of_mem _ List.mem_cons_self
  obtain ⟨codec, _, _, found, rfl, rfl, -, -, -, ordered⟩ :=
    emitted_keys compile_rows (.of (.ofSchema rowsSchema) "") held
  refine ⟨_, compile_rows, _, held, rfl, codec, found, ordered.2 fun _ _ _ _ inside => ?_⟩
  -- Between the only two fields stands nothing.
  exact absurd inside.length_le (by simp [slotFields])

/-- The keys of a row are written with the one of its size last, behind those of its ends. -/
theorem emitted_out_of_order : ∃ compiled, compile rowsText {} = .ok compiled ∧
    ∃ type ∈ (Registry.ofSchema compiled.schema).messages.values, ∃ codec,
      compiled.codecs.get? type.name = some codec ∧
      codec.fields.map (·.key) = [[0x08], [0x10], [0x18]] ∧
      ∀ names, Source.allKeysTo "bb" (emitEncoder compiled.codecs
        ⟨type, codec, membersOf type, names⟩) = [[0x08], [0x18], [0x10]] := by
  have held : (⟨"Row", rowFields, [], [], .ofFields [] rowFields, {}⟩ : MessageType) ∈
      (Registry.ofSchema rowsSchema).messages.values := List.mem_cons_self
  exact ⟨_, compile_rows, _, held, _, CodecSet.get?_ofSchema_registered held,
    by with_unfolding_all rfl, fun names => by with_unfolding_all rfl⟩

end Protobuf.Emission
