import Mathlib.Data.List.Chain
import Mathlib.Data.List.Nodup
import Mathlib.Data.List.Perm.Subperm
import Mathlib.Logic.Relation
import Protobuf.Proofs.Keyed
import Protobuf.Schema.Cycle

/-! # Circles of embeddings

The search for circles follows every embedding of every known message, and what it reports are
circles. It does not report every circle there is: of those that share their closing step, one.
Main statements: `Cycle.isCircle_of_mem_all`, `Cycle.exists_closes_of_isCircuit` and
`Cycle.exists_mem_all_iff`.

## Implementation notes

The invariant of the search, `Cycle.Search.Settled`, speaks of open embeddings: those that are not
the last step of a circle reported so far. From a finished name, open embeddings lead to finished
names only, and never back. -/

namespace Protobuf

open Relation

/-- A known message must contain another one: it has a singular field of that type outside of any
group. -/
def Registry.Embeds (registry : Registry) (name target : String) : Prop :=
  ∃ type, registry.message? name = some type ∧ (registry.message? target).isSome ∧
    ∃ field ∈ type.fields, field.type = .message target ∧ field.cardinality = .singular ∧
      field.oneof = none

theorem Field.embedded?_eq_some_iff {field : Field} {target : String} :
    field.embedded? = some target ↔ field.type = .message target ∧
      field.cardinality = .singular ∧ field.oneof = none := by
  unfold Field.embedded?
  split
  · rename_i name refers
    rw [refers, Option.ite_none_right_eq_some, Bool.and_eq_true, decide_eq_true_iff,
      Option.isNone_iff_eq_none, Option.some.injEq, FieldType.message.injEq]
    exact and_comm
  · rename_i other
    constructor
    · intro found
      cases found
    · intro kind
      exact absurd kind.1 (other target)

theorem Registry.mem_embedded_iff {registry : Registry} {name target : String} :
    target ∈ registry.embedded name ↔ registry.Embeds name target := by
  unfold Registry.embedded Registry.Embeds
  cases registry.message? name with
  | none => simp
  | some type =>
    simp only [List.mem_filter, List.mem_filterMap, Field.embedded?_eq_some_iff,
      Option.some.injEq, exists_eq_left']
    exact and_comm

namespace Cycle

variable {registry : Registry}

/-- A path along embeddings that ends where it starts and passes no other name twice. -/
structure IsCircle (registry : Registry) (path : List String) : Prop where
  steps : path.IsChain registry.Embeds
  closed : path.head? = path.getLast?
  distinct : path.tail.Nodup
  moves : path.tail ≠ []

/-- A path along steps that ends where it starts. Unlike a circle it may pass a name any number of
times. -/
structure IsCircuit (step : String → String → Prop) (path : List String) : Prop where
  steps : path.IsChain step
  closed : path.head? = path.getLast?
  moves : path.tail ≠ []

theorem IsCircle.isCircuit {path : List String} (circle : IsCircle registry path) :
    IsCircuit registry.Embeds path :=
  ⟨circle.steps, circle.closed, circle.moves⟩

/-- A circuit leads from a name back to it. -/
theorem IsCircuit.exists_transGen {step : String → String → Prop} {path : List String}
    (circuit : IsCircuit step path) : ∃ name, TransGen step name name := by
  obtain ⟨steps, closed, moves⟩ := circuit
  match path, moves with
  | start :: next :: rest, _ =>
    obtain ⟨first, after⟩ := List.isChain_cons_cons.1 steps
    have last : (next :: rest).getLast (List.cons_ne_nil _ _) = start := by
      rw [List.head?_cons, List.getLast?_cons_cons,
        List.getLast?_eq_some_getLast (List.cons_ne_nil _ _)] at closed
      exact (Option.some.inj closed).symm
    have back := List.relationReflTransGen_of_exists_isChain_cons rest after last
    exact ⟨start, TransGen.head' first back⟩

/-! ## The way to a name -/

/-- The way to a name, given backwards, goes along embeddings and passes no name twice. -/
structure Way (registry : Registry) (way : List String) (name : String) : Prop where
  steps : (name :: way).IsChain fun later earlier => registry.Embeds earlier later
  distinct : way.Nodup
  known : ∀ passed ∈ name :: way, passed ∈ registry.messages.keys

/-- A way goes on to the names that its last name embeds, unless it closes a circle. -/
theorem Way.next {way : List String} {name target : String} (reached : Way registry way name)
    (fresh : name ∉ way) (embeds : registry.Embeds name target) :
    Way registry (name :: way) target := by
  have known := embeds
  obtain ⟨_, -, known, -⟩ := known
  exact ⟨List.isChain_cons_cons.2 ⟨embeds, reached.steps⟩,
    List.nodup_cons.2 ⟨fresh, reached.distinct⟩,
    List.forall_mem_cons.2 ⟨Table.mem_keys_iff.2 known, reached.known⟩⟩

/-- A way has no more names than there are messages. -/
theorem Way.length_le {way : List String} {name : String} (reached : Way registry way name) :
    way.length ≤ registry.messages.keys.length := by
  have inside : way ⊆ registry.messages.keys :=
    fun passed held => reached.known passed (List.mem_cons_of_mem _ held)
  exact (reached.distinct.subperm inside).length_le

/-- The circle closed on a way starts at the name and goes on to the end of the way. -/
theorem closedBy_eq {name : String} {way : List String} (passed : name ∈ way) :
    ∃ before after, way.reverse = before ++ name :: after ∧
      closedBy name way = name :: after ++ [name] := by
  obtain ⟨before, after, split, first⟩ :=
    List.eq_append_cons_of_mem (List.mem_reverse.2 passed)
  have others : ∀ other ∈ before, decide (other ≠ name) = true := by
    intro other held
    exact decide_eq_true fun same => first (same ▸ held)
  refine ⟨before, after, split, ?_⟩
  rw [closedBy, split, List.dropWhile_append_of_pos others,
    List.dropWhile_cons_of_neg (by simp)]

theorem Way.isCircle {way : List String} {name : String} (reached : Way registry way name)
    (passed : name ∈ way) : IsCircle registry (closedBy name way) := by
  obtain ⟨before, after, split, closed⟩ := closedBy_eq passed
  have steps : (way.reverse ++ [name]).IsChain registry.Embeds := by
    have reversed := List.isChain_reverse.2 reached.steps
    rwa [List.reverse_cons] at reversed
  have distinct : (before ++ name :: after).Nodup := split ▸ List.nodup_reverse.2 reached.distinct
  have once := List.nodup_cons.1 (List.Nodup.of_append_right distinct)
  rw [closed]
  refine ⟨?_, ?_, ?_, ?_⟩
  · rw [split, List.append_assoc] at steps
    exact steps.right_of_append
  · rw [List.cons_append, List.head?_cons, ← List.cons_append, List.getLast?_concat]
  · rw [List.cons_append, List.tail_cons]
    exact List.concat_eq_append ▸ List.Nodup.concat once.1 once.2
  · simp

/-! ## What the search keeps -/

/-- Some path ends with the step from a name to a target. -/
def Closes (paths : List (List String)) (name target : String) : Prop :=
  ∃ path ∈ paths, [name, target] <:+ path

/-- A step back to a name on the way ends the circle that it closes. -/
theorem closes_closedBy {parent name : String} {way : List String} (passed : name ∈ parent :: way) :
    [parent, name] <:+ closedBy name (parent :: way) := by
  obtain ⟨before, after, split, closed⟩ := closedBy_eq passed
  rw [closed]
  have last : (name :: after).getLast (List.cons_ne_nil _ _) = parent := by
    have same := congrArg List.getLast? split
    rw [List.reverse_cons, List.getLast?_concat, List.getLast?_append_of_ne_nil _
      (List.cons_ne_nil _ _), List.getLast?_eq_some_getLast (List.cons_ne_nil _ _)] at same
    exact (Option.some.inj same).symm
  have ends := List.dropLast_append_getLast (List.cons_ne_nil name after)
  rw [last] at ends
  refine ⟨(name :: after).dropLast, ?_⟩
  calc (name :: after).dropLast ++ [parent, name]
      = ((name :: after).dropLast ++ [parent]) ++ [name] := by simp
    _ = name :: after ++ [name] := by rw [ends]

/-- An embedding that is not the last step of a path. -/
def Open (registry : Registry) (paths : List (List String)) (name target : String) : Prop :=
  registry.Embeds name target ∧ ¬Closes paths name target

theorem Open.of_subset {paths more : List (List String)} (grown : paths ⊆ more)
    {name target : String} (stays : Open registry more name target) :
    Open registry paths name target := by
  refine ⟨stays.1, fun closes => stays.2 ?_⟩
  obtain ⟨path, held, ends⟩ := closes
  exact ⟨path, grown held, ends⟩

/-- All that can be reached from finished names was followed: what has been reported are circles,
and open embeddings lead from finished names to finished names and never back. -/
structure Search.Settled (registry : Registry) (search : Search) : Prop where
  circles : ∀ path ∈ search.cycles, IsCircle registry path
  closed : ∀ name target, search.finished.contains name →
    Open registry search.cycles name target → search.finished.contains target
  never_back : ∀ name, search.finished.contains name →
    ¬TransGen (Open registry search.cycles) name name

theorem Search.settled_start : Search.Settled registry {} where
  circles := fun path held => absurd held List.not_mem_nil
  closed := fun name target done => by cases done
  never_back := fun name done => by cases done

/-- Open embeddings lead from a finished name to finished names only. -/
theorem Search.Settled.contains_of_transGen {search : Search} (settled : search.Settled registry)
    {name target : String} (done : search.finished.contains name)
    (leads : TransGen (Open registry search.cycles) name target) :
    search.finished.contains target := by
  induction leads with
  | single step => exact settled.closed _ _ done step
  | tail _ step before => exact settled.closed _ _ before step

/-- Reporting one more circle keeps a search settled. -/
theorem Search.Settled.report {search : Search} (settled : search.Settled registry)
    {path : List String} (circle : IsCircle registry path) :
    Search.Settled registry { search with cycles := search.cycles ++ [path] } := by
  have grown : search.cycles ⊆ search.cycles ++ [path] := List.subset_append_left _ _
  refine ⟨?_, ?_, ?_⟩
  · intro other held
    rcases List.mem_append.1 held with old | new
    · exact settled.circles other old
    · exact List.mem_singleton.1 new ▸ circle
  · intro name target done step
    exact settled.closed name target done (step.of_subset grown)
  · intro name done back
    have fewer : TransGen (Open registry search.cycles) name name :=
      TransGen.mono (fun _ _ step => Open.of_subset grown step) _ _ back
    exact settled.never_back name done fewer

/-- Finishing a name whose open embeddings are finished keeps a search settled. -/
theorem Search.Settled.finish {search : Search} (settled : search.Settled registry) {name : String}
    (fresh : ¬search.finished.contains name)
    (followed : ∀ target, Open registry search.cycles name target →
      search.finished.contains target) :
    Search.Settled registry { search with finished := search.finished.add name } := by
  refine ⟨settled.circles, ?_, ?_⟩
  · intro first target done step
    refine KeySet.contains_add.2 (.inr ?_)
    rcases KeySet.contains_add.1 done with rfl | before
    · exact followed target step
    · exact settled.closed first target before step
  · intro first done back
    rcases KeySet.contains_add.1 done with rfl | before
    · -- The first step leaves the name for finished names, and from these nothing leads to it.
      obtain ⟨next, step, rest⟩ := TransGen.head'_iff.1 back
      have there := followed next step
      rcases reflTransGen_iff_eq_or_transGen.1 rest with rfl | leads
      · exact fresh there
      · exact fresh (settled.contains_of_transGen there leads)
    · exact settled.never_back first before back

/-! ## Visiting a name -/

/-- What visits of names reached on one way do to a search: they keep what was known, finish nothing
on the way, and either finish a name or report the step to it as closing. -/
structure Visited (registry : Registry) (way names : List String) (before after : Search) :
    Prop where
  settled : after.Settled registry
  finished : ∀ done, before.finished.contains done → after.finished.contains done
  cycles : before.cycles ⊆ after.cycles
  apart : ∀ passed ∈ way, after.finished.contains passed → before.finished.contains passed
  reached : ∀ name ∈ names, after.finished.contains name ∨
    ∃ parent, way.head? = some parent ∧ Closes after.cycles parent name

theorem Closes.of_subset {paths more : List (List String)} (grown : paths ⊆ more)
    {name target : String} (closes : Closes paths name target) : Closes more name target := by
  obtain ⟨path, held, ends⟩ := closes
  exact ⟨path, grown held, ends⟩

/-- One visit after another. -/
theorem visited_foldl {way : List String} {step : Search → String → Search}
    {names : List String} {before : Search} (settled : before.Settled registry)
    (visits : ∀ name ∈ names, ∀ search, search.Settled registry →
      Visited registry way [name] search (step search name)) :
    Visited registry way names before (names.foldl step before) := by
  induction names generalizing before with
  | nil =>
    exact ⟨settled, fun _ done => done, List.Subset.refl _, fun _ _ done => done,
      fun name held => absurd held List.not_mem_nil⟩
  | cons name rest ih =>
    have first := visits name List.mem_cons_self before settled
    have later := ih first.settled fun other held => visits other (List.mem_cons_of_mem _ held)
    rw [List.foldl_cons]
    refine ⟨later.settled, ?_, ?_, ?_, ?_⟩
    · exact fun done held => later.finished done (first.finished done held)
    · exact List.Subset.trans first.cycles later.cycles
    · exact fun passed held done => first.apart passed held (later.apart passed held done)
    · intro other held
      rcases List.mem_cons.1 held with rfl | after
      · rcases first.reached other (List.mem_singleton_self _) with done | ⟨parent, head, closes⟩
        · exact .inl (later.finished other done)
        · exact .inr ⟨parent, head, closes.of_subset later.cycles⟩
      · exact later.reached other after

/-- A visit with fuel for as many names as are not on the way yet settles the name. -/
theorem visited_visit {fuel : Nat} {way : List String} {name : String} {search : Search}
    (enough : registry.messages.keys.length < fuel + way.length)
    (reached : Way registry way name) (settled : search.Settled registry) :
    Visited registry way [name] search (visit registry fuel way search name) := by
  induction fuel generalizing way name search with
  | zero =>
    have short := reached.length_le
    omega
  | succ fuel ih =>
    unfold visit
    split
    · rename_i passed
      have passed : name ∈ way := List.contains_iff_mem.1 passed
      refine ⟨settled.report (reached.isCircle passed), fun _ done => done,
        List.subset_append_left _ _, fun _ _ done => done, List.forall_mem_singleton.2 (.inr ?_)⟩
      match way, passed with
      | parent :: rest, passed =>
        exact ⟨parent, rfl, _, List.mem_append_right _ (List.mem_singleton_self _),
          closes_closedBy passed⟩
    · rename_i fresh
      have fresh : name ∉ way := fun passed => fresh (List.contains_iff_mem.2 passed)
      split
      · rename_i done
        exact ⟨settled, fun _ done => done, List.Subset.refl _, fun _ _ done => done,
          List.forall_mem_singleton.2 (.inl done)⟩
      · rename_i unfinished
        have fewer : registry.messages.keys.length < fuel + (name :: way).length := by
          rw [List.length_cons]
          omega
        have inner : Visited registry (name :: way) (registry.embedded name) search _ :=
          visited_foldl settled fun target embedded other kept =>
            ih fewer (reached.next fresh (Registry.mem_embedded_iff.1 embedded)) kept
        refine ⟨inner.settled.finish ?_ ?_, ?_, inner.cycles, ?_, ?_⟩
        · exact fun done => unfinished (inner.apart name List.mem_cons_self done)
        · intro target stays
          rcases inner.reached target (Registry.mem_embedded_iff.2 stays.1) with
            done | ⟨parent, head, closes⟩
          · exact done
          · cases head
            exact absurd closes stays.2
        · exact fun done held => KeySet.contains_add.2 (.inr (inner.finished done held))
        · intro passed held done
          rcases KeySet.contains_add.1 done with rfl | before
          · exact absurd held fresh
          · exact inner.apart passed (List.mem_cons_of_mem _ held) before
        · exact List.forall_mem_singleton.2 (.inl (KeySet.contains_add.2 (.inl rfl)))

/-! ## The whole search -/

/-- The search from every message finishes all of them. -/
theorem visited_all (registry : Registry) :
    Visited registry [] registry.messages.keys {} (registry.messages.keys.foldl
      (visit registry (registry.messages.keys.length + 1) []) {}) := by
  refine visited_foldl Search.settled_start fun name held search settled => ?_
  have start : Way registry [] name :=
    ⟨List.isChain_singleton _, List.nodup_nil, List.forall_mem_singleton.2 held⟩
  exact visited_visit (Nat.lt_succ_self _) start settled

/-- Every path that is reported is a circle of embeddings. -/
theorem isCircle_of_mem_all {path : List String} (held : path ∈ all registry) :
    IsCircle registry path :=
  (visited_all registry).settled.circles path held

/-- No name leads back to itself along embeddings that are not the last step of a reported path. -/
theorem not_open_circle (registry : Registry) (name : String) :
    ¬TransGen (Open registry (all registry)) name name := by
  intro back
  obtain ⟨next, ⟨⟨type, found, -⟩, -⟩, -⟩ := TransGen.head'_iff.1 back
  have known : name ∈ registry.messages.keys :=
    Table.mem_keys_iff.2 (Option.isSome_iff_exists.2 ⟨type, found⟩)
  have searched := visited_all registry
  refine searched.settled.never_back name ?_ back
  rcases searched.reached name known with done | ⟨_, none, -⟩
  · exact done
  · cases none

/-- Every circuit of embeddings has the last step of a reported path among its steps. -/
theorem exists_closes_of_isCircuit {path : List String} (circuit : IsCircuit registry.Embeds path) :
    ∃ name target, [name, target] <:+: path ∧ Closes (all registry) name target := by
  by_contra nothing
  have stays : path.IsChain (Open registry (all registry)) := by
    apply List.isChain_iff_forall_rel_of_append_cons_cons.2
    intro name target before after split
    have embeds := List.isChain_iff_forall_rel_of_append_cons_cons.1 circuit.steps split
    refine ⟨embeds, fun closes => nothing ⟨name, target, ⟨before, after, ?_⟩, closes⟩⟩
    rw [split, List.append_assoc, List.cons_append, List.singleton_append]
  obtain ⟨name, back⟩ := IsCircuit.exists_transGen ⟨stays, circuit.closed, circuit.moves⟩
  exact not_open_circle registry name back

/-- Some path is reported exactly if some message leads back to itself. -/
theorem exists_mem_all_iff (registry : Registry) :
    (∃ path, path ∈ all registry) ↔ ∃ name, TransGen registry.Embeds name name := by
  constructor
  · rintro ⟨path, held⟩
    exact (isCircle_of_mem_all held).isCircuit.exists_transGen
  · rintro ⟨name, back⟩
    by_contra nothing
    refine not_open_circle registry name (TransGen.mono ?_ _ _ back)
    rintro first second embeds
    refine ⟨embeds, ?_⟩
    rintro ⟨path, held, -⟩
    exact nothing ⟨path, held⟩

end Cycle

end Protobuf
