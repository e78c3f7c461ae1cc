/-! # Runs of steps that may fail

When a run succeeds, exactly if each step does, and where it fails. -/

namespace Protobuf

variable {ε α β σ : Type}

@[simp] theorem ok_bind (a : α) (next : α → Except ε β) :
    ((Except.ok a : Except ε α) >>= next) = next a := rfl

@[simp] theorem error_bind (error : ε) (next : α → Except ε β) :
    ((Except.error error : Except ε α) >>= next) = .error error := rfl

@[simp] theorem pure_eq_ok (a : α) : (pure a : Except ε α) = .ok a := rfl

@[simp] theorem map_ok (f : α → β) (a : α) : (f <$> (Except.ok a : Except ε α)) = .ok (f a) := rfl

theorem bind_eq_ok_iff {first : Except ε α} {next : α → Except ε β} {b : β} :
    first >>= next = .ok b ↔ ∃ a, first = .ok a ∧ next a = .ok b := by
  cases first with
  | error error => simp
  | ok a => simp

theorem map_eq_ok_iff {first : Except ε α} {f : α → β} {b : β} :
    f <$> first = .ok b ↔ ∃ a, first = .ok a ∧ f a = b := by
  cases first with
  | error error => simp [Functor.map, Except.map]
  | ok a => simp

theorem foldlM_append_eq_ok_iff {step : σ → α → Except ε σ} {items more : List α}
    {start finish : σ} :
    (items ++ more).foldlM step start = .ok finish ↔
      ∃ middle, items.foldlM step start = .ok middle ∧ more.foldlM step middle = .ok finish := by
  rw [List.foldlM_append, bind_eq_ok_iff]

/-- A run that goes on to an item has come to something in front of it, which the item is a step
from. -/
theorem foldlM_append_cons_eq_ok_iff {step : σ → α → Except ε σ} {front back : List α} {item : α}
    {start finish : σ} :
    (front ++ item :: back).foldlM step start = .ok finish ↔
      ∃ before after, front.foldlM step start = .ok before ∧ step before item = .ok after ∧
        back.foldlM step after = .ok finish := by
  simp only [foldlM_append_eq_ok_iff, List.foldlM_cons, bind_eq_ok_iff, exists_and_left]

theorem bind_eq_error_iff {first : Except ε α} {next : α → Except ε β} {error : ε} :
    first >>= next = .error error ↔
      first = .error error ∨ ∃ a, first = .ok a ∧ next a = .error error := by
  cases first with
  | error error' => simp
  | ok a => simp

theorem map_eq_error_iff {first : Except ε α} {f : α → β} {error : ε} :
    f <$> first = .error error ↔ first = .error error := by
  cases first with
  | error error' => simp [Functor.map, Except.map]
  | ok a => simp

/-- A run fails exactly as the first of its steps that fails. -/
theorem foldlM_eq_error_iff {step : σ → α → Except ε σ} {items : List α} {start : σ} {error : ε} :
    items.foldlM step start = .error error ↔
      ∃ front item back before, items = front ++ item :: back ∧
        front.foldlM step start = .ok before ∧ step before item = .error error := by
  constructor
  · intro failed
    induction items generalizing start with
    | nil => cases failed
    | cons item rest ih =>
      rw [List.foldlM_cons, bind_eq_error_iff] at failed
      rcases failed with here | ⟨next, first, later⟩
      · exact ⟨[], item, rest, start, rfl, rfl, here⟩
      · obtain ⟨front, other, back, before, rfl, led, fails⟩ := ih later
        refine ⟨item :: front, other, back, before, rfl, ?_, fails⟩
        rw [List.foldlM_cons, first, ok_bind, led]
  · rintro ⟨front, item, back, before, rfl, led, fails⟩
    rw [List.foldlM_append, led, ok_bind, List.foldlM_cons, fails, error_bind]

/-- Each item that comes out is made of one that went in. -/
theorem exists_of_mem_mapM {step : α → Except ε β} {items : List α} {made : List β}
    (done : items.mapM step = .ok made) {b : β} (held : b ∈ made) :
    ∃ a ∈ items, step a = .ok b := by
  induction items generalizing made with
  | nil =>
    cases done
    cases held
  | cons item rest ih =>
    simp only [List.mapM_cons, bind_eq_ok_iff] at done
    obtain ⟨first, here, others, after, same⟩ := done
    cases same
    rcases List.mem_cons.1 held with rfl | later
    · exact ⟨item, List.mem_cons_self, here⟩
    · obtain ⟨a, among, there⟩ := ih after later
      exact ⟨a, List.mem_cons_of_mem _ among, there⟩

/-- A run comes to the same if each step that succeeds does so otherwise as well. -/
theorem foldlM_mono {step other : σ → α → Except ε σ} {items : List α} {start finish : σ}
    (step_mono : ∀ item ∈ items, ∀ before after, step before item = .ok after →
      other before item = .ok after)
    (done : items.foldlM step start = .ok finish) : items.foldlM other start = .ok finish := by
  induction items generalizing start with
  | nil => exact done
  | cons item rest ih =>
    obtain ⟨here, later⟩ := List.forall_mem_cons.1 step_mono
    rw [List.foldlM_cons, bind_eq_ok_iff] at done
    obtain ⟨middle, first, after⟩ := done
    rw [List.foldlM_cons, here _ _ first, ok_bind]
    exact ih later after

/-- What each step keeps, a run of steps keeps. -/
theorem foldlM_keeps (kept : σ → Prop) {step : σ → α → Except ε σ} {items : List α}
    {start finish : σ}
    (step_keeps : ∀ before item after, item ∈ items → kept before → step before item = .ok after →
      kept after)
    (kept_start : kept start) (done : items.foldlM step start = .ok finish) : kept finish := by
  induction items generalizing start with
  | nil =>
    cases done
    exact kept_start
  | cons item rest ih =>
    rw [List.foldlM_cons, bind_eq_ok_iff] at done
    obtain ⟨middle, first, after⟩ := done
    exact ih (fun before other after held => step_keeps before other after
      (List.mem_cons_of_mem _ held)) (step_keeps start item middle List.mem_cons_self kept_start
      first) after

/-- Runs whose steps come to the same come to the same. -/
theorem foldlM_congr {step other : σ → α → Except ε σ} {items : List α}
    (alike : ∀ item ∈ items, ∀ state, step state item = other state item) (start : σ) :
    items.foldlM step start = items.foldlM other start := by
  induction items generalizing start with
  | nil => rfl
  | cons item rest ih =>
    obtain ⟨here, later⟩ := List.forall_mem_cons.1 alike
    rw [List.foldlM_cons, List.foldlM_cons, here]
    exact congrArg _ (funext (ih later))

/-! ## Other errors -/

variable {ε' : Type} {f : ε → ε'}

theorem mapError_error (error : ε) :
    (Except.error error : Except ε α).mapError f = .error (f error) := rfl

theorem mapError_bind (first : Except ε α) (next : α → Except ε β) :
    (first >>= next).mapError f = first.mapError f >>= fun a => (next a).mapError f := by
  cases first <;> rfl

theorem mapError_foldlM (step : σ → α → Except ε σ) (items : List α) (start : σ) :
    (items.foldlM step start).mapError f =
      items.foldlM (fun state item => (step state item).mapError f) start := by
  induction items generalizing start with
  | nil => rfl
  | cons item rest ih =>
    rw [List.foldlM_cons, List.foldlM_cons, mapError_bind]
    exact congrArg _ (funext ih)

end Protobuf
