import ShapeTyping.Narrowing.Registry
import ShapeTyping.Proofs.Outcome
/-! The states that narrowing goes through. A step evaluates one guard at most, and the run from the
variant at some place on is a search through the variants from there on, with the same result in the
same state. Steps lead to a match only at a place where there is a variant, so that nothing but
running out of variants ends a run without a result. -/
namespace ShapeTyping.Registry

variable {σ : Type}

/-- Tries variants in order up to the first guard that does not say no. -/
def search (o : Options) (v : Value) :
    List (Variant σ) → StateM σ (Except NarrowingError (Variant σ))
  | [] => pure (.error .noMatch)
  | variant :: variants => do
    match ← (variant.guard.eval o v).run with
    | .ok true => pure (confirm o v variant)
    | .ok false => search o v variants
    | .error cause => pure (.error (.predicateFailure variant.tag cause))

variable {r : Registry σ} {v : Value} {state state' : NarrowingState} {s s' : σ}

/-! ## One step -/

theorem run_of_next (h : (r.step v state).run s = (.next state', s')) :
    r.run v state s = r.run v state' s' := by
  rw [run]
  split
  next hstep =>
    cases h.symm.trans hstep
    rfl
  next hstep => cases h.symm.trans hstep
  next hstep => cases h.symm.trans hstep

theorem run_of_leave (h : (r.step v state).run s = (.leave, s')) :
    r.run v state s = (.error .noMatch, s') := by
  rw [run]
  split
  next hstep => cases h.symm.trans hstep
  next hstep =>
    cases h.symm.trans hstep
    rfl
  next hstep => cases h.symm.trans hstep

theorem run_of_done {result : Except NarrowingError (Variant σ)}
    (h : (r.step v state).run s = (.done result, s')) : r.run v state s = (result, s') := by
  rw [run]
  split
  next hstep => cases h.symm.trans hstep
  next hstep => cases h.symm.trans hstep
  next hstep =>
    cases h.symm.trans hstep
    rfl

section
variable {index : Nat} {variant : Variant σ}

/-- How a step goes on after the answer of a guard. -/
def afterAnswer (index : Nat) (variant : Variant σ) :
    Except PredicateFailure Bool → NarrowingStep σ
  | .ok true => .next (.matched index)
  | .ok false => .next (.evaluating (index + 1))
  | .error cause => .done (.error (.predicateFailure variant.tag cause))

theorem step_evaluating (h : r.variants[index]? = some variant)
    {answer : Except PredicateFailure Bool}
    (hanswer : (variant.guard.eval r.options v).run.run s = (answer, s')) :
    (r.step v (.evaluating index)).run s = (afterAnswer index variant answer, s') := by
  simp only [step, h]
  rw [Outcome.run_bind_of hanswer]
  rcases answer with cause | accepted
  · rfl
  · cases accepted <;> rfl

theorem step_evaluating_none (h : r.variants[index]? = none) (v : Value) (s : σ) :
    (r.step v (.evaluating index)).run s = (.next .exhausted, s) := by
  simp only [step, h]
  rfl

theorem step_matched (h : r.variants[index]? = some variant) (v : Value) (s : σ) :
    (r.step v (.matched index)).run s = (.done (confirm r.options v variant), s) := by
  simp only [step, h]
  rfl

end

/-! ## The whole run -/

/-- Each step that evaluates a guard takes one variant off the rest. -/
theorem run_evaluating {index : Nat} {variants : List (Variant σ)}
    (h : r.variants.drop index = variants) (v : Value) (s : σ) :
    r.run v (.evaluating index) s = (search r.options v variants).run s := by
  induction variants generalizing index s with
  | nil =>
    have hnone : r.variants[index]? = none := by
      rw [← List.head?_drop, h, List.head?_nil]
    rw [run_of_next (step_evaluating_none hnone v s)]
    exact run_of_leave rfl
  | cons variant variants ih =>
    have hsome : r.variants[index]? = some variant := by
      rw [← List.head?_drop, h, List.head?_cons]
    have hrest : r.variants.drop (index + 1) = variants := by
      rw [← List.tail_drop, h, List.tail_cons]
    rcases hanswer : (variant.guard.eval r.options v).run.run s with ⟨answer, s'⟩
    have hstep := step_evaluating hsome hanswer
    rw [search, Outcome.run_bind_of hanswer]
    rcases answer with cause | accepted
    · exact run_of_done hstep
    · cases accepted with
      | true => exact (run_of_next hstep).trans (run_of_done (step_matched hsome v s'))
      | false => exact (run_of_next hstep).trans (ih hrest s')

theorem narrow_eq_search (r : Registry σ) (v : Value) :
    r.narrow v = search r.options v r.variants := by
  funext s
  have hstart : (r.step v .initial).run s = (.next (.evaluating 0), s) := rfl
  exact (run_of_next hstart).trans (run_evaluating rfl v s)

/-! ## The states on the way -/

/-- Narrowing the value comes from the first state into this one, and leaves this state to the
predicates. -/
inductive Reaches (r : Registry σ) (v : Value) (s : σ) : NarrowingState → σ → Prop
  | start : Reaches r v s .initial s
  | step {state state' : NarrowingState} {s₁ s₂ : σ} (before : Reaches r v s state s₁)
      (next : (r.step v state).run s₁ = (.next state', s₂)) : Reaches r v s state' s₂

theorem Reaches.exists_variant {index : Nat} {s₁ : σ} (h : Reaches r v s (.matched index) s₁) :
    ∃ variant, r.variants[index]? = some variant := by
  cases h with
  | step _ next =>
    rcases step_eq_next next with ⟨-, h⟩ | ⟨_, -, -, h⟩ | ⟨_, variant, -, hvariant, h | h⟩
    · cases h
    · cases h
    · cases h
      exact ⟨variant, hvariant⟩
    · cases h

/-- A run is left without a result in one way only. -/
theorem Reaches.eq_exhausted {s₁ s₂ : σ} (h : Reaches r v s state s₁)
    (leave : (r.step v state).run s₁ = (.leave, s₂)) : state = .exhausted := by
  cases state with
  | initial => cases leave
  | evaluating index =>
    cases hvariant : r.variants[index]? with
    | none => cases (step_evaluating_none hvariant v s₁).symm.trans leave
    | some variant =>
      rcases hanswer : (variant.guard.eval r.options v).run.run s₁ with ⟨cause | accepted, s'⟩
      · cases (step_evaluating hvariant hanswer).symm.trans leave
      · cases accepted <;> cases (step_evaluating hvariant hanswer).symm.trans leave
  | matched index =>
    obtain ⟨variant, hvariant⟩ := h.exists_variant
    cases (step_matched hvariant v s₁).symm.trans leave
  | exhausted => rfl

end ShapeTyping.Registry
