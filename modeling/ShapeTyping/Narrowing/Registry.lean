import ShapeTyping.Guard.Basic
/-! Narrowing: the first variant whose guard accepts a value. It goes from state to state, one guard
at a time. -/
namespace ShapeTyping

structure Variant (σ : Type) where
  tag : String
  shape : Shape Ty
  guard : Guard σ

inductive NarrowingError where
  | noMatch
  | predicateFailure (tag : String) (cause : PredicateFailure)
  | duplicateVariant (tag : String)
  /-- The guard of a variant accepted a value that is not of its shape. -/
  | shapeAssertion (tag : String) (violation : Violation)

def NarrowingError.message : NarrowingError → String
  | .noMatch => "no registered variant matched the value"
  | .predicateFailure tag cause =>
    "predicate for variant `" ++ tag ++ "` failed: " ++ cause.message
  | .duplicateVariant tag => "variant `" ++ tag ++ "` is registered more than once"
  | .shapeAssertion tag violation =>
    "predicate for variant `" ++ tag ++ "` accepted a value outside its shape: " ++
      violation.message

/-- Where narrowing a value stands. Variants are known by their place. -/
inductive NarrowingState where
  | initial
  /-- The guard of the variant is about to be evaluated. -/
  | evaluating (index : Nat)
  /-- The guard of the variant said yes. -/
  | matched (index : Nat)
  | exhausted
deriving DecidableEq

/-- What one step comes to. -/
inductive NarrowingStep (σ : Type) where
  | next (state : NarrowingState)
  /-- There is nothing to go on with. -/
  | leave
  | done (result : Except NarrowingError (Variant σ))

/-- Variants in the order in which they are tried. -/
structure Registry (σ : Type) where
  variants : List (Variant σ)
  options : Options

namespace Registry

variable {σ : Type}

def empty (o : Options) : Registry σ := ⟨[], o⟩

def tags (r : Registry σ) : List String := r.variants.map fun variant => variant.tag

/-- Adds a variant at the end. A tag is used once. -/
def register (r : Registry σ) (variant : Variant σ) : Except NarrowingError (Registry σ) :=
  if r.tags.contains variant.tag then .error (.duplicateVariant variant.tag)
  else .ok { r with variants := r.variants ++ [variant] }

/-- What comes of a match: a guard is taken at its word unless the options ask to
verify it. -/
def confirm (o : Options) (v : Value) (variant : Variant σ) : Except NarrowingError (Variant σ) :=
  if o.verifyVariantShapes then
    match v.conformsToShape variant.shape o with
    | .ok () => .ok variant
    | .error violation => .error (.shapeAssertion variant.tag violation)
  else .ok variant

def step (r : Registry σ) (v : Value) : NarrowingState → StateM σ (NarrowingStep σ)
  | .initial => pure (.next (.evaluating 0))
  | .evaluating index =>
    match r.variants[index]? with
    | none => pure (.next .exhausted)
    | some variant => do
      match ← (variant.guard.eval r.options v).run with
      | .ok true => pure (.next (.matched index))
      | .ok false => pure (.next (.evaluating (index + 1)))
      | .error cause => pure (.done (.error (.predicateFailure variant.tag cause)))
  | .matched index =>
    match r.variants[index]? with
    | none => pure .leave
    | some variant => pure (.done (confirm r.options v variant))
  | .exhausted => pure .leave

/-- How many steps there may be from a state on. -/
def stepsLeft (r : Registry σ) : NarrowingState → Nat
  | .initial => r.variants.length + 3
  | .evaluating index => r.variants.length - index + 2
  | .matched _ => 1
  | .exhausted => 0

/-- What a step may lead to. -/
theorem step_eq_next {r : Registry σ} {v : Value} {state state' : NarrowingState} {s s' : σ}
    (h : (r.step v state).run s = (.next state', s')) :
    state = .initial ∧ state' = .evaluating 0 ∨
    (∃ index, state = .evaluating index ∧ r.variants[index]? = none ∧ state' = .exhausted) ∨
    ∃ index variant, state = .evaluating index ∧ r.variants[index]? = some variant ∧
      (state' = .matched index ∨ state' = .evaluating (index + 1)) := by
  cases state with
  | initial =>
    cases h
    exact .inl ⟨rfl, rfl⟩
  | evaluating index =>
    cases hvariant : r.variants[index]? with
    | none =>
      simp only [step, hvariant] at h
      cases h
      exact .inr (.inl ⟨index, rfl, hvariant, rfl⟩)
    | some variant =>
      refine .inr (.inr ⟨index, variant, rfl, hvariant, ?_⟩)
      simp only [step, hvariant, StateT.run_bind] at h
      revert h
      rcases (variant.guard.eval r.options v).run.run s with ⟨cause | accepted, s₁⟩ <;> intro h
      · cases h
      · cases accepted with
        | true =>
          cases h
          exact .inl rfl
        | false =>
          cases h
          exact .inr rfl
  | matched index =>
    cases hvariant : r.variants[index]? with
    | none =>
      simp only [step, hvariant] at h
      cases h
    | some variant =>
      simp only [step, hvariant] at h
      cases h
  | exhausted => cases h

theorem stepsLeft_lt {r : Registry σ} {v : Value} {state state' : NarrowingState} {s s' : σ}
    (h : (r.step v state).run s = (.next state', s')) : r.stepsLeft state' < r.stepsLeft state := by
  rcases step_eq_next h with ⟨rfl, rfl⟩ | ⟨index, rfl, hnone, rfl⟩ |
    ⟨index, variant, rfl, hsome, hnext⟩
  · simp [stepsLeft]
  · simp [stepsLeft]
  · have hindex : index < r.variants.length := (List.getElem?_eq_some_iff.mp hsome).1
    rcases hnext with rfl | rfl
    · simp [stepsLeft]
    · simp only [stepsLeft]
      omega

/-- Steps from a state on, until one gives a result or there is nothing to go on with. -/
def run (r : Registry σ) (v : Value) (state : NarrowingState) (s : σ) :
    Except NarrowingError (Variant σ) × σ :=
  match _hstep : (r.step v state).run s with
  | (.next state', s') => r.run v state' s'
  | (.leave, s') => (.error .noMatch, s')
  | (.done result, s') => (result, s')
termination_by r.stepsLeft state
decreasing_by exact stepsLeft_lt _hstep

/-- The variant of a value. -/
def narrow (r : Registry σ) (v : Value) : StateM σ (Except NarrowingError (Variant σ)) :=
  r.run v .initial

end Registry
end ShapeTyping
