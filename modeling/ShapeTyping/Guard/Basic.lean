import ShapeTyping.Conformance.Walk
/-! Guards: tests that decide whether a value belongs to a variant. Predicates of
the caller may keep a state of their own and may fail. -/
namespace ShapeTyping

structure PredicateFailure where
  message : String
deriving DecidableEq

/-- A test that may change the callers' state, and keeps what it changed even if
it fails. -/
abbrev Attempt (σ : Type) := ExceptT PredicateFailure (StateM σ)

inductive Guard (σ : Type) where
  | typeof (kind : TypeofResult)
  /-- The value has the property. Only objects, arrays and functions may be
  asked. -/
  | inProperty (name : String)
  /-- The value has the property, and it is a function. -/
  | callable (name : String)
  /-- The value has the property, and it is the literal. -/
  | discriminant (property : String) (value : Literal)
  | conforms (shape : Shape Ty)
  | truthy
  | all (guards : List (Guard σ))
  | any (guards : List (Guard σ))
  | not (guard : Guard σ)
  | custom (test : Value → StateM σ Bool)
  | fallible (test : Value → Attempt σ Bool)

namespace Guard

variable {σ : Type}

/-- A test that leaves the state alone. -/
def settled (answer : Except PredicateFailure Bool) : Attempt σ Bool := ExceptT.mk (pure answer)

def hasProperty (v : Value) (name : String) : Except PredicateFailure Bool :=
  match v with
  | .object entries => .ok (entries.lookup name).isSome
  | .array _ | .function _ _ => .ok false
  | _ => .error ⟨"cannot use 'in' operator to search for '" ++ name ++ "' in " ++ v.kindName⟩

def isCallable (v : Value) (name : String) : Bool :=
  match v.getDefined? name with
  | some w => w.isFunction
  | none => false

def isDiscriminant (v : Value) (property : String) (value : Literal) : Bool :=
  match v.get? property with
  | some w => w.isLiteral value
  | none => false

mutual
/-- Evaluates a guard. Lists are tried from left to right up to the first answer
that settles them, and the first failure ends the evaluation. -/
def eval (o : Options) (v : Value) (g : Guard σ) : Attempt σ Bool :=
  match g with
  | .typeof kind => pure (v.typeof == kind)
  | .inProperty name => settled (hasProperty v name)
  | .callable name => pure (isCallable v name)
  | .discriminant property value => pure (isDiscriminant v property value)
  | .conforms s => pure (v.conformsToShape s o).isOk
  | .truthy => pure v.isTruthy
  | .all guards => evalAll o v guards
  | .any guards => evalAny o v guards
  | .not g => do
    let answer ← eval o v g
    pure !answer
  | .custom test => ExceptT.lift (test v)
  | .fallible test => test v
termination_by structural g
def evalAll (o : Options) (v : Value) (gs : List (Guard σ)) : Attempt σ Bool :=
  match gs with
  | [] => pure true
  | g :: gs => do
    let answer ← eval o v g
    if answer then evalAll o v gs else pure false
termination_by structural gs
def evalAny (o : Options) (v : Value) (gs : List (Guard σ)) : Attempt σ Bool :=
  match gs with
  | [] => pure false
  | g :: gs => do
    let answer ← eval o v g
    if answer then pure true else evalAny o v gs
termination_by structural gs
end

end Guard
/-- Induction over guards: the parts of a guard are the guards it puts together. -/
@[induction_eliminator]
theorem Guard.induction {σ : Type} {P : Guard σ → Prop} (typeof : ∀ kind, P (.typeof kind))
    (inProperty : ∀ name, P (.inProperty name)) (callable : ∀ name, P (.callable name))
    (discriminant : ∀ property value, P (.discriminant property value))
    (conforms : ∀ shape, P (.conforms shape)) (truthy : P .truthy)
    (all : ∀ guards, (∀ g ∈ guards, P g) → P (.all guards))
    (any : ∀ guards, (∀ g ∈ guards, P g) → P (.any guards))
    (not : ∀ guard, P guard → P (.not guard)) (custom : ∀ test, P (.custom test))
    (fallible : ∀ test, P (.fallible test)) (g : Guard σ) : P g := by
  apply @Guard.rec σ P (fun gs => ∀ g ∈ gs, P g)
  case all => exact all
  case any => exact any
  case not => exact not
  all_goals simp_all

end ShapeTyping
