import ShapeTyping.SchemaError
import ShapeTyping.Ty.Union
/-! Building signatures. Parameters declare their positions in order, and no
required one comes after an optional one. -/
namespace ShapeTyping.Signature

variable {τ : Type}

/-- The first fault in a list of parameters that starts at position `expected`. -/
def fault? (expected : Nat) (afterOptional : Bool) : List (Param τ) → Option SchemaError
  | [] => none
  | p :: ps =>
    if p.position ≠ expected then some (.misplacedParameter expected p.position)
    else if p.optional then fault? (expected + 1) true ps
    else if afterOptional then some (.requiredAfterOptional p.position)
    else fault? (expected + 1) false ps

def ofParams (params : List (Param τ)) (result : τ) : Except SchemaError (Signature τ) :=
  match fault? 0 false params with
  | some e => .error e
  | none => .ok ⟨params, result⟩

/-- Parameters of the given types from position `first` on. -/
def paramsFrom (optional : Bool) (first : Nat) : List τ → List (Param τ)
  | [] => []
  | t :: ts => ⟨first, optional, t⟩ :: paramsFrom optional (first + 1) ts

/-- The required parameters and then the optional ones, each in its place. -/
def ofTypes (required optional : List τ) (result : τ) : Except SchemaError (Signature τ) :=
  ofParams (paramsFrom false 0 required ++ paramsFrom true required.length optional) result

/-- How many arguments a caller has to pass. -/
def requiredCount (s : Signature τ) : Nat :=
  (s.params.takeWhile fun p => !p.optional).length

end ShapeTyping.Signature
