import ShapeTyping.Assignability.Walk
import ShapeTyping.Ty.Display
/-! Why one signature may not stand where another is wanted. -/
namespace ShapeTyping

inductive Mismatch where
  | tooManyParameters (candidateRequired requiredDeclared : Nat)
  | parameterType (index : Nat) (candidate required : Ty)
  /-- A required parameter past the candidate's last one. -/
  | uncoveredParameter (index : Nat)
  | returnType (candidate required : Ty)

def Mismatch.message : Mismatch → String
  | .tooManyParameters candidateRequired requiredDeclared =>
    "candidate requires " ++ toString candidateRequired ++ " parameter(s) but only " ++
      toString requiredDeclared ++ " are declared"
  | .parameterType index candidate required =>
    "parameter " ++ toString index ++ " has type '" ++ candidate.display ++ "' but '" ++
      required.display ++ "' is required"
  | .uncoveredParameter index =>
    "required parameter " ++ toString index ++ " has no counterpart in the candidate"
  | .returnType candidate required =>
    "return type '" ++ candidate.display ++ "' is not compatible with '" ++
      required.display ++ "'"

/-- A condition, with the mismatch if it is not met. Comparing types may take
long, so a condition is looked into only when its turn comes. -/
abbrev Condition := Unit → Option Mismatch

namespace Signature

def countMismatch? (c r : Signature Ty) : Option Mismatch :=
  if c.requiredCount ≤ r.params.length then none
  else some (.tooManyParameters c.requiredCount r.params.length)

def paramMismatch? (o : Options) (index : Nat) (p q : Param Ty) : Option Mismatch :=
  if (Assignability.paramsRelated o.parameterVariance (Assignability.verdict o) p.type q.type).holds then none
  else some (.parameterType index p.type q.type)

def coverMismatch? (c r : Signature Ty) : Option Mismatch :=
  ((r.params.drop c.params.length).find? fun q => !q.optional).map fun q =>
    .uncoveredParameter q.position

def resultMismatch? (o : Options) (relation : ResultRelation) (c r : Signature Ty) :
    Option Mismatch :=
  if (Assignability.resultsRelated relation (Assignability.verdict o) c.result r.result).holds then none
  else some (.returnType c.result r.result)

/-- The conditions on the parameters from an index on. -/
def paramConditions (o : Options) (index : Nat) :
    List (Param Ty) → List (Param Ty) → List Condition
  | p :: ps, q :: qs =>
    (fun _ => paramMismatch? o index p q) :: paramConditions o (index + 1) ps qs
  | _, _ => []

/-- What `c` has to meet to stand where `r` is wanted, in order. -/
def conditions (o : Options) (relation : ResultRelation) (c r : Signature Ty) : List Condition :=
  (fun _ => countMismatch? c r) :: paramConditions o 0 c.params r.params ++
    [fun _ => coverMismatch? c r, fun _ => resultMismatch? o relation c r]

/-- Whether a function of signature `c` may stand where `r` is wanted. -/
def isCompatible (c r : Signature Ty) (o : Options) : Bool :=
  (Assignability.signature o.parameterVariance .covariant (Assignability.verdict o) c r).holds

end Signature
end ShapeTyping
