/-! The options every query is asked under, and the limits on nesting. -/
namespace ShapeTyping

/-- How the parameter types of two signatures are compared at one position. -/
inductive Variance where
  /-- Each type is assignable to the other. -/
  | equivalent
  /-- The required type is assignable to the candidate's. -/
  | contravariant
  /-- One of the two is assignable to the other. -/
  | bivariant
deriving DecidableEq

structure Options where
  /-- When off, `null` and `undefined` belong to every type. -/
  strictNullChecks : Bool := true
  parameterVariance : Variance := .equivalent
  /-- When off, an optional field may hold an explicit `undefined`. -/
  exactOptionalPropertyTypes : Bool := false
  /-- Adds `undefined` to the type of an array access. -/
  noUncheckedIndexedAccess : Bool := false
  /-- Checks a narrowed value against the shape of its variant. -/
  verifyVariantShapes : Bool := false
  /-- How deep a comparison of types may nest. -/
  maxDepth : Nat := 64
deriving DecidableEq

namespace Options

/-- The default options with the checks meant for development switched on. -/
def debug : Options := { verifyVariantShapes := true }

/-- How deep a value is checked, whatever `maxDepth` says. -/
def conformanceCap : Nat := 64

/-- How deep cascades are resolved, whatever `maxDepth` says. -/
def cascadeCap : Nat := 32

def conformanceLimit (o : Options) : Nat :=
  if o.maxDepth ≤ conformanceCap then o.maxDepth else conformanceCap

def cascadeLimit (o : Options) : Nat :=
  if o.maxDepth ≤ cascadeCap then o.maxDepth else cascadeCap

theorem conformanceLimit_eq (o : Options) : o.conformanceLimit = min o.maxDepth 64 := by
  unfold conformanceLimit conformanceCap
  split <;> omega

theorem cascadeLimit_eq (o : Options) : o.cascadeLimit = min o.maxDepth 32 := by
  unfold cascadeLimit cascadeCap
  split <;> omega

end Options
end ShapeTyping
