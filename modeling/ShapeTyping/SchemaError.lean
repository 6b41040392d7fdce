/-! Why a description of types or defaults is refused. -/
namespace ShapeTyping

inductive SchemaError where
  | duplicateField (name : String)
  | requiredAfterOptional (position : Nat)
  | misplacedParameter (expected found : Nat)
  | degenerateUnion (members : Nat)
  | emptyOverloadSet
  | conflictingField (name : String)
  | nonObjectDefault
  | defaultTypeMismatch (name : String)
  | nestedCascadeOnNonObject (name : String)
  | nestedCascadeShapeMismatch (name : String)
  | unknownField (name : String)
  | readonlyViolation (name : String)
  | deleteOfRequiredField (name : String)
deriving DecidableEq

def SchemaError.message : SchemaError → String
  | .duplicateField name => "invalid schema: duplicate field `" ++ name ++ "`"
  | .requiredAfterOptional position =>
    "invalid schema: required parameter at position " ++ toString position ++
      " follows an optional parameter"
  | .misplacedParameter expected found =>
    "invalid schema: parameter declared at position " ++ toString found ++
      " but listed at position " ++ toString expected
  | .degenerateUnion members =>
    "invalid schema: a union needs at least two distinct members, got " ++ toString members
  | .emptyOverloadSet => "invalid schema: an overload set needs at least one declared signature"
  | .conflictingField name =>
    "invalid schema: field `" ++ name ++ "` has incompatible types in the intersected shapes"
  | .nonObjectDefault => "invalid schema: object-level default must be an object"
  | .defaultTypeMismatch name =>
    "invalid schema: default for field `" ++ name ++ "` does not conform to the field's type"
  | .nestedCascadeOnNonObject name =>
    "invalid schema: field `" ++ name ++
      "` is not an object type and cannot carry a nested cascade"
  | .nestedCascadeShapeMismatch name =>
    "invalid schema: nested cascade for field `" ++ name ++
      "` describes a different shape than the field's type"
  | .unknownField name => "unknown field `" ++ name ++ "`"
  | .readonlyViolation name =>
    "cannot assign to `" ++ name ++ "` because it is a read-only property"
  | .deleteOfRequiredField name =>
    "the operand of a 'delete' operator must be optional: `" ++ name ++ "`"

end ShapeTyping
