import ShapeTyping.Conformance.Violation
import ShapeTyping.Options.Basic
import ShapeTyping.Value.Basic
/-! Conformance: does a value belong to a type? The walk goes down the value and
the type together and reports the first departure it meets. Each object and each
array takes one level. -/
namespace ShapeTyping

/-- How many more levels a walk may enter. -/
inductive Budget where
  | levels (n : Nat)
  | unlimited
deriving DecidableEq

namespace Budget

def isSpent : Budget → Bool
  | .levels n => n == 0
  | .unlimited => false

/-- What is left one level further down. -/
def next : Budget → Budget
  | .levels n => .levels (n - 1)
  | .unlimited => .unlimited

end Budget

namespace Value

def isNullish : Value → Bool
  | .undefined | .null => true
  | _ => false

/-- Whether a value belongs to an intrinsic type. -/
def hasKind : Value → Intrinsic → Bool
  | _, .any | _, .unknown => true
  | .string _, .string => true
  | .number _, .number => true
  | .bool _, .boolean => true
  | .null, .null => true
  | .undefined, .undefined | .undefined, .void => true
  | _, _ => false

/-- A function may be called with as many arguments as a signature declares if it
has no more parameters. -/
def isCallableWith (v : Value) (count : Nat) : Bool :=
  match v with
  | .function _ arity => arity ≤ count
  | _ => false

/-- Named types are opaque: any object or function may belong to one. -/
def isOpaque : Value → Bool
  | .object _ | .function _ _ => true
  | _ => false

end Value

namespace Conformance

def mismatch (v : Value) (t : Ty) : Except Violation Unit :=
  .error ⟨[], .typeMismatch t v.kindName⟩

/-- Reports a mismatch unless the condition holds. -/
def require (accepted : Bool) (v : Value) (t : Ty) : Except Violation Unit :=
  if accepted then .ok () else mismatch v t

def under (step : Step) (result : Except Violation Unit) : Except Violation Unit :=
  result.mapError (Violation.under step)

/-- Checks the items of an array from an index on. -/
def items (check : Value → Except Violation Unit) (i : Nat) : List Value → Except Violation Unit
  | [] => .ok ()
  | v :: vs => do
    under (.index i) (check v)
    items check (i + 1) vs

mutual
/-- The check of a value against a type. With `strictNullChecks` off, `null` and
`undefined` belong to every type. A union takes a value that one of its members
takes. -/
def check (o : Options) (budget : Budget) (v : Value) (t : Ty) : Except Violation Unit :=
  if budget.isSpent then .error ⟨[], .depthExceeded⟩
  else if !o.strictNullChecks && v.isNullish then .ok ()
  else match t with
    | .intrinsic kind => require (v.hasKind kind) v (.intrinsic kind)
    | .literal value => require (v.isLiteral value) v (.literal value)
    | .union members => require (checkAny o budget v members) v (.union members)
    | .shape ⟨fields⟩ =>
      match v with
      | .object entries => checkFields o budget.next entries fields
      | _ => mismatch v (.shape ⟨fields⟩)
    | .array element =>
      match v with
      | .array vs => items (fun w => check o budget.next w element) 0 vs
      | _ => mismatch v (.array element)
    | .function s => require (v.isCallableWith s.params.length) v (.function s)
    | .application name arguments => require v.isOpaque v (.application name arguments)
termination_by structural t
def checkAny (o : Options) (budget : Budget) (v : Value) (ts : List Ty) : Bool :=
  match ts with
  | [] => false
  | t :: ts => (check o budget v t).isOk || checkAny o budget v ts
termination_by structural ts
/-- The check of an object's entries against the fields of a shape. -/
def checkFields (o : Options) (budget : Budget) (entries : List (String × Value))
    (fields : List (Field Ty)) : Except Violation Unit :=
  match fields with
  | [] => .ok ()
  | ⟨name, optional, _, t⟩ :: fields => do
    under (.field name) (match entries.lookup name with
      | none => if optional then .ok () else .error ⟨[], .missingField⟩
      | some v =>
        if v.isUndefined && optional && !o.exactOptionalPropertyTypes then .ok ()
        else check o budget v t)
    checkFields o budget entries fields
termination_by structural fields
end

/-- The check of a value against a shape. -/
def checkShape (o : Options) (budget : Budget) (v : Value) (s : Shape Ty) :
    Except Violation Unit :=
  match v with
  | .object entries => checkFields o budget entries s.fields
  | _ => mismatch v (.shape s)

end Conformance

/-- Whether a value belongs to a type, to the depth the options allow. -/
def Value.conforms (v : Value) (t : Ty) (o : Options) : Except Violation Unit :=
  Conformance.check o (.levels o.conformanceLimit) v t

/-- Whether a value belongs to a shape. The object itself takes no level. -/
def Value.conformsToShape (v : Value) (s : Shape Ty) (o : Options) : Except Violation Unit :=
  Conformance.checkShape o (.levels o.conformanceLimit) v s

end ShapeTyping
