import ShapeTyping.Conformance.Walk
/-! The walk that checks a value, with the text of the path to where it is and the number of levels
that it is nested in. The text grows on the way in and is cut back on the way out. A walk that meets
a departure stops there and leaves the text as it is, for whoever goes on to cut it back. -/
namespace ShapeTyping

structure Walker where
  options : Options
  /-- The text of the path to the part of the value that is looked at. -/
  path : String := ""
  /-- The levels that the walk is nested in. -/
  depth : Nat := 0

namespace Walker

/-- A walk that may stop at a departure. It keeps the walker even then. -/
abbrev Walk := ExceptT Departure (StateM Walker)

/-- Tells of a problem with the part of the value that is looked at. -/
def report (problem : Problem) : Walk Unit := do
  let w ← get
  throw ⟨w.path, problem⟩

/-- Reports a mismatch unless the condition holds. -/
def require (accepted : Bool) (v : Value) (t : Ty) : Walk Unit :=
  if accepted then pure () else report (.typeMismatch t v.kindName)

def push (step : Step) : Walk Unit := modify fun w => { w with path := step.append w.path }

/-- Cuts the text back to its first characters. -/
def cut (text : String) (length : Nat) : String := String.ofList (text.toList.take length)

def truncate (length : Nat) : StateM Walker Unit :=
  modify fun w => { w with path := cut w.path length }

/-- A walk one level further in. -/
def nested (walk : Walk Unit) : Walk Unit := ExceptT.mk do
  modify fun w => { w with depth := w.depth + 1 }
  let result ← walk.run
  modify fun w => { w with depth := w.depth - 1 }
  return result

/-- Checks the items of an array from an index on. -/
def items (check : Value → Walk Unit) (saved i : Nat) : List Value → Walk Unit
  | [] => pure ()
  | v :: vs => do
    push (.index i)
    check v
    truncate saved
    items check saved (i + 1) vs

mutual
def check (v : Value) (t : Ty) : Walk Unit := do
  let w ← get
  if w.options.conformanceLimit ≤ w.depth then report .depthExceeded
  else if !w.options.strictNullChecks && v.isNullish then pure ()
  else match t with
    | .intrinsic kind => require (v.hasKind kind) v (.intrinsic kind)
    | .literal value => require (v.isLiteral value) v (.literal value)
    | .union members => do
      let accepted ← checkAny v w.path.length members
      require accepted v (.union members)
    | .shape ⟨fields⟩ =>
      match v with
      | .object entries => nested (checkFields entries w.path.length fields)
      | _ => report (.typeMismatch (.shape ⟨fields⟩) v.kindName)
    | .array element =>
      match v with
      | .array vs => nested (items (fun v => check v element) w.path.length 0 vs)
      | _ => report (.typeMismatch (.array element) v.kindName)
    | .function s => require (v.isCallableWith s.params.length) v (.function s)
    | .application name arguments => require v.isOpaque v (.application name arguments)
termination_by structural t
/-- Whether a member takes the value. Whatever a member met is forgotten. -/
def checkAny (v : Value) (saved : Nat) (ts : List Ty) : StateM Walker Bool :=
  match ts with
  | [] => pure false
  | t :: ts => do
    let result ← (check v t).run
    truncate saved
    if result.isOk then pure true else checkAny v saved ts
termination_by structural ts
def checkFields (entries : List (String × Value)) (saved : Nat) (fields : List (Field Ty)) :
    Walk Unit :=
  match fields with
  | [] => pure ()
  | ⟨name, optional, _, t⟩ :: fields => do
    push (.field name)
    (do
      let w ← get
      match entries.lookup name with
      | none => if optional then pure () else report .missingField
      | some v =>
        if v.isUndefined && optional && !w.options.exactOptionalPropertyTypes then pure ()
        else check v t)
    truncate saved
    checkFields entries saved fields
termination_by structural fields
end

def checkShape (v : Value) (s : Shape Ty) : Walk Unit := do
  match v with
  | .object entries => checkFields entries (← get).path.length s.fields
  | _ => report (.typeMismatch (.shape s) v.kindName)

end Walker

/-- The first departure of a value from a type. -/
def Value.examine (v : Value) (t : Ty) (o : Options) : Except Departure Unit :=
  ((Walker.check v t).run.run { options := o }).1

/-- The first departure of a value from a shape. -/
def Value.examineShape (v : Value) (s : Shape Ty) (o : Options) : Except Departure Unit :=
  ((Walker.checkShape v s).run.run { options := o }).1

end ShapeTyping
