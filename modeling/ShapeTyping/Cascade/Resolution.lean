import ShapeTyping.Cascade.Basic
/-! Filling in what an object leaves out. A field that holds `undefined` counts as
absent, and fields that the shape does not know are kept. On the way in either the text of the path
grows, and the levels are counted, or errors are seen from further and further out on the way
back. -/
namespace ShapeTyping

/-- Why an argument is refused. Places are told by the text of the path to them. -/
inductive Refusal where
  | missingRequiredField (path : String)
  | notAnObject (place : String)
  /-- Cascades nest deeper than the limit. -/
  | depthExceeded (limit : Nat)
deriving DecidableEq

namespace Refusal

/-- What stands for the path to an object. -/
def place (path : String) : String := if path = "" then "<root>" else path

def message : Refusal → String
  | .missingRequiredField path => "missing required field `" ++ path ++ "`"
  | .notAnObject place => "expected an object at `" ++ place ++ "`"
  | .depthExceeded limit =>
    "default cascade nested deeper than " ++ toString limit ++ " levels"

end Refusal

/-- The paths are the names of fields from the outermost object inwards. -/
inductive ResolveError where
  | missingRequiredField (path : List String)
  | notAnObject (path : List String)
  /-- Cascades nest deeper than the limit. -/
  | depthExceeded (limit : Nat)
deriving DecidableEq

def ResolveError.under (name : String) : ResolveError → ResolveError
  | .missingRequiredField path => .missingRequiredField (name :: path)
  | .notAnObject path => .notAnObject (name :: path)
  | .depthExceeded limit => .depthExceeded limit

namespace Cascade

variable {ε : Type}

/-- The object that resolution starts from: what is supplied, else the default for
the whole, else an empty one. -/
def start (nonobject : ε) (objectDefault? : Option Value) (supplied? : Option Value) :
    Except ε (List (String × Value)) :=
  match supplied?.filter fun v => !v.isUndefined with
  | some (.object entries) => .ok entries
  | some _ => .error nonobject
  | none =>
    match objectDefault? with
    | some (.object entries) => .ok entries
    | _ => .ok []

/-- Goes through the fields of a shape in order and puts in what `fill` finds for
each, given what is there. -/
def fillFields (fill : Field Ty → Option Value → Except ε (Option Value)) :
    List (Field Ty) → List (String × Value) → Except ε (List (String × Value))
  | [], entries => .ok entries
  | f :: fs, entries => do
    let present? := (entries.lookup f.name).filter fun v => !v.isUndefined
    let filled? ← fill f present?
    match filled? with
    | some v => fillFields fill fs (Entries.insert f.name v entries)
    | none => fillFields fill fs entries

/-! ## With the text of the path -/

mutual
/-- Resolves the object that is at a path and so many levels in. -/
def applyAt (o : Options) (path : String) (depth : Nat) (supplied? : Option Value) (c : Cascade) :
    Except Refusal Value :=
  match c with
  | ⟨s, objectDefault?, defaults, _⟩ =>
    if o.cascadeLimit < depth then .error (.depthExceeded o.cascadeLimit)
    else do
      let entries ← start (.notAnObject (Refusal.place path)) objectDefault? supplied?
      let entries ← fillFields (fun f present? =>
        applyField o (Step.append path (.field f.name)) depth f present? defaults) s.fields entries
      return .object entries
termination_by structural c
/-- What is put into a field, whose path is given. -/
def applyField (o : Options) (path : String) (depth : Nat) (f : Field Ty) (present? : Option Value)
    (defaults : List (String × Default Cascade)) : Except Refusal (Option Value) :=
  match defaults with
  | [] => if present?.isSome || f.optional then .ok none else .error (.missingRequiredField path)
  | (name, d) :: defaults =>
    if name == f.name then
      match d with
      | .value v => .ok (if present?.isSome then none else some v)
      | .nested c =>
        if present?.isSome || c.objectDefault?.isSome || !f.optional then
          (applyAt o path (depth + 1) present? c).map some
        else .ok none
    else applyField o path depth f present? defaults
termination_by structural defaults
end

/-- Fills in an argument, absent or supplied. -/
def apply (c : Cascade) (supplied? : Option Value) (o : Options) : Except Refusal Value :=
  applyAt o "" 0 supplied? c

/-! ## With names of fields -/

def base (objectDefault? : Option Value) (supplied? : Option Value) :
    Except ResolveError (List (String × Value)) :=
  start (.notAnObject []) objectDefault? supplied?

mutual
/-- Resolves an object with so many nested levels left of the limit. -/
def resolveFrom (limit levels : Nat) (supplied? : Option Value) (c : Cascade) :
    Except ResolveError Value :=
  match c with
  | ⟨s, objectDefault?, defaults, _⟩ => do
    let entries ← base objectDefault? supplied?
    let entries ← fillFields (fun f present? => resolveField limit levels f present? defaults)
      s.fields entries
    return .object entries
termination_by structural c
/-- What is put into a field: nothing if its value stays, or if it may stay
absent. -/
def resolveField (limit levels : Nat) (f : Field Ty) (present? : Option Value)
    (defaults : List (String × Default Cascade)) : Except ResolveError (Option Value) :=
  match defaults with
  | [] =>
    if present?.isSome || f.optional then .ok none else .error (.missingRequiredField [f.name])
  | (name, d) :: defaults =>
    if name == f.name then
      match d with
      | .value v => .ok (if present?.isSome then none else some v)
      | .nested c =>
        if present?.isSome || c.objectDefault?.isSome || !f.optional then
          match levels with
          | 0 => .error (.depthExceeded limit)
          | levels + 1 =>
            ((resolveFrom limit levels present? c).mapError (.under f.name)).map some
        else .ok none
    else resolveField limit levels f present? defaults
termination_by structural defaults
end

/-- Fills in an argument, and says by names where it fails. -/
def resolve (c : Cascade) (supplied? : Option Value) (o : Options) : Except ResolveError Value :=
  resolveFrom o.cascadeLimit o.cascadeLimit supplied? c

end Cascade
end ShapeTyping
