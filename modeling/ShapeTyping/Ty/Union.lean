import ShapeTyping.Options.Basic
import ShapeTyping.SchemaError
import ShapeTyping.Ty.Basic
/-! Building unions. A union has at least two members, none of them a union and
none equal to an earlier one. -/
namespace ShapeTyping.Ty

def contains (members : List Ty) (t : Ty) : Bool := members.any fun member => member.same t

/-- The types that a type brings into a union. -/
def alternatives : Ty → List Ty
  | .union members => members
  | t => [t]

/-- Appends the types that are not there yet. -/
def addNew (members : List Ty) (ts : List Ty) : List Ty :=
  ts.foldl (fun found t => if contains found t then found else found ++ [t]) members

/-- The members of the union of some types. -/
def merge (ts : List Ty) : List Ty := addNew [] (ts.flatMap alternatives)

def unionOf (ts : List Ty) : Except SchemaError Ty :=
  let members := merge ts
  if members.length < 2 then .error (.degenerateUnion members.length) else .ok (.union members)

/-- Like `unionOf`, but a single member stands for itself and none for `never`. -/
def join (ts : List Ty) : Ty :=
  match merge ts with
  | [] => .intrinsic .never
  | [t] => t
  | members => .union members

/-- The type of an array access, which may run past the end. -/
def elementAccess? (o : Options) : Ty → Option Ty
  | .array element =>
    some (if o.noUncheckedIndexedAccess then join [element, .intrinsic .undefined]
      else element)
  | _ => none

/-- The result of an implementation that serves callers with and without a
value. -/
def orVoid (t : Ty) : Except SchemaError Ty := unionOf [.intrinsic .void, t]

/-- Whether `void` is among the members of a union. -/
def hasVoidMember (t : Ty) : Bool :=
  match t.members? with
  | some members => members.any fun member => member.intrinsic? == some .void
  | none => false

end ShapeTyping.Ty
