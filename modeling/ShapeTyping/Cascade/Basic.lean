import ShapeTyping.Assignability.Walk
import ShapeTyping.Conformance.Walk
import ShapeTyping.Shape.Basic
/-! Cascades of defaults: for an object, a default for the whole and defaults for
its fields, which may be cascades again. Every default is checked when it is
added. -/
namespace ShapeTyping

/-- Which shapes are one with a given shape, as a caller may use a shape in several places. Such a
shape is no other, but a shape may also be given once more. -/
structure Shape.Identity (s : Shape Ty) where
  isOne : Shape Ty → Bool
  eq_of_isOne : ∀ t, isOne t = true → t = s

/-- A shape that is used nowhere else. -/
def Shape.Identity.unshared (s : Shape Ty) : s.Identity := ⟨fun _ => false, nofun⟩

/-- The default of a field: a value, or the cascade of the object it holds. -/
inductive Default (κ : Type) where
  | value (v : Value)
  | nested (c : κ)

structure Cascade where
  shape : Shape Ty
  /-- What stands for the object if it is absent as a whole. -/
  objectDefault? : Option Value
  /-- At most one default for each field. -/
  defaults : List (String × Default Cascade)
  /-- The options that defaults are checked under. -/
  options : Options

namespace Cascade

def empty (s : Shape Ty) (o : Options) : Cascade := ⟨s, none, [], o⟩

def default? (c : Cascade) (name : String) : Option (Default Cascade) := c.defaults.lookup name

/-- Whether a value may be the default of a field. -/
def accepts (o : Options) (f : Field Ty) (v : Value) : Bool :=
  (v.isUndefined && f.optional && !o.exactOptionalPropertyTypes) || (v.conforms f.type o).isOk

def checkDefault (o : Options) (f : Field Ty) (v : Value) : Except SchemaError Unit :=
  if accepts o f v then .ok () else .error (.defaultTypeMismatch f.name)

/-- Checks the entries that the shape has a field for. -/
def checkEntries (o : Options) (s : Shape Ty) : List (String × Value) → Except SchemaError Unit
  | [] => .ok ()
  | (name, v) :: entries => do
    match s.field? name with
    | some f => checkDefault o f v
    | none => .ok ()
    checkEntries o s entries

/-- The field of a name that has no default yet. -/
def vacantField (c : Cascade) (name : String) : Except SchemaError (Field Ty) := do
  let f ← c.shape.getField name
  if (c.default? name).isSome then .error (.duplicateField f.name) else .ok f

/-- Whether two shapes describe the same objects. One shape does, even if it is not equal to itself
as a shape with a literal that is not a number is. -/
def describesSame (o : Options) (nested : Shape Ty) (identity : nested.Identity)
    (candidate : Shape Ty) : Bool :=
  identity.isOne candidate || candidate.same nested ||
    ((Ty.shape nested).isAssignable (.shape candidate) o &&
      (Ty.shape candidate).isAssignable (.shape nested) o)

/-- One step in building a cascade. -/
inductive Addition where
  | objectDefault (v : Value)
  | fieldDefault (name : String) (v : Value)
  | nested (name : String) (c : Cascade) (identity : c.shape.Identity := .unshared c.shape)

/-- The cascade that is nested by a step. -/
def Addition.inner? : Addition → Option Cascade
  | .nested _ c _ => some c
  | .objectDefault _ | .fieldDefault _ _ => none

def add (c : Cascade) : Addition → Except SchemaError Cascade
  | .objectDefault v =>
    match v.entries? with
    | none => .error .nonObjectDefault
    | some entries => do
      checkEntries c.options c.shape entries
      return { c with objectDefault? := some v }
  | .fieldDefault name v => do
    let f ← c.vacantField name
    checkDefault c.options f v
    return { c with defaults := c.defaults ++ [(f.name, .value v)] }
  | .nested name inner identity => do
    let f ← c.vacantField name
    if f.type.shapes.isEmpty then .error (.nestedCascadeOnNonObject f.name)
    else if f.type.shapes.any (describesSame c.options inner.shape identity) then
      return { c with defaults := c.defaults ++ [(f.name, .nested inner)] }
    else .error (.nestedCascadeShapeMismatch f.name)

/-- Adds defaults one after the other. -/
def build (s : Shape Ty) (o : Options) (additions : List Addition) : Except SchemaError Cascade :=
  additions.foldlM add (empty s o)

end Cascade
end ShapeTyping
