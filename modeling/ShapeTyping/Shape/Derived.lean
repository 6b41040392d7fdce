import ShapeTyping.Assignability.Walk
import ShapeTyping.Shape.Basic
/-! Shapes made from shapes: the modifiers of fields are added and removed, some fields are picked
or left out, and two shapes are put together into the shape of the objects that belong to both. -/
namespace ShapeTyping

/-! ## Modifiers

Types and order stay as they are. -/

inductive Modifier where
  | optional
  | readonly
deriving DecidableEq

inductive Change where
  | add
  | remove
deriving DecidableEq

/-- The modifier after a change, or as it was without one. -/
def Change.apply (current : Bool) : Option Change → Bool
  | some .add => true
  | some .remove => false
  | none => current

/-- Changes to the modifiers of the named fields, or of all. -/
structure Remapping where
  keys? : Option (List String)
  optional? : Option Change
  readonly? : Option Change

/-- The change of one modifier. -/
def Remapping.single (keys? : Option (List String)) (change : Change) : Modifier → Remapping
  | .optional => ⟨keys?, some change, none⟩
  | .readonly => ⟨keys?, none, some change⟩

variable {τ : Type}

def Field.modify (f : Field τ) (modifier : Modifier) (change : Change) : Field τ :=
  match modifier with
  | .optional => { f with optional := Change.apply f.optional (some change) }
  | .readonly => { f with readonly := Change.apply f.readonly (some change) }

def Remapping.applies (r : Remapping) (name : String) : Bool :=
  match r.keys? with
  | some keys => keys.contains name
  | none => true

def Field.remap (f : Field τ) (r : Remapping) : Field τ :=
  if r.applies f.name then
    { f with
      optional := Change.apply f.optional r.optional?
      readonly := Change.apply f.readonly r.readonly? }
  else f

namespace Shape

/-- Changes a modifier of every field. -/
def modifyAll (s : Shape τ) (modifier : Modifier) (change : Change) : Shape τ :=
  ⟨s.fields.map fun f => f.modify modifier change⟩

/-- Refuses a key that names no field. -/
def remap (s : Shape τ) (r : Remapping) : Except SchemaError (Shape τ) := do
  let _ ← (r.keys?.getD []).mapM s.getField
  return ⟨s.fields.map fun f => f.remap r⟩

/-- Changes a modifier of the named fields. -/
def modify (s : Shape τ) (names : List String) (modifier : Modifier) (change : Change) :
    Except SchemaError (Shape τ) :=
  s.remap (.single (some names) change modifier)

/-! ## Selection -/

/-- Drops the fields whose name came before. -/
def firstOfEachName (fields : List (Field τ)) : List (Field τ) :=
  fields.foldl
    (fun kept f => if kept.any fun k => k.name == f.name then kept else kept ++ [f]) []

/-- The named fields, in the order in which they are first named. -/
def pick (s : Shape τ) (names : List String) : Except SchemaError (Shape τ) := do
  let fields ← names.mapM s.getField
  return ⟨firstOfEachName fields⟩

/-- The fields that are not named. -/
def without (s : Shape τ) (names : List String) : Except SchemaError (Shape τ) := do
  let _ ← names.mapM s.getField
  return ⟨s.fields.filter fun f => !names.contains f.name⟩

end Shape

/-! ## Intersection -/

/-- A field of both shapes takes the narrower type. It is optional if it is in
both, and read-only if it is in one. -/
def Field.meet (o : Options) (l r : Field Ty) : Except SchemaError (Field Ty) :=
  let joined (t : Ty) : Field Ty :=
    ⟨l.name, l.optional && r.optional, l.readonly || r.readonly, t⟩
  if r.type.isAssignable l.type o then .ok (joined r.type)
  else if l.type.isAssignable r.type o then .ok (joined l.type)
  else .error (.conflictingField r.name)

/-- Brings a field in: in the place of the field of its name, or at the end. -/
def Field.meetIn (o : Options) (r : Field Ty) :
    List (Field Ty) → Except SchemaError (List (Field Ty))
  | [] => .ok [r]
  | l :: ls =>
    if l.name == r.name then do
      let f ← l.meet o r
      return f :: ls
    else do
      let fs ← r.meetIn o ls
      return l :: fs

def Shape.intersect (left right : Shape Ty) (o : Options) : Except SchemaError (Shape Ty) := do
  let fields ← right.fields.foldlM (fun fields r => r.meetIn o fields) left.fields
  return ⟨fields⟩

end ShapeTyping
