import ShapeTyping.SchemaError
import ShapeTyping.Ty.Basic
/-! Building shapes and asking about their fields. No two fields of a built shape
have one name. -/
namespace ShapeTyping.Shape

variable {τ : Type}

/-- The first name that repeats an earlier one. -/
def firstRepeat? (seen : List String) : List (Field τ) → Option String
  | [] => none
  | f :: fs => if f.name ∈ seen then some f.name else firstRepeat? (f.name :: seen) fs

def ofFields (fields : List (Field τ)) : Except SchemaError (Shape τ) :=
  match firstRepeat? [] fields with
  | some name => .error (.duplicateField name)
  | none => .ok ⟨fields⟩

def hasField (s : Shape τ) (name : String) : Bool := (s.field? name).isSome

def required (s : Shape τ) : List (Field τ) := s.fields.filter fun f => !f.optional

/-- The field of a name, which has to be there. -/
def getField (s : Shape τ) (name : String) : Except SchemaError (Field τ) :=
  match s.field? name with
  | some f => .ok f
  | none => .error (.unknownField name)

/-- A field may be written unless it is read-only. -/
def permitWrite (s : Shape τ) (name : String) : Except SchemaError Unit := do
  let f ← s.getField name
  if f.readonly then .error (.readonlyViolation f.name) else .ok ()

/-- A field may be removed if it is optional. -/
def permitDelete (s : Shape τ) (name : String) : Except SchemaError Unit := do
  let f ← s.getField name
  if f.optional then .ok () else .error (.deleteOfRequiredField f.name)

end ShapeTyping.Shape
