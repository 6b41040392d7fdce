import ShapeTyping.Ty.Basic
/-! How types are written in messages. -/
namespace ShapeTyping.Ty

/-- Types that are bracketed as the element of an array. -/
def isOpen : Ty → Bool
  | .union _ | .function _ => true
  | _ => false

mutual
def display : Ty → String
  | .intrinsic kind => kind.name
  | .literal value => value.display
  | .shape ⟨fields⟩ =>
    if fields.isEmpty then "\x7b\x7d"
    else "\x7b " ++ String.intercalate "; " (displayFields fields) ++ " \x7d"
  | .union members => String.intercalate " | " (displayList members)
  | .function ⟨params, result⟩ =>
    "(" ++ String.intercalate ", " (displayParams params) ++ ") => " ++ result.display
  | .array element =>
    if element.isOpen then "(" ++ element.display ++ ")[]" else element.display ++ "[]"
  | .application name arguments =>
    if arguments.isEmpty then name
    else name ++ "<" ++ String.intercalate ", " (displayList arguments) ++ ">"
def displayList : List Ty → List String
  | [] => []
  | t :: ts => t.display :: displayList ts
def displayFields : List (Field Ty) → List String
  | [] => []
  | ⟨name, optional, readonly, t⟩ :: fields =>
    ((if readonly then "readonly " else "") ++ name ++ (if optional then "?" else "") ++
      ": " ++ t.display) :: displayFields fields
def displayParams : List (Param Ty) → List String
  | [] => []
  | ⟨position, optional, t⟩ :: params =>
    ("p" ++ toString position ++ (if optional then "?" else "") ++ ": " ++ t.display) ::
      displayParams params
end

end ShapeTyping.Ty

namespace ShapeTyping

def Shape.display (s : Shape Ty) : String := (Ty.shape s).display

def Signature.display (s : Signature Ty) : String := (Ty.function s).display

end ShapeTyping
