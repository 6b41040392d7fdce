import ShapeTyping.Json.Basic
import ShapeTyping.Value.Basic
/-! The value of a JSON text. Neither `undefined` nor functions come from one. -/
namespace ShapeTyping.Value

mutual
/-- The value of a tree, if no part of it is missing or ill formed. -/
def ofJson? : Json → Option Value
  | .null => some .null
  | .bool b => some (.bool b)
  | .number n => some (.number n.toNumber)
  | .string text? => text?.map .string
  | .array items _ => (ofItems? items).map .array
  | .object members _ => (ofMembers? members).map ofEntries
  | .missing => none
def ofItems? : List Json → Option (List Value)
  | [] => some []
  | item :: items => do
    let v ← ofJson? item
    let vs ← ofItems? items
    some (v :: vs)
def ofMembers? : List (Option String × Json) → Option (List (String × Value))
  | [] => some []
  | (key?, json) :: members => do
    let key ← key?
    let v ← ofJson? json
    let pairs ← ofMembers? members
    some ((key, v) :: pairs)
end

def ofText? (text : String) : Option Value :=
  let document := Json.read text
  if document.ended && document.root.isSound Json.nestingCap then ofJson? document.root else none

end ShapeTyping.Value
