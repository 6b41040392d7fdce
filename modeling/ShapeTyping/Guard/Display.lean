import ShapeTyping.Guard.Basic
import ShapeTyping.Text.Basic
/-! How guards are written in diagnostics. -/
namespace ShapeTyping

def TypeofResult.display : TypeofResult → String
  | .undefined => "Undefined"
  | .object => "Object"
  | .boolean => "Boolean"
  | .number => "Number"
  | .string => "String"
  | .function => "Function"

namespace Guard

/-- Numbers have digits on both sides of the point, and an exponent from
`10 ^ 16` on and below `10 ^ (-4)`. A tie goes up. -/
def numberLayout : Layout := ⟨fun point => -3 ≤ point && point ≤ 16, ".0", "", .up⟩

def displayLiteral : Literal → String
  | .string text => "String(" ++ Text.quote text ++ ")"
  | .number x => "Number(" ++ x.render numberLayout ++ ")"
  | .boolean true => "Boolean(true)"
  | .boolean false => "Boolean(false)"

variable {σ : Type}

mutual
def display : Guard σ → String
  | .typeof kind => "Typeof(" ++ kind.display ++ ")"
  | .inProperty name => "InProperty(" ++ Text.quote name ++ ")"
  | .callable name => "Callable(" ++ Text.quote name ++ ")"
  | .discriminant property value =>
    "Discriminant \x7b property: " ++ Text.quote property ++ ", value: " ++
      displayLiteral value ++ " \x7d"
  | .conforms s => "Conforms(" ++ s.display ++ ")"
  | .truthy => "Truthy"
  | .all guards => "All([" ++ String.intercalate ", " (displayList guards) ++ "])"
  | .any guards => "Any([" ++ String.intercalate ", " (displayList guards) ++ "])"
  | .not g => "Not(" ++ g.display ++ ")"
  | .custom _ => "Custom(..)"
  | .fallible _ => "Fallible(..)"
def displayList : List (Guard σ) → List String
  | [] => []
  | g :: gs => g.display :: displayList gs
end

end Guard
end ShapeTyping
