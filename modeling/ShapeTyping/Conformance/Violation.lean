import ShapeTyping.Ty.Display
/-! Where and how a value departs from its type. -/
namespace ShapeTyping

/-- One step into a value. -/
inductive Step where
  | field (name : String)
  | index (i : Nat)
deriving DecidableEq

namespace Step

/-- Appends a step to the text of a path. A dot divides a name from what comes
before it. -/
def append (text : String) : Step → String
  | .field name => if text = "" then name else text ++ "." ++ name
  | .index i => text ++ "[" ++ toString i ++ "]"

def render (path : List Step) : String := path.foldl append ""

end Step

inductive Problem where
  | missingField
  | typeMismatch (expected : Ty) (found : String)
  | depthExceeded

/-- A problem with a part of a value, and the text of the path to it. -/
structure Departure where
  path : String
  problem : Problem

def Departure.message (d : Departure) : String :=
  let place := if d.path = "" then "<value>" else d.path
  match d.problem with
  | .missingField => "required field `" ++ place ++ "` is missing"
  | .typeMismatch expected found =>
    "`" ++ place ++ "` is " ++ found ++ " but '" ++ expected.display ++ "' is expected"
  | .depthExceeded => "`" ++ place ++ "` is nested too deeply to check"

/-- A problem with the part of a value that a path leads to. -/
structure Violation where
  path : List Step
  problem : Problem

namespace Violation

/-- The violation as seen from one step further out. -/
def under (step : Step) (v : Violation) : Violation := { v with path := step :: v.path }

/-- The violation as it is told where the text of a path is known already. -/
def toldFrom (text : String) (v : Violation) : Departure :=
  ⟨v.path.foldl Step.append text, v.problem⟩

def told (v : Violation) : Departure := v.toldFrom ""

def message (v : Violation) : String := v.told.message

end Violation
end ShapeTyping
