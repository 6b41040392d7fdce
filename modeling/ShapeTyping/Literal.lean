import ShapeTyping.Number.Layout
/-! The types without parts: the intrinsic ones, and those of a single value. -/
namespace ShapeTyping

inductive Intrinsic where
  | any
  | unknown
  | never
  | string
  | number
  | boolean
  | null
  | undefined
  | void
deriving DecidableEq

def Intrinsic.name : Intrinsic → String
  | .any => "any"
  | .unknown => "unknown"
  | .never => "never"
  | .string => "string"
  | .number => "number"
  | .boolean => "boolean"
  | .null => "null"
  | .undefined => "undefined"
  | .void => "void"

inductive Literal where
  | string (text : String)
  | number (value : Number)
  | boolean (value : Bool)

namespace Literal

/-- The type of all values of the literal's kind. -/
def widened : Literal → Intrinsic
  | .string _ => .string
  | .number _ => .number
  | .boolean _ => .boolean

def same : Literal → Literal → Bool
  | .string a, .string b => a == b
  | .number a, .number b => a.same b
  | .boolean a, .boolean b => a == b
  | _, _ => false

theorem same_comm (a b : Literal) : a.same b = b.same a := by
  cases a <;> cases b <;> simp [same, Number.same_comm, BEq.comm]

theorem same_trans {a b c : Literal} (hab : a.same b = true) (hbc : b.same c = true) :
    a.same c = true := by
  cases a <;> cases b <;> cases c <;> simp_all [same]
  exact Number.same_trans hab hbc

/-- Numbers in types are written out, without an exponent. A tie goes up. -/
def numberLayout : Layout := ⟨fun _ => true, "", "", .up⟩

def display : Literal → String
  | .string text => "\"" ++ text ++ "\""
  | .number x => x.render numberLayout
  | .boolean true => "true"
  | .boolean false => "false"

end Literal
end ShapeTyping
