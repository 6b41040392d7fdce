import ShapeTyping.Entries
import ShapeTyping.Literal
/-! Values at run time: what a type describes. -/
namespace ShapeTyping

/-- Objects keep their keys in order, each once. A function is known by its name
and the number of its parameters only. -/
inductive Value where
  | undefined
  | null
  | bool (value : Bool)
  | number (value : Number)
  | string (text : String)
  | array (items : List Value)
  | object (entries : List (String × Value))
  | function (name? : Option String) (arity : Nat)

/-- The answers of `typeof`. -/
inductive TypeofResult where
  | undefined
  | object
  | boolean
  | number
  | string
  | function
deriving DecidableEq

namespace Value

def ofEntries (pairs : List (String × Value)) : Value := .object (Entries.ofList pairs)

def isUndefined : Value → Bool
  | .undefined => true
  | _ => false

def isFunction : Value → Bool
  | .function _ _ => true
  | _ => false

def entries? : Value → Option (List (String × Value))
  | .object entries => some entries
  | _ => none

def string? : Value → Option String
  | .string text => some text
  | _ => none

/-- The value under a key of an object. Other values have no keys. -/
def get? (v : Value) (key : String) : Option Value := v.entries?.bind (·.lookup key)

/-- Like `get?`, but an explicit `undefined` counts as absent. -/
def getDefined? (v : Value) (key : String) : Option Value :=
  (v.get? key).filter fun w => !w.isUndefined

def typeof : Value → TypeofResult
  | .undefined => .undefined
  | .null | .array _ | .object _ => .object
  | .bool _ => .boolean
  | .number _ => .number
  | .string _ => .string
  | .function _ _ => .function

def kindName : Value → String
  | .undefined => "undefined"
  | .null => "null"
  | .bool _ => "boolean"
  | .number _ => "number"
  | .string _ => "string"
  | .array _ => "array"
  | .object _ => "object"
  | .function _ _ => "function"

def isTruthy : Value → Bool
  | .undefined | .null => false
  | .bool b => b
  | .number x => !x.isZero && !x.isNaN
  | .string text => text != ""
  | .array _ | .object _ | .function _ _ => true

/-- Whether a value is the one value of a literal type. -/
def isLiteral : Value → Literal → Bool
  | .string a, .string b => a == b
  | .number a, .number b => a.same b
  | .bool a, .boolean b => a == b
  | _, _ => false

mutual
/-- Structural equality. The order of an object's keys does not count. -/
def same : Value → Value → Bool
  | .undefined, .undefined => true
  | .null, .null => true
  | .bool a, .bool b => a == b
  | .number a, .number b => a.same b
  | .string a, .string b => a == b
  | .array xs, .array ys => sameItems xs ys
  | .object xs, .object ys => xs.length == ys.length && sameEntries xs ys
  | .function m j, .function n k => m == n && j == k
  | _, _ => false
termination_by structural v => v
def sameItems : List Value → List Value → Bool
  | [], [] => true
  | x :: xs, y :: ys => x.same y && sameItems xs ys
  | _, _ => false
termination_by structural vs => vs
/-- Every entry of the first list has an equal one under its key in the second. -/
def sameEntries : List (String × Value) → List (String × Value) → Bool
  | [], _ => true
  | (key, x) :: xs, ys =>
    (match ys.lookup key with
      | some y => x.same y
      | none => false) && sameEntries xs ys
termination_by structural es => es
end

end Value
/-- Induction over values: the parts of a value are its items and its entries. -/
@[induction_eliminator]
theorem Value.induction {P : Value → Prop} (undefined : P .undefined) (null : P .null)
    (bool : ∀ b, P (.bool b)) (number : ∀ x, P (.number x)) (string : ∀ text, P (.string text))
    (array : ∀ items, (∀ v ∈ items, P v) → P (.array items))
    (object : ∀ entries, (∀ e ∈ entries, P e.2) → P (.object entries))
    (function : ∀ name? arity, P (.function name? arity)) (v : Value) : P v := by
  apply @Value.rec P (fun vs => ∀ v ∈ vs, P v) (fun es => ∀ e ∈ es, P e.2) (fun e => P e.2)
  case object => exact object
  all_goals simp_all

end ShapeTyping
