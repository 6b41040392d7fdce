import ShapeTyping.Document.Reader
import ShapeTyping.Json.Basic
import ShapeTyping.Number.Layout
import ShapeTyping.Text.Basic
/-! Reading records from JSON documents: an object that names the fields, or an array that lists
their values in order. Members are read one by one and the first fault decides, so an earlier field
with a bad value is reported even where the text goes wrong further on. -/
namespace ShapeTyping.Json

/-- What stands in a document where something else was wanted. -/
inductive Found where
  | null
  | bool (value : Bool)
  | integer (value : Int)
  | real (value : Number)
  | string (text : String)
  | array
  | object

/-- Numbers in messages have digits on both sides of the point, and an exponent
from `10 ^ 16` on and below `10 ^ (-5)`. A tie goes to the even digit. -/
def messageNumber : Layout := ⟨fun point => -4 ≤ point && point ≤ 16, ".0", "+", .toEven⟩

def Found.describe : Found → String
  | .null => "null"
  | .bool true => "boolean `true`"
  | .bool false => "boolean `false`"
  | .integer n => "integer `" ++ toString n ++ "`"
  | .real x => "floating point `" ++ x.render messageNumber ++ "`"
  | .string text => "string " ++ Text.quote text
  | .array => "sequence"
  | .object => "map"

inductive Fault where
  /-- The text goes wrong: it is no JSON, or not of the form a value takes. -/
  | malformed
  | duplicate (name : String)
  | custom (message : String)
  | notBoolOrText
  | unknownChoice (text : String) (names : List String)
  | wrongType (found : Found) (expected : String)
  | outOfRange (value : Int)

/-- What a fault says of the document. A text that goes wrong says nothing. -/
def Fault.detail? : Fault → Option String
  | .malformed => none
  | .duplicate name => some ("duplicate field `" ++ name ++ "`")
  | .custom message => some message
  | .notBoolOrText => some "data did not match any variant of untagged enum BoolOrString"
  | .unknownChoice text names => some ("unknown variant `" ++ text ++ "`, expected one of " ++
      ", ".intercalate (names.map fun name => "`" ++ name ++ "`"))
  | .wrongType found expected =>
    some ("invalid type: " ++ found.describe ++ ", expected " ++ expected)
  | .outOfRange n => some ("invalid value: " ++ (Found.integer n).describe ++ ", expected u32")

/-- The integer a numeral denotes if it is held as one: within 64 bits, signed or
unsigned, and no negative zero. -/
def heldInt? (n : Numeral) : Option Int :=
  match n.toInt? with
  | some i =>
    if -0x8000000000000000 ≤ i && i < 0x10000000000000000 && !(n.negative && i == 0) then some i
    else none
  | none => none

/-- What a value is, for a message that it is the wrong one. The inside of an
array or object is not looked at. -/
def found? : Json → Option Found
  | .null => some .null
  | .bool b => some (.bool b)
  | .number n =>
    match heldInt? n with
    | some i => some (.integer i)
    | none => if n.toNumber.isInfinite then none else some (.real n.toNumber)
  | .string text? => text?.map .string
  | .array _ _ => some .array
  | .object _ _ => some .object
  | .missing => none

def wrongType (expected : String) (json : Json) : Fault :=
  match found? json with
  | some found => .wrongType found expected
  | none => .malformed

/-! ## Values -/

def readBoolOrText : Json → Except Fault (Bool ⊕ String)
  | .bool b => .ok (.inl b)
  | .string (some text) => .ok (.inr text)
  | json => .error (if json.isSound (nestingCap - 1) then .notBoolOrText else .malformed)

section
variable {α : Type} (choices : List (String × α))

def choose (text : String) : Except Fault α :=
  match choices.lookup text with
  | some a => .ok a
  | none => .error (.unknownChoice text (choices.map (·.1)))

/-- A choice is named by a text, or by the one key of an object that holds
`null`. -/
def readChoice : Json → Except Fault α
  | .string (some text) => choose choices text
  | .object ((some text, value) :: members) closed => do
    let a ← choose choices text
    match value with
    | .null => if members.isEmpty && closed then .ok a else .error .malformed
    | _ => .error (wrongType "unit" value)
  | _ => .error .malformed

end

def readWord : Json → Except Fault Nat
  | .number n =>
    match heldInt? n with
    | some i => if 0 ≤ i && i < 0x100000000 then .ok i.toNat else .error (.outOfRange i)
    | none => .error (wrongType "u32" (.number n))
  | json => .error (wrongType "u32" json)

/-! ## Records -/

/-- A visit under way to the members of an object. -/
structure Visit (ρ : Type) where
  /-- The record so far. -/
  value : ρ
  /-- The fields that were met. -/
  taken : List String := []

section
variable {ρ : Type}

/-- Visits one member. One that is for no field is passed over with its value, and
no field is met twice. -/
def Visit.member (slots : List (Slot Json Fault ρ)) (v : Visit ρ) (member : String × Json) :
    Except Fault (Visit ρ) :=
  match slots.find? (·.name == member.1) with
  | none => if member.2.isComplete then .ok v else .error .malformed
  | some slot =>
    if slot.name ∈ v.taken then .error (.duplicate slot.name)
    else do
      let change ← slot.read member.2
      return ⟨change v.value, slot.name :: v.taken⟩

/-- Reads the members of an object in order. -/
def readMembers (slots : List (Slot Json Fault ρ)) (v : Visit ρ) :
    List (Option String × Json) → Except Fault (Visit ρ)
  | [] => .ok v
  | (none, _) :: _ => .error .malformed
  | (some name, json) :: members => do
    let v ← v.member slots (name, json)
    readMembers slots v members

/-- Reads the items of an array, one for each field. -/
def readItems (default : ρ) : List (Slot Json Fault ρ) → List Json → Except Fault ρ
  | _, [] => .ok default
  | [], _ :: _ => .error .malformed
  | slot :: slots, json :: items => do
    let change ← slot.read json
    readItems (change default) slots items

def toRecord (title : String) (slots : List (Slot Json Fault ρ)) (default : ρ) :
    Json → Except Fault ρ
  | .object members closed => do
    let v ← readMembers slots ⟨default, []⟩ members
    if closed then .ok v.value else .error .malformed
  | .array items closed => do
    let record ← readItems default slots items
    if closed then .ok record else .error .malformed
  | json => .error (wrongType ("struct " ++ title) json)

def readRecord (title : String) (slots : List (Slot Json Fault ρ)) (default : ρ) (text : String) :
    Except Fault ρ := do
  let document := Json.read text
  let record ← document.root.toRecord title slots default
  if document.ended then .ok record else .error .malformed

end

def reader : Reader Json Fault where
  custom := .custom
  boolOrText := readBoolOrText
  choice := readChoice
  word := readWord
  record := readRecord

end ShapeTyping.Json
