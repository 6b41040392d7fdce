import ShapeTyping.Document.Reader
import ShapeTyping.Options.Basic
import ShapeTyping.Text.Basic
/-! Reading options from a document. Each has a name and a way to read its value, and is as by
default where the document does not have it. A flag may be spelled by a word. -/
namespace ShapeTyping.Options

inductive Key where
  | strictNullChecks
  | parameterVariance
  | exactOptionalPropertyTypes
  | noUncheckedIndexedAccess
  | verifyVariantShapes
  | maxDepth
deriving DecidableEq

namespace Key

/-- All keys, in the order of a document that lists its values. -/
def all : List Key :=
  [.strictNullChecks, .parameterVariance, .exactOptionalPropertyTypes,
   .noUncheckedIndexedAccess, .verifyVariantShapes, .maxDepth]

def name : Key → String
  | .strictNullChecks => "strictNullChecks"
  | .parameterVariance => "parameterVariance"
  | .exactOptionalPropertyTypes => "exactOptionalPropertyTypes"
  | .noUncheckedIndexedAccess => "noUncheckedIndexedAccess"
  | .verifyVariantShapes => "verifyVariantShapes"
  | .maxDepth => "maxDepth"

/-- What an option may be set to. -/
abbrev Setting : Key → Type
  | .parameterVariance => Variance
  | .maxDepth => Nat
  | .strictNullChecks | .exactOptionalPropertyTypes | .noUncheckedIndexedAccess
  | .verifyVariantShapes => Bool

end Key

/-- Sets one option. -/
def put : (key : Key) → key.Setting → Options → Options
  | .strictNullChecks, b, o => { o with strictNullChecks := b }
  | .parameterVariance, v, o => { o with parameterVariance := v }
  | .exactOptionalPropertyTypes, b, o => { o with exactOptionalPropertyTypes := b }
  | .noUncheckedIndexedAccess, b, o => { o with noUncheckedIndexedAccess := b }
  | .verifyVariantShapes, b, o => { o with verifyVariantShapes := b }
  | .maxDepth, n, o => { o with maxDepth := n }

/-- Lower case of the letters `A` to `Z`. No other character has one of the
letters below as its lower case. -/
def lower (text : String) : String := String.ofList (text.toList.map Char.toLower)

def flagOfText? (text : String) : Option Bool :=
  let word := lower (Text.trim text)
  if ["true", "1", "yes", "on"].contains word then some true
  else if ["false", "0", "no", "off"].contains word then some false
  else none

def variances : List (String × Variance) :=
  [("equivalent", .equivalent), ("contravariant", .contravariant), ("bivariant", .bivariant)]

section
variable {ν ε : Type} (r : Reader ν ε)

def readFlag (raw : ν) : Except ε Bool := do
  match ← r.boolOrText raw with
  | .inl b => return b
  | .inr text =>
    match flagOfText? text with
    | some b => return b
    | none =>
      .error (r.custom ("invalid boolean value: '" ++ text ++
        "'. Expected true, false, 'true', or 'false'"))

namespace Key

/-- Reads the value of one option. -/
def read : (key : Key) → ν → Except ε key.Setting
  | .parameterVariance => r.choice variances
  | .maxDepth => r.word
  | .strictNullChecks => readFlag r
  | .exactOptionalPropertyTypes => readFlag r
  | .noUncheckedIndexedAccess => readFlag r
  | .verifyVariantShapes => readFlag r

def slot (key : Key) : Slot ν ε Options := ⟨key.name, fun raw => (key.read r raw).map (put key)⟩

end Key

/-- The fields that the options have in a document. -/
def slots : List (Slot ν ε Options) := Key.all.map (Key.slot r)

/-- Reads a document over the default options. -/
def ofText (text : String) : Except ε Options := r.record "CheckerOptions" (slots r) {} text

end

/-- What is said of a document that cannot be read, for a reason that its reader gives. -/
def refusal (detail : String) : String := "invalid checker options: " ++ detail

end ShapeTyping.Options
