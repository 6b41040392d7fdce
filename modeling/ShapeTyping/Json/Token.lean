import ShapeTyping.Number.Numeral
/-! The tokens of a JSON text. -/
namespace ShapeTyping.Json

inductive Token where
  | leftBrace
  | rightBrace
  | leftBracket
  | rightBracket
  | colon
  | comma
  | null
  | bool (value : Bool)
  | number (numeral : Numeral)
  /-- A string, without a text when its escapes leave a surrogate unpaired. -/
  | string (text? : Option String)
  /-- Characters that start no token. Nothing is read after them. -/
  | unknown

/-- One unit of a string's body: a character, or the UTF-16 code of an escape. -/
inductive TextUnit where
  | char (c : Char)
  | code (n : Nat)

def hexValue (c : Char) : Option Nat :=
  if c.isDigit then some (c.toNat - '0'.toNat)
  else if 'a' ≤ c && c ≤ 'f' then some (c.toNat - 'a'.toNat + 10)
  else if 'A' ≤ c && c ≤ 'F' then some (c.toNat - 'A'.toNat + 10)
  else none

def hexCode (a b c d : Char) : Option Nat := do
  let a ← hexValue a
  let b ← hexValue b
  let c ← hexValue c
  let d ← hexValue d
  some (((a * 16 + b) * 16 + c) * 16 + d)

/-- The character a one-letter escape stands for. -/
def escaped (c : Char) : Option Char :=
  match c with
  | '"' | '\\' | '/' => some c
  | 'b' => some '\x08'
  | 'f' => some '\x0c'
  | 'n' => some '\n'
  | 'r' => some '\r'
  | 't' => some '\t'
  | _ => none

/-- The body of a string up to its closing quote, and the characters taken with
the quote. -/
def scanBody : List Char → Option (List TextUnit × Nat)
  | '"' :: _ => some ([], 1)
  | '\\' :: 'u' :: a :: b :: c :: d :: rest => do
    let n ← hexCode a b c d
    let (units, taken) ← scanBody rest
    some (.code n :: units, taken + 6)
  | '\\' :: c :: rest => do
    let c ← escaped c
    let (units, taken) ← scanBody rest
    some (.char c :: units, taken + 2)
  | c :: rest =>
    if c.toNat < 0x20 || c == '\\' then none
    else do
      let (units, taken) ← scanBody rest
      some (.char c :: units, taken + 1)
  | [] => none

def isHighSurrogate (n : Nat) : Bool := 0xd800 ≤ n && n < 0xdc00

def isLowSurrogate (n : Nat) : Bool := 0xdc00 ≤ n && n < 0xe000

/-- The characters of a string's body, if every surrogate in it is paired. -/
def joinUnits : List TextUnit → Option (List Char)
  | .char c :: rest => (joinUnits rest).map (c :: ·)
  | .code hi :: .code lo :: rest =>
    if isHighSurrogate hi && isLowSurrogate lo then
      (joinUnits rest).map (Char.ofNat (0x10000 + (hi - 0xd800) * 0x400 + (lo - 0xdc00)) :: ·)
    else if isHighSurrogate hi || isLowSurrogate hi then none
    else (joinUnits (.code lo :: rest)).map (Char.ofNat hi :: ·)
  | .code n :: rest =>
    if isHighSurrogate n || isLowSurrogate n then none
    else (joinUnits rest).map (Char.ofNat n :: ·)
  | [] => some []

def isSpace (c : Char) : Bool := c == ' ' || c == '\t' || c == '\n' || c == '\r'

/-- Whether the text goes on with the word, with the characters after its first
one. -/
def wordAt (word : String) (rest : List Char) (token : Token) : Option (Token × Nat) :=
  let tail := word.toList.drop 1
  if tail.isPrefixOf rest then some (token, tail.length) else none

/-- The token that starts with `c` and the characters it takes after `c`. -/
def tokenAt (c : Char) (rest : List Char) : Option (Token × Nat) :=
  match c with
  | '\x7b' => some (.leftBrace, 0)
  | '\x7d' => some (.rightBrace, 0)
  | '[' => some (.leftBracket, 0)
  | ']' => some (.rightBracket, 0)
  | ':' => some (.colon, 0)
  | ',' => some (.comma, 0)
  | 'n' => wordAt "null" rest .null
  | 't' => wordAt "true" rest (.bool true)
  | 'f' => wordAt "false" rest (.bool false)
  | '"' => (scanBody rest).map fun (units, taken) =>
      (.string ((joinUnits units).map String.ofList), taken)
  | _ => (Numeral.scan (c :: rest)).map fun (n, taken) => (.number n, taken - 1)

/-- The tokens of a text after its first `skip` characters. -/
def tokensFrom : Nat → List Char → List Token
  | _, [] => []
  | skip + 1, _ :: rest => tokensFrom skip rest
  | 0, c :: rest =>
    if isSpace c then tokensFrom 0 rest
    else match tokenAt c rest with
      | some (token, taken) => token :: tokensFrom taken rest
      | none => [.unknown]

def tokens (text : String) : List Token := tokensFrom 0 text.toList

end ShapeTyping.Json
