import ShapeTyping.Json.Token
/-! JSON documents as trees. A text that goes wrong somewhere still has a tree of
what stands before that place, with the place marked, so that a reader can say
which fault of a document comes first. -/
namespace ShapeTyping

inductive Json where
  | null
  | bool (value : Bool)
  | number (numeral : Numeral)
  /-- A string, without a text when its escapes leave a surrogate unpaired. -/
  | string (text? : Option String)
  /-- `closed` says that the closing bracket follows the last item. -/
  | array (items : List Json) (closed : Bool)
  | object (members : List (Option String × Json)) (closed : Bool)
  /-- No value stands where one should. -/
  | missing

namespace Json

/-- An array or object still open, its parts in reverse. An object holds the key
of the value that comes next. -/
inductive Frame where
  | array (items : List Json)
  | object (members : List (Option String × Json)) (key? : Option String)

def Frame.add (value : Json) : Frame → Frame
  | .array items => .array (value :: items)
  | .object members key? => .object ((key?, value) :: members) none

def Frame.toJson (closed : Bool) : Frame → Json
  | .array items => .array items.reverse closed
  | .object members _ => .object members.reverse closed

/-- What may come next inside the innermost open frame. -/
inductive Expected where
  | value
  | firstItem
  | key
  | firstKey
  | colon
  | separator

inductive Progress where
  | reading (frames : List Frame) (expected : Expected)
  | finished (root : Json)
  /-- The text went wrong; `root` is what stands before that place. -/
  | stuck (root : Json)

/-- A complete value takes its place in the innermost frame. -/
def Progress.place (value : Json) : List Frame → Progress
  | [] => .finished value
  | frame :: frames => .reading (frame.add value :: frames) .separator

/-- The tree around a value when the text ends inside the given frames. -/
def unwind (value : Json) : List Frame → Json
  | [] => value
  | frame :: frames => unwind ((frame.add value).toJson false) frames

/-- The tree of a text that goes wrong where `expected` should have come. -/
def giveUp (frames : List Frame) : Expected → Json
  | .value | .colon => unwind .missing frames
  | .firstItem | .key | .firstKey | .separator =>
    match frames with
    | [] => .missing
    | frame :: frames => unwind (frame.toJson false) frames

/-- A token that starts a value. -/
def Progress.start (frames : List Frame) : Token → Progress
  | .null => place .null frames
  | .bool b => place (.bool b) frames
  | .number n => place (.number n) frames
  | .string text? => place (.string text?) frames
  | .leftBracket => .reading (.array [] :: frames) .firstItem
  | .leftBrace => .reading (.object [] none :: frames) .firstKey
  | _ => .stuck (unwind .missing frames)

def Progress.next : Progress → Token → Progress
  | .stuck root, _ => .stuck root
  | .finished root, _ => .stuck root
  | .reading frames .value, token => start frames token
  | .reading (.array items :: frames) .firstItem, .rightBracket =>
    place (Frame.toJson true (.array items)) frames
  | .reading frames .firstItem, token => start frames token
  | .reading (.object members _ :: frames) .firstKey, .rightBrace =>
    place (Frame.toJson true (.object members none)) frames
  | .reading (.object members _ :: frames) .firstKey, .string key?
  | .reading (.object members _ :: frames) .key, .string key? =>
    .reading (.object members key? :: frames) .colon
  | .reading frames .colon, .colon => .reading frames .value
  | .reading (.array items :: frames) .separator, .comma =>
    .reading (.array items :: frames) .value
  | .reading (.array items :: frames) .separator, .rightBracket =>
    place (Frame.toJson true (.array items)) frames
  | .reading (.object members key? :: frames) .separator, .comma =>
    .reading (.object members key? :: frames) .key
  | .reading (.object members key? :: frames) .separator, .rightBrace =>
    place (Frame.toJson true (.object members key?)) frames
  | .reading frames expected, _ => .stuck (giveUp frames expected)

/-- A text as far as it can be read: its tree, and whether nothing is wrong with
the way brackets and separators stand in it. -/
structure Document where
  root : Json
  ended : Bool

def read (text : String) : Document :=
  match (tokens text).foldl Progress.next (.reading [] .value) with
  | .finished root => ⟨root, true⟩
  | .stuck root => ⟨root, false⟩
  | .reading frames expected => ⟨giveUp frames expected, false⟩

mutual
/-- No value is missing and every bracket is closed. -/
def isComplete : Json → Bool
  | .array items closed => closed && itemsComplete items
  | .object members closed => closed && membersComplete members
  | .missing => false
  | _ => true
def itemsComplete : List Json → Bool
  | [] => true
  | item :: items => item.isComplete && itemsComplete items
def membersComplete : List (Option String × Json) → Bool
  | [] => true
  | (_, value) :: members => value.isComplete && membersComplete members
end

/-- How deep the values of a document may nest. -/
def nestingCap : Nat := 127

mutual
/-- Whether a value can be held: it is complete, its texts are well formed, its
numbers are in range and it has at most `levels` levels. -/
def isSound (levels : Nat) : Json → Bool
  | .number n => !n.toNumber.isInfinite
  | .string text? => text?.isSome
  | .array items closed => closed && 0 < levels && itemsSound (levels - 1) items
  | .object members closed => closed && 0 < levels && membersSound (levels - 1) members
  | .missing => false
  | _ => true
def itemsSound (levels : Nat) : List Json → Bool
  | [] => true
  | item :: items => item.isSound levels && itemsSound levels items
def membersSound (levels : Nat) : List (Option String × Json) → Bool
  | [] => true
  | (key?, value) :: members =>
    key?.isSome && value.isSound levels && membersSound levels members
end

end Json
end ShapeTyping
