import ShapeTyping.Json.Basic
/-! A text that is read to its end has a complete tree: no value is missing in it and every bracket
is closed. While the text is read, this holds of all values that have their place already. -/
namespace ShapeTyping.Json

theorem itemsComplete_iff {items : List Json} :
    itemsComplete items = true ↔ ∀ item ∈ items, item.isComplete = true := by
  induction items with
  | nil => simp [itemsComplete]
  | cons item items ih => simp [itemsComplete, ih]

theorem membersComplete_iff {members : List (Option String × Json)} :
    membersComplete members = true ↔ ∀ member ∈ members, member.2.isComplete = true := by
  induction members with
  | nil => simp [membersComplete]
  | cons member members ih =>
    obtain ⟨key?, value⟩ := member
    simp [membersComplete, ih]

namespace Frame

def values : Frame → List Json
  | .array items => items
  | .object members _ => members.map (·.2)

def Complete (frame : Frame) : Prop := ∀ value ∈ frame.values, value.isComplete = true

theorem Complete.add {frame : Frame} (h : frame.Complete) {value : Json}
    (hvalue : value.isComplete = true) : (frame.add value).Complete := by
  intro v hv
  cases frame with
  | array items =>
    rcases List.mem_cons.mp hv with rfl | hv
    · exact hvalue
    · exact h v hv
  | object members key? =>
    rcases List.mem_cons.mp hv with rfl | hv
    · exact hvalue
    · exact h v hv

theorem Complete.toJson {frame : Frame} (h : frame.Complete) :
    (frame.toJson true).isComplete = true := by
  cases frame with
  | array items =>
    rw [Frame.toJson, isComplete, Bool.true_and, itemsComplete_iff]
    exact fun item hitem => h item (List.mem_reverse.mp hitem)
  | object members key? =>
    rw [Frame.toJson, isComplete, Bool.true_and, membersComplete_iff]
    exact fun member hmember =>
      h member.2 (List.mem_map_of_mem (List.mem_reverse.mp hmember))

end Frame

namespace Progress

/-- Nothing is missing in what has been read, unless the text went wrong. -/
def Complete : Progress → Prop
  | .reading frames _ => ∀ frame ∈ frames, frame.Complete
  | .finished root => root.isComplete = true
  | .stuck _ => True

variable {frames : List Frame}

theorem complete_place {value : Json} (hvalue : value.isComplete = true)
    (h : ∀ frame ∈ frames, frame.Complete) : (place value frames).Complete := by
  cases frames with
  | nil => exact hvalue
  | cons frame frames =>
    rw [List.forall_mem_cons] at h
    exact List.forall_mem_cons.mpr ⟨h.1.add hvalue, h.2⟩

theorem complete_start (token : Token) (h : ∀ frame ∈ frames, frame.Complete) :
    (start frames token).Complete := by
  cases token with
  | null | bool | number | string => exact complete_place rfl h
  | leftBracket | leftBrace => exact List.forall_mem_cons.mpr ⟨nofun, h⟩
  | rightBrace | rightBracket | colon | comma | unknown => trivial

theorem complete_close {frame : Frame} (h : ∀ f ∈ frame :: frames, f.Complete) :
    (place (frame.toJson true) frames).Complete := by
  rw [List.forall_mem_cons] at h
  exact complete_place h.1.toJson h.2

/-- A frame is as complete with a key waiting in it as without. -/
theorem complete_of_key {members : List (Option String × Json)} {key? : Option String}
    (h : ∀ f ∈ Frame.object members key? :: frames, f.Complete) (next? : Option String) :
    ∀ f ∈ Frame.object members next? :: frames, f.Complete := by
  obtain ⟨hframe, hframes⟩ := List.forall_mem_cons.mp h
  exact List.forall_mem_cons.mpr ⟨hframe, hframes⟩

theorem complete_next {p : Progress} (h : p.Complete) (token : Token) :
    (p.next token).Complete := by
  fun_cases next p token with
  | case1 | case2 | case14 => trivial
  | case3 | case5 => exact complete_start token h
  | case4 | case11 | case13 => exact complete_close h
  | case9 | case10 | case12 => exact h
  | case6 => exact complete_close (complete_of_key h none)
  | case7 | case8 => exact complete_of_key h _

theorem complete_foldl {p : Progress} (h : p.Complete) (tokens : List Token) :
    (tokens.foldl next p).Complete := by
  induction tokens generalizing p with
  | nil => exact h
  | cons token tokens ih => exact ih (complete_next h token)

end Progress

theorem isComplete_of_ended {text : String} (h : (read text).ended = true) :
    (read text).root.isComplete = true := by
  have hstart : (Progress.reading [] .value).Complete := List.forall_mem_nil _
  have hall := Progress.complete_foldl hstart (tokens text)
  unfold read at h ⊢
  cases hprogress : (tokens text).foldl Progress.next (.reading [] .value) with
  | finished root =>
    rw [hprogress] at hall
    exact hall
  | stuck root =>
    rw [hprogress] at h
    cases h
  | reading frames expected =>
    rw [hprogress] at h
    cases h

end ShapeTyping.Json
