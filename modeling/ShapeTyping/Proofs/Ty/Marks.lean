import ShapeTyping.Proofs.Ty.WellFormed
import ShapeTyping.Ty.Display
/-! The texts of types as sequences of marks: words, brackets, separators and the labels of
parameters. No mark is the beginning of another one, so that a text can be cut into its marks in
one way only. -/
namespace ShapeTyping

inductive Mark where
  | word (kind : Intrinsic)
  | opening
  | closing
  | arrow
  | brackets
  | bar
  | comma
  | label (position : Nat) (optional : Bool)

namespace Mark

def text : Mark → String
  | .word kind => kind.name
  | .opening => "("
  | .closing => ")"
  | .arrow => " => "
  | .brackets => "[]"
  | .bar => " | "
  | .comma => ", "
  | .label position optional =>
    "p" ++ toString position ++ (if optional then "?" else "") ++ ": "

/-! ## Cutting a text -/

/-- All marks but the labels. -/
def fixed : List Mark :=
  [.word .any, .word .unknown, .word .never, .word .string, .word .number, .word .boolean,
    .word .null, .word .undefined, .word .void, .opening, .closing, .arrow, .brackets, .bar, .comma]

/-- The mark that a text starts with, and the text after it. -/
def scan : List Char → Option (Mark × List Char)
  | 'p' :: cs =>
    let position := Nat.ofDigitChars 10 (cs.takeWhile Char.isDigit) 0
    match cs.dropWhile Char.isDigit with
    | ':' :: ' ' :: rest => some (.label position false, rest)
    | '?' :: ':' :: ' ' :: rest => some (.label position true, rest)
    | _ => none
  | cs => fixed.findSome? fun m => (m.text.toList.isPrefixOf? cs).map fun rest => (m, rest)

theorem scan_label (position : Nat) (optional : Bool) (rest : List Char) :
    scan ((label position optional).text.toList ++ rest) =
      some (.label position optional, rest) := by
  have hdigits : ∀ c ∈ Nat.toDigits 10 position, c.isDigit = true := fun c hc =>
    Nat.isDigit_of_mem_toDigits (by decide) (by decide) hc
  have hcut : ∀ c cs, Char.isDigit c = false →
      (Nat.toDigits 10 position ++ c :: cs).takeWhile Char.isDigit = Nat.toDigits 10 position ∧
        (Nat.toDigits 10 position ++ c :: cs).dropWhile Char.isDigit = c :: cs := by
    intro c cs hc
    rw [List.takeWhile_append_of_pos hdigits, List.dropWhile_append_of_pos hdigits]
    simp [hc]
  cases optional with
  | false =>
    obtain ⟨htake, hdrop⟩ := hcut ':' (' ' :: rest) rfl
    simp [text, scan, htake, hdrop]
  | true =>
    obtain ⟨htake, hdrop⟩ := hcut '?' (':' :: ' ' :: rest) rfl
    simp [text, scan, htake, hdrop]

theorem scan_text (m : Mark) (rest : List Char) :
    scan (m.text.toList ++ rest) = some (m, rest) := by
  cases m with
  | label position optional => exact scan_label position optional rest
  | word kind => cases kind <;> rfl
  | _ => rfl

/-- The text of some marks. -/
def spell (ms : List Mark) : List Char := ms.flatMap (·.text.toList)

@[simp]
theorem spell_cons (m : Mark) (ms : List Mark) : spell (m :: ms) = m.text.toList ++ spell ms :=
  List.flatMap_cons

@[simp]
theorem spell_append (ms ns : List Mark) : spell (ms ++ ns) = spell ms ++ spell ns :=
  List.flatMap_append

theorem spell_intercalate (m : Mark) (mss : List (List Mark)) :
    spell ([m].intercalate mss) = m.text.toList.intercalate (mss.map spell) := by
  induction mss with
  | nil => rfl
  | cons ms mss ih =>
    cases mss with
    | nil => simp
    | cons ns mss =>
      rw [List.map_cons] at ih ⊢
      rw [List.map_cons, List.intercalate_cons_cons, List.intercalate_cons_cons, spell_append, ← ih]
      simp [spell]

theorem scan_spell_cons (m : Mark) (ms : List Mark) :
    scan (spell (m :: ms)) = some (m, spell ms) := by
  rw [spell_cons, scan_text]

/-- A text has one sequence of marks at most. -/
theorem spell_injective {ms ns : List Mark} (h : spell ms = spell ns) : ms = ns := by
  induction ms generalizing ns with
  | nil =>
    cases ns with
    | nil => rfl
    | cons n ns =>
      have hscan := scan_spell_cons n ns
      rw [← h] at hscan
      cases hscan
  | cons m ms ih =>
    have hscan := scan_spell_cons m ms
    rw [h] at hscan
    cases ns with
    | nil => cases hscan
    | cons n ns =>
      rw [scan_spell_cons, Option.some.injEq, Prod.mk.injEq] at hscan
      rw [hscan.1, ih hscan.2.symm]

end Mark

/-! ## The marks of a type -/

namespace Ty

mutual
/-- The marks that the text of a type consists of, unless the type has text of its own. -/
def marks : Ty → List Mark
  | .intrinsic kind => [.word kind]
  | .union members => [.bar].intercalate (listMarks members)
  | .function ⟨params, result⟩ =>
    .opening :: ([.comma].intercalate (paramMarks params) ++ .closing :: .arrow :: result.marks)
  | .array element =>
    if element.isOpen then .opening :: (element.marks ++ [.closing, .brackets])
    else element.marks ++ [.brackets]
  | .literal _ | .shape _ | .application _ _ => []
termination_by structural t => t
def listMarks : List Ty → List (List Mark)
  | [] => []
  | t :: ts => t.marks :: listMarks ts
termination_by structural ts => ts
def paramMarks : List (Param Ty) → List (List Mark)
  | [] => []
  | ⟨position, optional, t⟩ :: params =>
    (.label position optional :: t.marks) :: paramMarks params
termination_by structural ps => ps
end

theorem listMarks_eq (ts : List Ty) : listMarks ts = ts.map marks := by
  induction ts with
  | nil => rfl
  | cons t ts ih => rw [listMarks, ih, List.map_cons]

theorem paramMarks_eq (ps : List (Param Ty)) :
    paramMarks ps = ps.map fun p => .label p.position p.optional :: p.type.marks := by
  induction ps with
  | nil => rfl
  | cons p ps ih => rw [paramMarks, ih, List.map_cons]

/-- The marks of the alternatives after the first one. -/
def furtherMarks (ts : List Ty) : List Mark := ts.flatMap fun t => .bar :: t.marks

theorem furtherMarks_cons (t : Ty) (ts : List Ty) :
    furtherMarks (t :: ts) = .bar :: (t.marks ++ furtherMarks ts) := List.flatMap_cons

theorem marks_union_cons (t : Ty) (ts : List Ty) :
    (Ty.union (t :: ts)).marks = t.marks ++ furtherMarks ts := by
  rw [marks, listMarks_eq]
  induction ts generalizing t with
  | nil => rw [List.map_singleton, List.intercalate_singleton]; exact (List.append_nil _).symm
  | cons u ts ih =>
    rw [furtherMarks_cons, ← ih, List.map_cons, List.map_cons, List.intercalate_cons_cons,
      List.append_assoc]
    rfl

theorem displayList_eq (ts : List Ty) : displayList ts = ts.map display := by
  induction ts with
  | nil => rfl
  | cons t ts ih => rw [displayList, ih, List.map_cons]

theorem displayParams_eq (ps : List (Param Ty)) :
    displayParams ps =
      ps.map fun p => (Mark.label p.position p.optional).text ++ p.type.display := by
  induction ps with
  | nil => rfl
  | cons p ps ih => rw [displayParams, ih, List.map_cons]; rfl

/-- Types whose text holds text of their own: the value of a literal, or a name. -/
def hasOwnText : Ty → Bool
  | .literal _ | .shape _ | .application _ _ => true
  | _ => false

theorem toList_display {t : Ty} (h : Nested.Free hasOwnText t) :
    t.display.toList = Mark.spell t.marks := by
  induction t with
  | intrinsic kind => simp [display, marks, Mark.spell, Mark.text]
  | union members ih =>
    have hmembers : (members.map display).map String.toList =
        (members.map marks).map Mark.spell := by
      rw [List.map_map, List.map_map]
      exact List.map_congr_left fun m hm => ih m hm (h.part (member_mem_parts hm))
    rw [display, marks, displayList_eq, listMarks_eq, String.toList_intercalate, hmembers,
      Mark.spell_intercalate]
    rfl
  | function s ihp ihr =>
    obtain ⟨params, result⟩ := s
    have hresult := ihr (h.part (result_mem_parts ⟨params, result⟩))
    have hparams : (displayParams params).map String.toList =
        (paramMarks params).map Mark.spell := by
      rw [displayParams_eq, paramMarks_eq, List.map_map, List.map_map]
      refine List.map_congr_left fun p hp => ?_
      have htype := ihp p hp (h.part (param_mem_parts hp))
      simp [htype]
    simp [display, marks, Mark.spell_intercalate, String.toList_intercalate, hparams, hresult,
      Mark.text]
  | array element ih =>
    have helement := ih (h.part (element_mem_parts element))
    rw [display, marks]
    split <;> simp [helement, Mark.spell, Mark.text]
  | literal value => cases h.here
  | shape s => cases h.here
  | application name arguments => cases h.here

/-- Types without text of their own have the same text just if they have the same marks. -/
theorem display_eq_iff_marks_eq {s t : Ty} (hs : Nested.Free hasOwnText s)
    (ht : Nested.Free hasOwnText t) : s.display = t.display ↔ s.marks = t.marks := by
  rw [← String.toList_inj, toList_display hs, toList_display ht]
  exact ⟨Mark.spell_injective, congrArg Mark.spell⟩

end Ty
end ShapeTyping
