import Mathlib.Data.List.Nodup
import ShapeTyping.Json.Reader
import ShapeTyping.Proofs.Json.Complete
import ShapeTyping.Proofs.Outcome
/-! Records are read from JSON documents by the laws of a reader. -/
namespace ShapeTyping.Json

/-- What a value is. A numeral without sign, fraction and exponent is a natural number. -/
def datum : Json → Datum
  | .bool b => .bool b
  | .string (some text) => .text text
  | .object [(some name, .null)] true => .tag name
  | .number n => if !n.negative && n.isPlain then .natural n.coefficient else .other
  | _ => .other

/-- The members of an object that a text is, if all their names can be read. -/
def members? (text : String) : Option (List (String × Json)) :=
  match read text with
  | ⟨.object members true, true⟩ => members.mapM fun member => member.1.map (·, member.2)
  | _ => none

def view : Reader.View Json Fault where
  members? := members?
  datum := datum
  Visit := Visit
  start default := ⟨default, []⟩
  member slots visit := visit.member slots
  value := Visit.value
  Taken visit name := name ∈ visit.taken

/-! ## Values -/

/-- The values that are of a kind. -/
def Is : Datum → Json → Prop
  | .bool b, json => json = .bool b
  | .text text, json => json = .string (some text)
  | .tag name, json => json = .object [(some name, .null)] true
  | .natural n, json =>
    ∃ m : Numeral, json = .number m ∧ m.negative = false ∧ m.isPlain = true ∧ m.coefficient = n
  | .other, _ => True

theorem is_datum (json : Json) : Is json.datum json := by
  unfold datum
  split
  · rfl
  · rfl
  · rfl
  next n =>
    split
    next h =>
      simp only [Bool.and_eq_true, Bool.not_eq_true'] at h
      exact ⟨n, rfl, h.1, h.2, rfl⟩
    next => trivial
  · trivial

theorem is_of_datum_eq {json : Json} {d : Datum} (h : json.datum = d) : Is d json :=
  h ▸ json.is_datum

theorem readBoolOrText_eq_ok_iff {json : Json} {x : Bool ⊕ String} :
    readBoolOrText json = .ok x ↔ json.datum = x.elim .bool .text := by
  constructor
  · intro h
    unfold readBoolOrText at h
    split at h
    · cases h
      rfl
    · cases h
      rfl
    · cases h
  · intro h
    cases x with
    | inl b =>
      obtain rfl : json = .bool b := is_of_datum_eq h
      rfl
    | inr text =>
      obtain rfl : json = .string (some text) := is_of_datum_eq h
      rfl

section
variable {α : Type} {choices : List (String × α)} {a : α}

theorem choose_eq_ok_iff {text : String} :
    choose choices text = .ok a ↔ choices.lookup text = some a := by
  unfold choose
  cases choices.lookup text <;> simp

theorem readChoice_eq_ok_iff {json : Json} :
    readChoice choices json = .ok a ↔
      ∃ name, (json.datum = .text name ∨ json.datum = .tag name) ∧
        choices.lookup name = some a := by
  constructor
  · intro h
    unfold readChoice at h
    split at h
    next text => exact ⟨text, .inl rfl, choose_eq_ok_iff.mp h⟩
    next text value members closed =>
      obtain ⟨a', ha', h⟩ := Outcome.bind_eq_ok.mp h
      split at h
      next =>
        split at h
        next hend =>
          cases h
          simp only [Bool.and_eq_true, List.isEmpty_iff] at hend
          rw [hend.1, hend.2]
          exact ⟨text, .inr rfl, choose_eq_ok_iff.mp ha'⟩
        next => cases h
      next => cases h
    next => cases h
  · rintro ⟨name, htext | htag, hname⟩
    · obtain rfl : json = .string (some name) := is_of_datum_eq htext
      exact choose_eq_ok_iff.mpr hname
    · obtain rfl : json = .object [(some name, .null)] true := is_of_datum_eq htag
      exact Outcome.bind_eq_ok.mpr ⟨a, choose_eq_ok_iff.mpr hname, rfl⟩

end

theorem heldInt?_eq_some_iff {n : Numeral} {i : Int} :
    heldInt? n = some i ↔
      n.isPlain = true ∧ i = (if n.negative then -(n.coefficient : Int) else n.coefficient) ∧
        -0x8000000000000000 ≤ i ∧ i < 0x10000000000000000 ∧ (n.negative = true → i ≠ 0) := by
  unfold heldInt? Numeral.toInt?
  cases n.isPlain with
  | false => simp
  | true =>
    generalize (if n.negative then -(n.coefficient : Int) else n.coefficient) = k
    simp only [if_true, Option.ite_none_right_eq_some, Bool.and_eq_true, Bool.not_eq_true',
      Bool.and_eq_false_imp, beq_eq_false_iff_ne, decide_eq_true_eq, Option.some.injEq, true_and]
    constructor
    · rintro ⟨⟨⟨hlow, hhigh⟩, hzero⟩, rfl⟩
      exact ⟨rfl, hlow, hhigh, hzero⟩
    · rintro ⟨rfl, hlow, hhigh, hzero⟩
      exact ⟨⟨⟨hlow, hhigh⟩, hzero⟩, rfl⟩

theorem readWord_number_eq_ok {m : Numeral} {n : Nat} (h : readWord (.number m) = .ok n) :
    ∃ i, heldInt? m = some i ∧ 0 ≤ i ∧ i < 0x100000000 ∧ n = i.toNat := by
  rw [readWord] at h
  cases hheld : heldInt? m with
  | none => rw [hheld] at h; cases h
  | some i =>
    simp only [hheld, Bool.and_eq_true, decide_eq_true_eq] at h
    split at h
    next hrange =>
      cases h
      exact ⟨i, rfl, hrange.1, hrange.2, rfl⟩
    next => cases h

theorem readWord_eq_ok_iff {json : Json} {n : Nat} :
    readWord json = .ok n ↔ json.datum = .natural n ∧ n < 0x100000000 := by
  constructor
  · intro h
    cases json with
    | number m =>
      obtain ⟨i, hheld, hlow, hhigh, rfl⟩ := readWord_number_eq_ok h
      obtain ⟨plain, hi, -, -, hzero⟩ := heldInt?_eq_some_iff.mp hheld
      cases hsign : m.negative with
      | true =>
        -- The only one that is not below zero is the negative zero, which is not held.
        rw [hsign, if_pos rfl] at hi
        have := hzero hsign
        omega
      | false =>
        rw [hsign, if_neg Bool.false_ne_true] at hi
        subst hi
        exact ⟨by simp [datum, hsign, plain], by omega⟩
    | null | bool | string | array | object | missing => cases h
  · rintro ⟨h, range⟩
    obtain ⟨m, rfl, unsigned, plain, rfl⟩ := is_of_datum_eq h
    have hheld : heldInt? m = some (m.coefficient : Int) := by
      rw [heldInt?_eq_some_iff, unsigned, if_neg Bool.false_ne_true]
      exact ⟨plain, rfl, by omega, by omega, nofun⟩
    have hrange : (m.coefficient : Int) < 0x100000000 := by omega
    rw [readWord, hheld]
    simp [hrange]

/-! ## Records -/

section
variable {ρ : Type} {slots : List (Slot Json Fault ρ)} {slot : Slot Json Fault ρ}
  {visit : Visit ρ} {name : String} {json : Json}

theorem find?_slot (hslots : (slots.map (·.name)).Nodup) (hslot : slot ∈ slots) :
    slots.find? (·.name == slot.name) = some slot := by
  cases hfound : slots.find? (·.name == slot.name) with
  | none => simpa using List.find?_eq_none.mp hfound slot hslot
  | some found =>
    have hname : found.name = slot.name := by simpa using List.find?_some hfound
    have hmem := List.mem_of_find?_eq_some hfound
    rw [List.inj_on_of_nodup_map hslots hmem hslot hname]

theorem member_of_unknown (hjson : json.isComplete = true)
    (hname : ∀ slot ∈ slots, slot.name ≠ name) : visit.member slots (name, json) = .ok visit := by
  have hnone : slots.find? (·.name == name) = none :=
    List.find?_eq_none.mpr fun slot hslot => by simpa using hname slot hslot
  rw [Visit.member, hnone]
  exact if_pos hjson

theorem member_of_mem (hslots : (slots.map (·.name)).Nodup) (hslot : slot ∈ slots) :
    visit.member slots (slot.name, json) =
      if slot.name ∈ visit.taken then .error (.duplicate slot.name)
      else (slot.read json).map fun change => ⟨change visit.value, slot.name :: visit.taken⟩ := by
  rw [Visit.member, find?_slot hslots hslot]
  dsimp only
  split
  · rfl
  · cases slot.read json <;> rfl

theorem readMembers_eq_foldlM (slots : List (Slot Json Fault ρ)) (visit : Visit ρ)
    (members : List (String × Json)) :
    readMembers slots visit (members.map fun member => (some member.1, member.2)) =
      members.foldlM (Visit.member slots) visit := by
  induction members generalizing visit with
  | nil => rfl
  | cons member members ih =>
    rw [List.map_cons, readMembers, List.foldlM_cons]
    exact bind_congr fun visit => ih visit

theorem eq_map_of_mapM {members : List (Option String × Json)} {named : List (String × Json)}
    (h : (members.mapM fun member => member.1.map (·, member.2)) = some named) :
    members = named.map fun member => (some member.1, member.2) := by
  induction members generalizing named with
  | nil => cases h; rfl
  | cons member members ih =>
    obtain ⟨key?, json⟩ := member
    simp only [List.mapM_cons, Option.bind_eq_bind, Option.bind_eq_some_iff,
      Option.map_eq_some_iff] at h
    obtain ⟨_, ⟨key, rfl, rfl⟩, rest, hrest, h⟩ := h
    cases h
    rw [ih hrest]
    rfl

theorem read_of_members? {text : String} {members : List (String × Json)}
    (h : members? text = some members) :
    read text = ⟨.object (members.map fun member => (some member.1, member.2)) true, true⟩ := by
  unfold members? at h
  split at h
  next hread => rw [hread, ← eq_map_of_mapM h]
  next => cases h

theorem isComplete_of_occurs (h : view.Occurs json) : json.isComplete = true := by
  obtain ⟨text, members, name, hmembers, hmem⟩ := h
  have hread := read_of_members? hmembers
  have hroot : (read text).root.isComplete = true := isComplete_of_ended (by rw [hread])
  rw [hread, isComplete, Bool.true_and, membersComplete_iff] at hroot
  exact hroot _ (List.mem_map_of_mem (f := fun member => (some member.1, member.2)) hmem)

end

theorem lawful_reader : reader.Lawful view where
  boolOrText _ _ := readBoolOrText_eq_ok_iff
  choice _ _ _ := readChoice_eq_ok_iff
  word _ _ := readWord_eq_ok_iff
  record title slots default text members h := by
    show readRecord title slots default text = _
    rw [readRecord, read_of_members? h]
    dsimp only [toRecord, Reader.View.ofMembers]
    rw [readMembers_eq_foldlM]
    show _ = (members.foldlM (Visit.member slots) ⟨default, []⟩).map Visit.value
    cases members.foldlM (Visit.member slots) ⟨default, []⟩ <;> rfl
  value_start _ := rfl
  not_taken_start _ _ := List.not_mem_nil
  unknown hjson hname _ := member_of_unknown (isComplete_of_occurs hjson) hname
  known {_ _ slot visit _ change} hslots hslot htaken hread := by
    refine ⟨⟨change visit.value, slot.name :: visit.taken⟩, ?_, rfl, fun name => List.mem_cons⟩
    exact (member_of_mem hslots hslot).trans ((if_neg htaken).trans (by rw [hread]; rfl))
  refused {_ _ slot visit json e} hslots hslot hread := by
    by_cases htaken : slot.name ∈ visit.taken
    · exact ⟨_, (member_of_mem hslots hslot).trans (if_pos htaken)⟩
    · exact ⟨e, (member_of_mem hslots hslot).trans ((if_neg htaken).trans (by rw [hread]; rfl))⟩
  repeated hslots hslot htaken := ⟨_, (member_of_mem hslots hslot).trans (if_pos htaken)⟩

end ShapeTyping.Json
