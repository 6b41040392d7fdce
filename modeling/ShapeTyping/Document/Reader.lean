/-! What a program asks of a reader of documents. The reader knows the form of documents: it reads
values of a few kinds, and records whose members are told by their names. The program says which
fields a record has and what it makes of their values.

What is taken for granted of a reader is said by laws. A value is of one kind or another and is read
as what it is. A record comes of the members of an object one after the other: a member that is for
no field is passed over, a field is set by the first member that is for it, and a second one is
refused, as is a value that the field cannot be set to. -/
namespace ShapeTyping

/-- A field of a record of type `ρ`, with what its value makes of the record. Values are of type
`ν` as they stand in a document, and errors of type `ε`. -/
structure Slot (ν ε ρ : Type) where
  name : String
  read : ν → Except ε (ρ → ρ)

/-- The ways in which a document is read. -/
structure Reader (ν ε : Type) where
  /-- An error that the program finds itself. -/
  custom : String → ε
  /-- A truth value or a text. -/
  boolOrText : ν → Except ε (Bool ⊕ String)
  /-- One of the choices, by its name. -/
  choice {α : Type} : List (String × α) → ν → Except ε α
  /-- A natural number below `2 ^ 32`. -/
  word : ν → Except ε Nat
  /-- A record of the given title, with its fields and what they hold by default, from a text. -/
  record {ρ : Type} (title : String) (slots : List (Slot ν ε ρ)) (default : ρ) (text : String) :
    Except ε ρ

/-! ## Laws -/

/-- What a value of a document is, as far as a program can ask. -/
inductive Datum where
  | bool (b : Bool)
  | text (text : String)
  /-- An object with one key, which holds `null`. -/
  | tag (name : String)
  | natural (n : Nat)
  | other

namespace Reader

/-- A view of documents and of the visits that are paid to their members. -/
structure View (ν ε : Type) where
  /-- The members of an object in order, if a text is one. -/
  members? : String → Option (List (String × ν))
  datum : ν → Datum
  /-- A visit under way, to the members of a record of a type. -/
  Visit : Type → Type
  start {ρ : Type} : ρ → Visit ρ
  member {ρ : Type} : List (Slot ν ε ρ) → Visit ρ → String × ν → Except ε (Visit ρ)
  /-- The record as far as it was visited. -/
  value {ρ : Type} : Visit ρ → ρ
  /-- The field was met before. -/
  Taken {ρ : Type} : Visit ρ → String → Prop

variable {ν ε ρ : Type}

namespace View

/-- The value is that of a member of some document. -/
def Occurs (view : View ν ε) (raw : ν) : Prop :=
  ∃ text members name, view.members? text = some members ∧ (name, raw) ∈ members

/-- Visits all members. -/
def ofMembers (view : View ν ε) (slots : List (Slot ν ε ρ)) (default : ρ)
    (members : List (String × ν)) : Except ε ρ :=
  (members.foldlM (view.member slots) (view.start default)).map view.value

end View

/-- A reader that reads documents as they are seen in a view. -/
structure Lawful (r : Reader ν ε) (view : View ν ε) : Prop where
  boolOrText : ∀ raw x, r.boolOrText raw = .ok x ↔ view.datum raw = x.elim .bool .text
  choice : ∀ {α : Type} (choices : List (String × α)) raw a, r.choice choices raw = .ok a ↔
    ∃ name, (view.datum raw = .text name ∨ view.datum raw = .tag name) ∧
      choices.lookup name = some a
  word : ∀ raw n, r.word raw = .ok n ↔ view.datum raw = .natural n ∧ n < 0x100000000
  record : ∀ {ρ : Type} (title : String) (slots : List (Slot ν ε ρ)) (default : ρ) {text members},
    view.members? text = some members →
    r.record title slots default text = view.ofMembers slots default members
  value_start : ∀ {ρ : Type} (default : ρ), view.value (view.start default) = default
  not_taken_start : ∀ {ρ : Type} (default : ρ) name, ¬ view.Taken (view.start default) name
  unknown : ∀ {ρ : Type} {slots : List (Slot ν ε ρ)} {name raw}, view.Occurs raw →
    (∀ slot ∈ slots, slot.name ≠ name) → ∀ visit, view.member slots visit (name, raw) = .ok visit
  known : ∀ {ρ : Type} {slots : List (Slot ν ε ρ)} {slot visit raw change},
    (slots.map (·.name)).Nodup → slot ∈ slots → ¬ view.Taken visit slot.name →
    slot.read raw = .ok change →
    ∃ visit', view.member slots visit (slot.name, raw) = .ok visit' ∧
      view.value visit' = change (view.value visit) ∧
      ∀ name, view.Taken visit' name ↔ name = slot.name ∨ view.Taken visit name
  refused : ∀ {ρ : Type} {slots : List (Slot ν ε ρ)} {slot visit raw e},
    (slots.map (·.name)).Nodup → slot ∈ slots → slot.read raw = .error e →
    ∃ e', view.member slots visit (slot.name, raw) = .error e'
  repeated : ∀ {ρ : Type} {slots : List (Slot ν ε ρ)} {slot visit raw},
    (slots.map (·.name)).Nodup → slot ∈ slots → view.Taken visit slot.name →
    ∃ e, view.member slots visit (slot.name, raw) = .error e

/-- What a member may do that is not refused. -/
theorem Lawful.member_eq_ok {r : Reader ν ε} {view : View ν ε} (h : r.Lawful view)
    {slots : List (Slot ν ε ρ)} (hslots : (slots.map (·.name)).Nodup) {name : String} {raw : ν}
    (hraw : view.Occurs raw) {visit visit' : view.Visit ρ} :
    view.member slots visit (name, raw) = .ok visit' →
      ((∀ slot ∈ slots, slot.name ≠ name) ∧ visit' = visit) ∨
      ∃ slot ∈ slots, slot.name = name ∧ ¬ view.Taken visit name ∧ ∃ change,
        slot.read raw = .ok change ∧ view.value visit' = change (view.value visit) ∧
        ∀ other, view.Taken visit' other ↔ other = name ∨ view.Taken visit other := by
  intro hmember
  by_cases hname : ∀ slot ∈ slots, slot.name ≠ name
  · rw [h.unknown hraw hname] at hmember
    exact .inl ⟨hname, (Except.ok.inj hmember).symm⟩
  · simp only [Classical.not_forall, Classical.not_not] at hname
    obtain ⟨slot, hslot, rfl⟩ := hname
    have hfresh : ¬ view.Taken visit slot.name := by
      intro htaken
      obtain ⟨e, he⟩ : ∃ e, view.member slots visit (slot.name, raw) = .error e :=
        h.repeated hslots hslot htaken
      cases hmember.symm.trans he
    cases hread : slot.read raw with
    | error e =>
      obtain ⟨e', he'⟩ : ∃ e', view.member slots visit (slot.name, raw) = .error e' :=
        h.refused hslots hslot hread
      cases hmember.symm.trans he'
    | ok change =>
      obtain ⟨next, hnext, hvalue, htaken⟩ := h.known hslots hslot hfresh hread
      cases hmember.symm.trans hnext
      exact .inr ⟨slot, hslot, rfl, hfresh, change, hread, hvalue, htaken⟩

end Reader
end ShapeTyping
