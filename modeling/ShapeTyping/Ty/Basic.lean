import ShapeTyping.Literal
/-! Types: intrinsic and literal types, shapes of objects, unions, functions,
arrays, and named types with arguments. -/
namespace ShapeTyping

/-- A field of an object. -/
structure Field (τ : Type) where
  name : String
  optional : Bool
  readonly : Bool
  type : τ

/-- The fields of an object, in the order in which they are shown. -/
structure Shape (τ : Type) where
  fields : List (Field τ)

/-- A parameter with the position it declares. -/
structure Param (τ : Type) where
  position : Nat
  optional : Bool
  type : τ

structure Signature (τ : Type) where
  params : List (Param τ)
  result : τ

inductive Ty where
  | intrinsic (kind : Intrinsic)
  | literal (value : Literal)
  | shape (shape : Shape Ty)
  | union (members : List Ty)
  | function (signature : Signature Ty)
  | array (element : Ty)
  /-- A named type, opaque but for its arguments. -/
  | application (name : String) (arguments : List Ty)

def Shape.field? {τ : Type} (s : Shape τ) (name : String) : Option (Field τ) :=
  s.fields.find? fun f => f.name == name

namespace Ty

mutual
/-- Structural equality. The order of a shape's fields does not count. -/
def same : Ty → Ty → Bool
  | .intrinsic j, .intrinsic k => j == k
  | .literal a, .literal b => a.same b
  | .shape ⟨fs⟩, .shape ⟨gs⟩ => fs.length == gs.length && sameFields fs gs
  | .union ss, .union ts => sameList ss ts
  | .function ⟨ps, s⟩, .function ⟨qs, t⟩ => sameParams ps qs && s.same t
  | .array s, .array t => s.same t
  | .application m ss, .application n ts => m == n && sameList ss ts
  | _, _ => false
termination_by structural t => t
def sameList : List Ty → List Ty → Bool
  | [], [] => true
  | s :: ss, t :: ts => s.same t && sameList ss ts
  | _, _ => false
termination_by structural ts => ts
/-- Every field of the first list has an equal one of its name in the second. -/
def sameFields : List (Field Ty) → List (Field Ty) → Bool
  | [], _ => true
  | ⟨name, optional, readonly, t⟩ :: fs, gs =>
    (match gs.find? fun g => g.name == name with
      | some g => optional == g.optional && readonly == g.readonly && t.same g.type
      | none => false) && sameFields fs gs
termination_by structural fs => fs
def sameParams : List (Param Ty) → List (Param Ty) → Bool
  | [], [] => true
  | ⟨i, a, s⟩ :: ps, ⟨j, b, t⟩ :: qs => i == j && a == b && s.same t && sameParams ps qs
  | _, _ => false
termination_by structural ps => ps
end

def intrinsic? : Ty → Option Intrinsic
  | .intrinsic kind => some kind
  | _ => none

def shape? : Ty → Option (Shape Ty)
  | .shape s => some s
  | _ => none

def members? : Ty → Option (List Ty)
  | .union members => some members
  | _ => none

mutual
/-- Whether `undefined` belongs to the type by what its name says. -/
def admitsUndefined : Ty → Bool
  | .intrinsic kind => kind == .undefined || kind == .void || kind == .any || kind == .unknown
  | .union members => anyAdmitsUndefined members
  | _ => false
def anyAdmitsUndefined : List Ty → Bool
  | [] => false
  | t :: ts => t.admitsUndefined || anyAdmitsUndefined ts
end

/-- The shapes a type lists: itself, or those among its members. -/
def shapes : Ty → List (Shape Ty)
  | .shape s => [s]
  | .union members => members.filterMap shape?
  | _ => []

end Ty

def Shape.same (s t : Shape Ty) : Bool := (Ty.shape s).same (.shape t)

/-! ## Parts of types -/

/-- Induction over types: the parts of a type are the types of its fields, its members, its
parameters and its result, its element, and its arguments. -/
@[induction_eliminator]
theorem Ty.induction {P : Ty → Prop} (intrinsic : ∀ kind, P (.intrinsic kind))
    (literal : ∀ value, P (.literal value))
    (shape : ∀ s, (∀ f ∈ s.fields, P f.type) → P (.shape s))
    (union : ∀ members, (∀ t ∈ members, P t) → P (.union members))
    (function : ∀ s, (∀ p ∈ s.params, P p.type) → P s.result → P (.function s))
    (array : ∀ element, P element → P (.array element))
    (application : ∀ name arguments, (∀ t ∈ arguments, P t) → P (.application name arguments))
    (t : Ty) : P t := by
  apply @Ty.rec P (fun s => ∀ f ∈ s.fields, P f.type) (fun ts => ∀ t ∈ ts, P t)
    (fun s => (∀ p ∈ s.params, P p.type) ∧ P s.result) (fun fs => ∀ f ∈ fs, P f.type)
    (fun ps => ∀ p ∈ ps, P p.type) (fun f => P f.type) (fun p => P p.type)
  case function => exact fun s h => function s h.1 h.2
  all_goals simp_all

namespace Ty

theorem sizeOf_member_lt {members : List Ty} {t : Ty} (h : t ∈ members) :
    sizeOf t < sizeOf (union members) := by
  have := List.sizeOf_lt_of_mem h
  simp only [union.sizeOf_spec]
  omega

theorem sizeOf_argument_lt (name : String) {arguments : List Ty} {t : Ty} (h : t ∈ arguments) :
    sizeOf t < sizeOf (application name arguments) := by
  have := List.sizeOf_lt_of_mem h
  simp only [application.sizeOf_spec]
  omega

theorem sizeOf_field_lt {s : Shape Ty} {f : Field Ty} (h : f ∈ s.fields) :
    sizeOf f.type < sizeOf (shape s) := by
  have := List.sizeOf_lt_of_mem h
  obtain ⟨fields⟩ := s
  obtain ⟨name, optional, readonly, type⟩ := f
  simp only [shape.sizeOf_spec, Shape.mk.sizeOf_spec, Field.mk.sizeOf_spec] at *
  omega

theorem sizeOf_param_lt {s : Signature Ty} {p : Param Ty} (h : p ∈ s.params) :
    sizeOf p.type < sizeOf (function s) := by
  have := List.sizeOf_lt_of_mem h
  obtain ⟨params, result⟩ := s
  obtain ⟨position, optional, type⟩ := p
  simp only [function.sizeOf_spec, Signature.mk.sizeOf_spec, Param.mk.sizeOf_spec] at *
  omega

theorem sizeOf_result_lt (s : Signature Ty) : sizeOf s.result < sizeOf (function s) := by
  obtain ⟨params, result⟩ := s
  simp only [function.sizeOf_spec, Signature.mk.sizeOf_spec]
  omega

theorem sizeOf_element_lt (element : Ty) : sizeOf element < sizeOf (array element) := by
  simp only [array.sizeOf_spec]
  omega

end Ty
end ShapeTyping
