import Mathlib.Data.List.Nodup
import ShapeTyping.Proofs.Nested
import ShapeTyping.Signature.Basic
/-! Types as trees. A type that was built through the constructors is well formed
at every node, and much of what follows is about types in which some kind of node
does not occur. -/
namespace ShapeTyping

namespace Ty

def parts : Ty → List Ty
  | .intrinsic _ | .literal _ => []
  | .shape s => s.fields.map (·.type)
  | .union members => members
  | .function s => s.params.map (·.type) ++ [s.result]
  | .array element => [element]
  | .application _ arguments => arguments

mutual
def nodes : Ty → List Ty
  | .intrinsic kind => [.intrinsic kind]
  | .literal value => [.literal value]
  | .shape ⟨fs⟩ => .shape ⟨fs⟩ :: fieldNodes fs
  | .union ts => .union ts :: listNodes ts
  | .function ⟨ps, t⟩ => .function ⟨ps, t⟩ :: (paramNodes ps ++ t.nodes)
  | .array t => .array t :: t.nodes
  | .application name ts => .application name ts :: listNodes ts
termination_by structural t => t
def listNodes : List Ty → List Ty
  | [] => []
  | t :: ts => t.nodes ++ listNodes ts
termination_by structural ts => ts
def fieldNodes : List (Field Ty) → List Ty
  | [] => []
  | ⟨_, _, _, t⟩ :: fs => t.nodes ++ fieldNodes fs
termination_by structural fs => fs
def paramNodes : List (Param Ty) → List Ty
  | [] => []
  | ⟨_, _, t⟩ :: ps => t.nodes ++ paramNodes ps
termination_by structural ps => ps
end

theorem listNodes_eq (ts : List Ty) : listNodes ts = ts.flatMap nodes := by
  induction ts with
  | nil => rfl
  | cons t ts ih => rw [listNodes, ih, List.flatMap_cons]

theorem fieldNodes_eq (fs : List (Field Ty)) :
    fieldNodes fs = (fs.map (·.type)).flatMap nodes := by
  induction fs with
  | nil => rfl
  | cons f fs ih => rw [fieldNodes, ih, List.map_cons, List.flatMap_cons]

theorem paramNodes_eq (ps : List (Param Ty)) :
    paramNodes ps = (ps.map (·.type)).flatMap nodes := by
  induction ps with
  | nil => rfl
  | cons p ps ih => rw [paramNodes, ih, List.map_cons, List.flatMap_cons]

instance : Nested Ty where
  parts := parts
  nodes := nodes
  nodes_eq t := by
    cases t <;> simp [nodes, parts, listNodes_eq, fieldNodes_eq, paramNodes_eq]

/-! ## Kinds of nodes -/

def isAny (t : Ty) : Bool := t.intrinsic? == some .any

def hasOptionalField : Ty → Bool
  | .shape s => s.fields.any (·.optional)
  | _ => false

def isFunction : Ty → Bool
  | .function _ => true
  | _ => false

def isApplication : Ty → Bool
  | .application _ _ => true
  | _ => false

def isNaN : Ty → Bool
  | .literal (.number x) => x.isNaN
  | _ => false

def isUnion (t : Ty) : Bool := t.members?.isSome

theorem eq_union_or (t : Ty) : (∃ members, t = .union members) ∨ t.isUnion = false := by
  cases t with
  | union members => exact .inl ⟨members, rfl⟩
  | _ => exact .inr rfl

/-! ## Well-formed types -/

/-- What the constructors ensure of the outermost level: the fields of a shape
have distinct names, a union is in normal form, and the parameters of a function
are in their places. -/
def Proper : Ty → Prop
  | .shape s => (s.fields.map (·.name)).Nodup
  | .union members =>
    2 ≤ members.length ∧ (∀ m ∈ members, m.isUnion = false) ∧
      members.Pairwise fun s t => s.same t = false
  | .function s => Signature.fault? 0 false s.params = none
  | _ => True

instance : DecidablePred Proper := fun t =>
  match t with
  | .shape s => inferInstanceAs (Decidable (s.fields.map (·.name)).Nodup)
  | .union members =>
    inferInstanceAs (Decidable (2 ≤ members.length ∧ (∀ m ∈ members, m.isUnion = false) ∧
      members.Pairwise fun s t => s.same t = false))
  | .function s =>
    decidable_of_iff ((Signature.fault? 0 false s.params).isNone = true) Option.isNone_iff_eq_none
  | .intrinsic _ | .literal _ | .array _ | .application _ _ => inferInstanceAs (Decidable True)

/-- A type that can be had from the constructors. -/
def WellFormed (t : Ty) : Prop := Nested.Everywhere Proper t

instance (t : Ty) : Decidable t.WellFormed := inferInstanceAs (Decidable (Nested.Everywhere Proper t))

theorem WellFormed.proper {t : Ty} (h : t.WellFormed) : t.Proper := Nested.Everywhere.here h

theorem WellFormed.part {s t : Ty} (h : t.WellFormed) (hs : s ∈ Nested.parts t) : s.WellFormed :=
  Nested.Everywhere.part h hs

theorem WellFormed.of_intrinsic (kind : Intrinsic) : (Ty.intrinsic kind).WellFormed :=
  Nested.everywhere_iff.mpr ⟨trivial, nofun⟩

theorem field_mem_parts {s : Shape Ty} {f : Field Ty} (h : f ∈ s.fields) :
    f.type ∈ Nested.parts (Ty.shape s) := List.mem_map_of_mem h

theorem member_mem_parts {ts : List Ty} {t : Ty} (h : t ∈ ts) :
    t ∈ Nested.parts (Ty.union ts) := h

theorem param_mem_parts {s : Signature Ty} {p : Param Ty} (h : p ∈ s.params) :
    p.type ∈ Nested.parts (Ty.function s) := List.mem_append_left _ (List.mem_map_of_mem h)

theorem result_mem_parts (s : Signature Ty) : s.result ∈ Nested.parts (Ty.function s) :=
  List.mem_append_right _ (List.mem_singleton_self _)

theorem element_mem_parts (t : Ty) : t ∈ Nested.parts (Ty.array t) := List.mem_singleton_self _

theorem argument_mem_parts (name : String) {ts : List Ty} {t : Ty} (h : t ∈ ts) :
    t ∈ Nested.parts (Ty.application name ts) := h

theorem required_of_free {s : Shape Ty} (h : Nested.Free hasOptionalField (.shape s))
    {f : Field Ty} (hf : f ∈ s.fields) : f.optional = false := by
  have hs : s.fields.any (·.optional) = false := h.here
  rw [List.any_eq_false] at hs
  simpa using hs f hf

end Ty

/-! ## Fields by name -/

namespace Shape

variable {τ : Type} {s : Shape τ} {f : Field τ} {name : String}

theorem mem_of_field? (h : s.field? name = some f) : f ∈ s.fields ∧ f.name = name := by
  unfold field? at h
  exact ⟨List.mem_of_find?_eq_some h, by simpa using List.find?_some h⟩

theorem field?_eq_none_iff : s.field? name = none ↔ ∀ f ∈ s.fields, f.name ≠ name := by
  unfold field?
  simp

theorem isSome_field?_iff : (s.field? name).isSome = true ↔ name ∈ s.fields.map (·.name) := by
  unfold field?
  rw [List.find?_isSome, List.mem_map]
  simp only [beq_iff_eq]

theorem field?_of_mem (hd : (s.fields.map (·.name)).Nodup) (hf : f ∈ s.fields) :
    s.field? f.name = some f := by
  cases hg : s.field? f.name with
  | none => exact absurd rfl (field?_eq_none_iff.mp hg f hf)
  | some g =>
    obtain ⟨hm, hn⟩ := mem_of_field? hg
    rw [List.inj_on_of_nodup_map hd hm hf hn]

theorem field?_eq_some_iff (hd : (s.fields.map (·.name)).Nodup) :
    s.field? name = some f ↔ f ∈ s.fields ∧ f.name = name := by
  constructor
  · exact mem_of_field?
  · rintro ⟨hf, rfl⟩
    exact field?_of_mem hd hf

end Shape
end ShapeTyping
