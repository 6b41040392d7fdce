import ShapeTyping.Proofs.Assignability.Related
import ShapeTyping.Proofs.Conformance.Acceptance
/-! Assignability is sound for conformance: a value of a type is a value of every
type that it is assignable to. This needs that the source says what it is (no
`any`), that the target asks for what it has (no optional fields), and that no
function is involved, since of a function only the number of its parameters shows. -/
namespace ShapeTyping

/-- The parts of a type that a check of a value goes into. What a function takes and gives
and the arguments of a named type do not show in a value. -/
def Ty.visible : Ty → List Ty
  | .shape s => s.fields.map (·.type)
  | .union members => members
  | .array element => [element]
  | .intrinsic _ | .literal _ | .function _ | .application _ _ => []

theorem Ty.mem_cons_parts {t u : Ty} (h : u ∈ t :: t.visible) : u ∈ t :: Nested.parts t := by
  cases t with
  | shape s => exact h
  | union members => exact h
  | array element => exact h
  | _ =>
    rw [List.mem_singleton.mp h]
    exact List.mem_cons_self ..

namespace Conformance

open Nested (Free)
open Assignability (Rule Related Serves)

/-- Every value of the one type is one of the other, with any number of levels
left. -/
def Carries (o : Options) (s t : Ty) : Prop :=
  s.WellFormed → Free Ty.isAny s → Free Ty.hasOptionalField t →
    ∀ b v, Free Value.isFunction v → Accepts o b v s → Accepts o b v t

variable {o : Options} {b : Budget} {v : Value}

theorem hasKind_widened {value : Literal} (h : v.isLiteral value = true) :
    v.hasKind value.widened = true := by
  cases v <;> cases value <;> simp [Value.isLiteral] at h <;> rfl

theorem isNullish_of_hasKind {kind : Intrinsic} (hk : kind = .null ∨ kind = .undefined)
    (h : v.hasKind kind = true) : v.isNullish = true := by
  rcases hk with rfl | rfl <;> cases v <;> first | rfl | cases h

/-- The target's field is required, so the source has it, required as well. -/
theorem fieldAccepts_of_serves {below : Ty → Ty → Prop} {a : Shape Ty}
    {entries : List (String × Value)} {g : Field Ty} (required : g.optional = false)
    (hv : ∀ f ∈ a.fields, FieldAccepts o b f (entries.lookup f.name))
    (hbelow : ∀ f ∈ a.fields, below f.type g.type → ∀ w, entries.lookup g.name = some w →
      Accepts o b w f.type → Accepts o b w g.type)
    (h : Serves below g (a.field? g.name)) : FieldAccepts o b g (entries.lookup g.name) := by
  cases hf : a.field? g.name with
  | none =>
    rw [hf] at h
    cases h with
    | absent optional => rw [required] at optional; cases optional
  | some f =>
    rw [hf] at h
    obtain ⟨hfm, hfn⟩ := Shape.mem_of_field? hf
    cases h with
    | present optional type =>
      have hfield := hv f hfm
      rw [hfn] at hfield
      exact hfield.mono (.refl o) optional (hbelow f hfm type)

/-- One rule at a time: what the source accepts the target accepts, if this goes for the
parts that the rule relates. Of a function that asks for all its parameters the number is
known, so that the target takes no fewer. -/
theorem Accepts.of_rule {below : Ty → Ty → Prop} {s t : Ty} (h : Rule o below s t)
    (hany : s.isAny = false) (hopt : t.hasOptionalField = false)
    (hcount : ∀ c, s = .function c → v.isFunction = true → c.params.length ≤ c.requiredCount)
    (hparts : ∀ s' ∈ s :: s.visible, ∀ t' ∈ t :: t.visible, below s' t' →
      ∀ b', ∀ w ∈ v :: Nested.parts v, Accepts o b' w s' → Accepts o b' w t')
    (hv : Accepts o b v s) : Accepts o b v t := by
  cases h with
  | top s hk =>
    refine accepts_of_fits hv.isSpent (.intrinsic ?_)
    rcases hk with rfl | rfl <;> cases v <;> rfl
  | any t => cases hany
  | never t =>
    refine hv.bind fun hf => ?_
    cases hf with
    | intrinsic h => cases v <;> cases h
  | nullish loose hk t =>
    refine hv.bind fun hf => ?_
    cases hf with
    | intrinsic h => exact accepts_of_nullish hv.isSpent loose (isNullish_of_hasKind hk h)
  | void =>
    refine hv.imp fun hf => ?_
    cases hf with
    | intrinsic h => cases v <;> first | cases h; done | exact .intrinsic rfl
  | unionLeft members =>
    refine hv.bind fun hf => ?_
    cases hf with
    | union hm h =>
      exact hparts _ (List.mem_cons_of_mem _ hm) _ (List.mem_cons_self ..) (members _ hm) b v
        (List.mem_cons_self ..) h
  | unionRight hsu ht hst =>
    have h := hparts _ (List.mem_cons_self ..) _ (List.mem_cons_of_mem _ ht) hst b v
      (List.mem_cons_self ..) hv
    exact accepts_of_fits hv.isSpent (.union ht h)
  | literal value =>
    refine hv.imp fun hf => ?_
    cases hf with
    | literal h => exact .intrinsic (hasKind_widened h)
  | shape fields =>
    refine hv.imp fun hf => ?_
    cases hf with
    | shape h =>
      refine .shape fun g hg => fieldAccepts_of_serves ?_ h (fun f hf hfg w hw => ?_) (fields g hg)
      · simpa using List.any_eq_false.mp hopt g hg
      · exact hparts _ (List.mem_cons_of_mem _ (List.mem_map_of_mem hf)) _
          (List.mem_cons_of_mem _ (List.mem_map_of_mem hg)) hfg _ w
          (List.mem_cons_of_mem _ (Value.entry_mem_parts hw))
  | @function c r hcr =>
    refine hv.imp fun hf => ?_
    cases hf with
    | function h =>
      have hall := hcount c rfl rfl
      have hasked := hcr.count
      exact .function (by omega)
  | array hst =>
    refine hv.imp fun hf => ?_
    cases hf with
    | array h =>
      exact .array fun w hw => hparts _ (List.mem_cons_of_mem _ (List.mem_singleton_self _)) _
        (List.mem_cons_of_mem _ (List.mem_singleton_self _)) hst _ w
        (List.mem_cons_of_mem _ (Value.item_mem_parts hw)) (h w hw)
  | application name _ =>
    refine hv.imp fun hf => ?_
    cases hf with
    | application h => exact .application h

theorem carries_of_rule (s t : Ty) (h : Rule o (Carries o) s t) : Carries o s t := by
  intro hs hany hopt b v hfun hv
  refine hv.of_rule h hany.here hopt.here (fun c _ hv => ?_) fun s' hs' t' ht' hst b' w hw => ?_
  · rw [hfun.here] at hv
    cases hv
  · have hsp := Ty.mem_cons_parts hs'
    exact hst (hs.of_mem hsp) (hany.of_mem hsp) (hopt.of_mem (Ty.mem_cons_parts ht')) b' w
      (hfun.of_mem hw)

theorem carries_of_related {s t : Ty} (h : Related o s t) : Carries o s t := by
  refine h.induction (fun s t heq => ?_) carries_of_rule
  intro hs _ _ b v _ hv
  exact hv.of_equal hs heq

end Conformance

/-- A value that conforms to a type conforms to every type that this one is
assignable to. -/
theorem Value.conforms_of_isAssignable (o : Options) {s t : Ty} (hs : s.WellFormed)
    (hany : Nested.Free Ty.isAny s) (hopt : Nested.Free Ty.hasOptionalField t) {v : Value}
    (hfun : Nested.Free Value.isFunction v) (hst : s.isAssignable t o = true)
    (hv : v.conforms s o = .ok ()) : v.conforms t o = .ok () :=
  Conformance.carries_of_related (Ty.related_of_isAssignable hst) hs hany hopt _ v hfun hv

/-- The source has an optional field that the target lacks, and a literal that
widens into a member of a union. -/
theorem Value.conforms_of_isAssignable_circle :
    (Value.object [("kind", .string "circle"), ("sizes", .array [.bool true, .undefined])]).conforms
      (.shape ⟨[⟨"kind", false, false, .union [.intrinsic .number, .intrinsic .string]⟩]⟩) {} =
      .ok () :=
  Value.conforms_of_isAssignable {}
    (s := .shape ⟨[⟨"kind", false, true, .literal (.string "circle")⟩,
      ⟨"sizes", true, false, .array (.union [.literal (.boolean true), .intrinsic .undefined])⟩]⟩)
    (by decide) (by decide) (by decide) (by decide) (by decide) rfl

end ShapeTyping
