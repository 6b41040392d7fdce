import ShapeTyping.Proofs.Conformance.Acceptance
/-! Levels and acceptance. A check that has fewer levels, or tighter options, accepts
nothing that another would not, and on a value that is lower than the levels left it
is the same check as an unlimited one. -/
namespace ShapeTyping

namespace Budget

/-- The second budget has at least as many levels as the first. -/
inductive AtMost : Budget → Budget → Prop
  | levels {n m : Nat} (h : n ≤ m) : AtMost (.levels n) (.levels m)
  | unlimited (b : Budget) : AtMost b .unlimited

theorem AtMost.next {b b' : Budget} (h : b.AtMost b') : b.next.AtMost b'.next := by
  cases h with
  | levels h => exact .levels (Nat.sub_le_sub_right h 1)
  | unlimited b => exact .unlimited b.next

theorem AtMost.isSpent {b b' : Budget} (h : b.AtMost b') (hb : b.isSpent = false) :
    b'.isSpent = false := by
  cases h with
  | levels h =>
    simp only [Budget.isSpent, beq_eq_false_iff_ne] at hb ⊢
    omega
  | unlimited b => rfl

end Budget

/-- A check of a value reads the same from both, the limit on its depth apart. -/
structure Options.ChecksLike (o o' : Options) : Prop where
  strictNullChecks : o.strictNullChecks = o'.strictNullChecks
  exactOptionalPropertyTypes : o.exactOptionalPropertyTypes = o'.exactOptionalPropertyTypes

theorem Options.ChecksLike.refl (o : Options) : o.ChecksLike o := ⟨rfl, rfl⟩

namespace Conformance

open Nested (parts)

variable {o o' : Options} {b b' : Budget} {v : Value} {t : Ty}

/-! ## A check with other levels -/

theorem Accepts.of_parts (ho : o.AtMost o') (hb : b'.isSpent = false)
    (same : ∀ u ∈ parts t, Accepts o b v u → Accepts o' b' v u)
    (next : ∀ w, ∀ u ∈ parts t, Accepts o b.next w u → Accepts o' b'.next w u)
    (h : Accepts o b v t) : Accepts o' b' v t := by
  obtain ⟨-, ⟨loose, hn⟩ | hf⟩ := accepts_iff.mp h
  · exact accepts_of_nullish hb (ho.looseNulls loose) hn
  · refine accepts_of_fits hb ?_
    cases hf with
    | intrinsic hv => exact .intrinsic hv
    | literal hv => exact .literal hv
    | union ht hv => exact .union ht (same _ ht hv)
    | shape hv =>
      refine .shape fun f hf => (hv f hf).mono ho id fun w _ hw => ?_
      exact next w f.type (Ty.field_mem_parts hf) hw
    | array hv => exact .array fun w hw => next w _ (Ty.element_mem_parts _) (hv w hw)
    | function hv => exact .function hv
    | application hv => exact .application hv

theorem items_congr {f g : Value → Except Violation Unit} {vs : List Value}
    (h : ∀ v ∈ vs, f v = g v) (i : Nat) : items f i vs = items g i vs := by
  induction vs generalizing i with
  | nil => rfl
  | cons v vs ih =>
    rw [items, items, h v (List.mem_cons_self ..),
      ih (fun w hw => h w (List.mem_cons_of_mem _ hw)) (i + 1)]

theorem checkAny_congr {ts : List Ty} (h : ∀ t ∈ ts, check o b v t = check o' b' v t) :
    checkAny o b v ts = checkAny o' b' v ts := by
  induction ts with
  | nil => rfl
  | cons t ts ih =>
    rw [checkAny, checkAny, h t (List.mem_cons_self ..),
      ih fun u hu => h u (List.mem_cons_of_mem _ hu)]

theorem checkFields_congr (ho : o.ChecksLike o') {entries : List (String × Value)}
    {fs : List (Field Ty)}
    (h : ∀ f ∈ fs, ∀ v, entries.lookup f.name = some v →
      check o b v f.type = check o' b' v f.type) :
    checkFields o b entries fs = checkFields o' b' entries fs := by
  induction fs with
  | nil => rfl
  | cons f fs ih =>
    rw [checkFields, checkFields, ih fun g hg => h g (List.mem_cons_of_mem _ hg)]
    have hf := h f (List.mem_cons_self ..)
    cases hv : entries.lookup f.name with
    | none => rfl
    | some v => simp only [hf v hv, ho.exactOptionalPropertyTypes]

/-- The outcome, whatever it is, depends on the levels left through the members of
a union, and one level further down through the parts of the value. -/
theorem check_congr (ho : o.ChecksLike o') (hb : b.isSpent = b'.isSpent)
    (same : ∀ u ∈ parts t, check o b v u = check o' b' v u)
    (next : ∀ w ∈ parts v, ∀ u ∈ parts t, check o b.next w u = check o' b'.next w u) :
    check o b v t = check o' b' v t := by
  rw [check.eq_def, check.eq_def o' b', hb, ho.strictNullChecks]
  split
  · rfl
  split
  · rfl
  cases t with
  | intrinsic kind => rfl
  | literal value => rfl
  | union ts =>
    have hany : checkAny o b v ts = checkAny o' b' v ts := checkAny_congr same
    simp only [hany]
  | shape s =>
    cases v with
    | object entries =>
      exact checkFields_congr ho fun f hf w hw =>
        next w (Value.entry_mem_parts hw) f.type (Ty.field_mem_parts hf)
    | _ => rfl
  | array t =>
    cases v with
    | array vs => exact items_congr (fun w hw => next w hw t (Ty.element_mem_parts t)) 0
    | _ => rfl
  | function s => rfl
  | application name ts => rfl

/-- The options themselves matter to a check in two ways only. -/
theorem check_options (ho : o.ChecksLike o') : check o b v t = check o' b v t := by
  induction t using Nested.induction_on generalizing b v with
  | h t ih => exact check_congr ho rfl (fun u hu => ih u hu) fun w _ u hu => ih u hu

theorem checkShape_options (ho : o.ChecksLike o') {s : Shape Ty} :
    checkShape o b v s = checkShape o' b v s := by
  cases v with
  | object entries => exact checkFields_congr ho fun f _ w _ => check_options ho
  | _ => rfl

/-! ## More levels -/

theorem Accepts.mono (ho : o.AtMost o') (hb : b.AtMost b') (h : Accepts o b v t) :
    Accepts o' b' v t := by
  induction t using Nested.induction_on generalizing b b' v with
  | h t ih =>
    refine h.of_parts ho (hb.isSpent h.isSpent) (fun u hu hv => ?_) fun w u hu hw => ?_
    · exact ih u hu hb hv
    · exact ih u hu hb.next hw

theorem Accepts.unlimited (h : Accepts o b v t) : Accepts o .unlimited v t :=
  h.mono (.refl o) (.unlimited b)

/-- Levels do not matter to a value that is low enough. -/
theorem check_levels {n : Nat} (h : v.height < n) :
    check o (.levels n) v t = check o .unlimited v t := by
  induction t using Nested.induction_on generalizing v n with
  | h t ih =>
    have hn : (Budget.levels n).isSpent = Budget.unlimited.isSpent := by
      simp only [Budget.isSpent, beq_eq_false_iff_ne]
      omega
    refine check_congr (.refl o) hn (fun u hu => ih u hu h) fun w hw u hu => ih u hu ?_
    have := Value.height_part_lt hw
    omega

theorem accepts_levels_iff {n : Nat} (h : v.height < n) :
    Accepts o (.levels n) v t ↔ Accepts o .unlimited v t := by
  unfold Accepts
  rw [check_levels h]

end Conformance
end ShapeTyping
