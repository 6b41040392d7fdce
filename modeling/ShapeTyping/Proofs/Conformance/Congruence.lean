import ShapeTyping.Proofs.Conformance.Acceptance
import ShapeTyping.Proofs.Value.Same
/-! Equal values belong to the same types, with any number of levels left. -/
namespace ShapeTyping.Conformance

open Value (Alike)

variable {o : Options} {b : Budget} {v w : Value} {t : Ty} {eq : Value → Value → Prop}

/-! ## What shows of a value itself -/

theorem isNullish_eq (h : Alike eq v w) : v.isNullish = w.isNullish := by
  cases h <;> rfl

theorem hasKind_eq (h : Alike eq v w) (kind : Intrinsic) : v.hasKind kind = w.hasKind kind := by
  cases h <;> cases kind <;> rfl

theorem isOpaque_eq (h : Alike eq v w) : v.isOpaque = w.isOpaque := by
  cases h <;> rfl

theorem isLiteral_of_alike (h : Alike eq v w) {value : Literal} (hv : v.isLiteral value = true) :
    w.isLiteral value = true := by
  cases h with
  | @number x y hxy =>
    cases value with
    | number z =>
      rw [Number.same_comm] at hxy
      exact Number.same_trans hxy hv
    | _ => cases hv
  | array _ => cases hv
  | object _ _ => cases hv
  | _ => exact hv

/-! ## What shows of its parts -/

theorem FieldAccepts.of_rel {f : Field Ty} {v? w? : Option Value}
    (hrel : Option.Rel Value.Equal v? w?)
    (ht : ∀ v w, v? = some v → v.Equal w → Accepts o b v f.type → Accepts o b w f.type)
    (h : FieldAccepts o b f v?) : FieldAccepts o b f w? := by
  cases h with
  | absent optional =>
    cases hrel
    exact .absent optional
  | undefined optional loose =>
    cases hrel with
    | some hw =>
      cases Value.equal_iff.mp hw
      exact .undefined optional loose
  | present h =>
    cases hrel with
    | some hw => exact .present (ht _ _ rfl hw h)

theorem Fits.of_equal_value (hv : v.WellFormed) (hvw : v.Equal w)
    (same : ∀ u ∈ Nested.parts t, Accepts o b v u → Accepts o b w u)
    (next : ∀ x ∈ Nested.parts v, ∀ y, x.Equal y → ∀ u ∈ Nested.parts t,
      Accepts o b.next x u → Accepts o b.next y u)
    (h : Fits o b v t) : Fits o b w t := by
  have halike := Value.equal_iff.mp hvw
  cases h with
  | intrinsic h => exact .intrinsic (hasKind_eq halike _ ▸ h)
  | literal h => exact .literal (isLiteral_of_alike halike h)
  | union ht h => exact .union ht (same _ ht h)
  | shape h =>
    cases w with
    | object ys =>
      refine .shape fun f hf => (h f hf).of_rel (halike.lookup hv.proper f.name) ?_
      intro x y hx hxy
      exact next x (Value.entry_mem_parts hx) y hxy f.type (Ty.field_mem_parts hf)
    | _ => cases halike
  | array h =>
    cases halike with
    | array items =>
      refine .array fun y hy => ?_
      obtain ⟨x, hx, hxy⟩ := Ty.forall₂_exists items.flip hy
      exact next x (Value.item_mem_parts hx) y hxy _ (Ty.element_mem_parts _) (h x hx)
  | function h =>
    cases halike
    exact .function h
  | application h => exact .application (isOpaque_eq halike ▸ h)

theorem Accepts.of_equal_value (hv : v.WellFormed) (hvw : v.Equal w) (h : Accepts o b v t) :
    Accepts o b w t := by
  induction t using Nested.induction_on generalizing b v w with
  | h t ih =>
    obtain ⟨hb, ⟨loose, hn⟩ | hfits⟩ := accepts_iff.mp h
    · exact accepts_of_nullish hb loose (isNullish_eq (Value.equal_iff.mp hvw) ▸ hn)
    · refine accepts_of_fits hb (hfits.of_equal_value hv hvw ?_ ?_)
      · exact fun u hu hu' => ih u hu hv hvw hu'
      · exact fun x hx y hxy u hu hxu => ih u hu (hv.part hx) hxy hxu

end ShapeTyping.Conformance
