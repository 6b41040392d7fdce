import ShapeTyping.Proofs.Conformance.Budget
import ShapeTyping.Proofs.Signature.Mismatch
/-! Loosening the options takes no acceptance away. A yes rests on other yeses and never
on a no, even where the two types change sides, so that it stays one when there are
more of them. -/
namespace ShapeTyping

open Assignability (Holds verdict holds_walk_mono holds_signature_iff)

variable {o o' : Options}

namespace Options.AtMost

theorem holds_verdict (h : o.AtMost o') {s t : Ty} (hst : Holds (verdict o) s t) :
    Holds (verdict o') s t :=
  holds_walk_mono h h.maxDepth hst

theorem isCompatible (h : o.AtMost o') {c r : Signature Ty} (hcr : c.isCompatible r o = true) :
    c.isCompatible r o' = true :=
  holds_signature_iff.mpr ((holds_signature_iff.mp hcr).mono h.parameterVariance
    fun _ _ => h.holds_verdict)

theorem conforms (h : o.AtMost o') {v : Value} {t : Ty} (hv : v.conforms t o = .ok ()) :
    v.conforms t o' = .ok () :=
  Conformance.Accepts.mono h (.levels h.conformanceLimit) hv

theorem conformsToShape (h : o.AtMost o') {v : Value} {s : Shape Ty}
    (hv : v.conformsToShape s o = .ok ()) : v.conformsToShape s o' = .ok () := by
  obtain ⟨entries, rfl, hfields⟩ := Conformance.checkShape_eq_ok.mp hv
  refine Conformance.checkShape_eq_ok.mpr ⟨entries, rfl, fun f hf => ?_⟩
  refine (hfields f hf).mono h id fun w _ hw => ?_
  exact hw.mono h (.levels h.conformanceLimit)

theorem firstMismatch? (h : o.AtMost o') {relation : ResultRelation} {c r : Signature Ty}
    (hcr : Signature.firstMismatch? o relation c r = none) :
    Signature.firstMismatch? o' relation c r = none := by
  rw [Signature.firstMismatch?_eq_none_iff] at hcr ⊢
  exact hcr.mono h.parameterVariance fun _ _ => h.holds_verdict

theorem validate (h : o.AtMost o') {overloads : Overloads}
    (hv : overloads.validate o = .ok ()) : overloads.validate o' = .ok () := by
  have hall := Overloads.validateFrom_eq_ok_iff.mp hv
  exact Overloads.validateFrom_eq_ok_iff.mpr fun s hs => h.firstMismatch? (hall s hs)

/-- An overload that is served stays so, and the first that is not cannot come before
the ones that are. -/
theorem index_le (h : o.AtMost o') {overloads : Overloads} {e e' : OverloadError}
    (he : overloads.validate o = .error e) (he' : overloads.validate o' = .error e') :
    e.index ≤ e'.index := by
  obtain ⟨before, s, after, hd, hindex, hbefore, -⟩ := Overloads.validateFrom_eq_error he
  obtain ⟨before', s', after', hd', hindex', -, hs'⟩ := Overloads.validateFrom_eq_error he'
  by_contra hlt
  have hlength : before'.length < before.length := by omega
  have hat : overloads.declared[before'.length]? = some s' := by simp [hd']
  rw [hd, List.getElem?_append_left hlength] at hat
  have hserved := h.firstMismatch? (hbefore s' (List.mem_of_getElem? hat))
  rw [hserved] at hs'
  cases hs'

/-- What is assignable, compatible, conforms or is validated under some options is so
under looser ones, and where neither validates, the looser ones come as far. -/
theorem acceptance_preserved (h : o.AtMost o') :
    (∀ s t : Ty, s.isAssignable t o = true → s.isAssignable t o' = true) ∧
    (∀ c r : Signature Ty, c.isCompatible r o = true → c.isCompatible r o' = true) ∧
    (∀ (v : Value) (t : Ty), v.conforms t o = .ok () → v.conforms t o' = .ok ()) ∧
    (∀ (v : Value) (s : Shape Ty),
      v.conformsToShape s o = .ok () → v.conformsToShape s o' = .ok ()) ∧
    (∀ overloads : Overloads, overloads.validate o = .ok () → overloads.validate o' = .ok ()) ∧
    (∀ (overloads : Overloads) (e e' : OverloadError), overloads.validate o = .error e →
      overloads.validate o' = .error e' → e.index ≤ e'.index) :=
  ⟨fun _ _ => h.holds_verdict, fun _ _ => h.isCompatible, fun _ _ => h.conforms,
    fun _ _ => h.conformsToShape, fun _ => h.validate, fun _ _ _ => h.index_le⟩

/-- Of two overloads the first fails for its variance only. -/
theorem acceptance_preserved_padding :
    let strict : Options := { exactOptionalPropertyTypes := true, maxDepth := 3 }
    let loose : Options := { strictNullChecks := false, parameterVariance := .bivariant }
    let padding : Overloads := {
      declared := [⟨[⟨0, false, .intrinsic .string⟩], .intrinsic .string⟩,
        ⟨[⟨0, false, .intrinsic .boolean⟩], .intrinsic .string⟩]
      implementation :=
        ⟨[⟨0, false, .union [.intrinsic .string, .intrinsic .number]⟩], .intrinsic .string⟩ }
    ∃ e e', padding.validate strict = .error e ∧ padding.validate loose = .error e' ∧
      e.index ≤ e'.index := by
  intro strict loose padding
  have h : strict.AtMost loose := ⟨by decide, by decide, by decide, by decide⟩
  obtain ⟨-, -, -, -, -, hindex⟩ := acceptance_preserved h
  exact ⟨_, _, rfl, rfl, hindex padding _ _ rfl rfl⟩

end Options.AtMost
end ShapeTyping
