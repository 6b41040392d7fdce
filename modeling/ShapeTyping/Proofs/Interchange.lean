import ShapeTyping.Proofs.Assignability.Congruence
import ShapeTyping.Proofs.Conformance.Congruence
import ShapeTyping.Signature.Mismatch
/-! Equal types, signatures and values may stand for each other. Equality does not see
the order of fields and keys, so nothing else does. -/
namespace ShapeTyping

/-- An equality of trees, an equivalence but for the NaN that equals nothing. -/
structure EquivalenceButNaN {α : Type} [Nested α] (wellFormed : α → Prop) (same : α → α → Bool)
    (isNaN : α → Bool) : Prop where
  symm : ∀ a b, wellFormed a → wellFormed b → same a b = same b a
  trans : ∀ a b c, wellFormed a → wellFormed b → wellFormed c →
    same a b = true → same b c = true → same a c = true
  refl_iff : ∀ a, wellFormed a → (same a a = true ↔ Nested.Free isNaN a)

theorem Ty.same_equivalence : EquivalenceButNaN Ty.WellFormed Ty.same Ty.isNaN where
  symm _ _ hs ht := Bool.eq_iff_iff.mpr ⟨Ty.Equal.symm hs, Ty.Equal.symm ht⟩
  trans _ _ _ _ _ _ := Ty.Equal.trans
  refl_iff _ ht := Ty.equal_self_iff ht

theorem Value.same_equivalence : EquivalenceButNaN Value.WellFormed Value.same Value.isNaN where
  symm _ _ hv hw := Bool.eq_iff_iff.mpr ⟨Value.Equal.symm hv, Value.Equal.symm hw⟩
  trans _ _ _ _ _ _ := Value.Equal.trans
  refl_iff _ hv := Value.equal_self_iff hv

section
open Assignability (Holds Transfers verdict walk_transfers holds_signature_iff)

variable {o : Options} {s s' t t' : Ty}

theorem Ty.isAssignable_of_equal (hs : s.WellFormed) (ht : t.WellFormed) (hss : s.Equal s')
    (htt : t.Equal t') (h : s.isAssignable t o = true) : s'.isAssignable t' o = true := by
  have hleft : Holds (verdict o) s' t := (walk_transfers h).left s' hs hss
  exact (walk_transfers hleft).right t' ht htt

theorem Value.conforms_of_equal {v v' : Value} (hv : v.WellFormed) (ht : t.WellFormed)
    (hvv : v.Equal v') (htt : t.Equal t') (h : v.conforms t o = .ok ()) :
    v'.conforms t' o = .ok () := by
  have hvalue : Conformance.Accepts o (.levels o.conformanceLimit) v' t :=
    Conformance.Accepts.of_equal_value hv hvv h
  exact hvalue.of_equal ht htt

theorem Signature.isCompatible_of_equal {c c' r r' : Signature Ty}
    (hc : (Ty.function c).WellFormed) (hr : (Ty.function r).WellFormed)
    (hcc : (Ty.function c).Equal (.function c')) (hrr : (Ty.function r).Equal (.function r'))
    (h : c.isCompatible r o = true) : c'.isCompatible r' o = true := by
  have transfer : ∀ s t, Holds (verdict o) s t → Transfers (Holds (verdict o)) s t :=
    fun _ _ => walk_transfers
  have hbelow := holds_signature_iff.mp h
  cases Ty.equal_iff.mp hcc with
  | function params result =>
    have hleft := Transfers.signature_left hc params result
      (hbelow.mono (Nat.le_refl _) transfer)
    cases Ty.equal_iff.mp hrr with
    | function params' result' =>
      exact holds_signature_iff.mpr (Transfers.signature_right hr params' result'
        (hleft.mono (Nat.le_refl _) transfer))

end

/-- Structural equality is an equivalence but for NaN and is blind to order, and what
is equal is assignable, compatible and conforms alike. -/
theorem equal_interchangeable (o : Options) :
    EquivalenceButNaN Ty.WellFormed Ty.same Ty.isNaN ∧
    EquivalenceButNaN Value.WellFormed Value.same Value.isNaN ∧
    (∀ fs gs : List (Field Ty), fs.Perm gs →
      ∀ t, (Ty.shape ⟨fs⟩).same t = (Ty.shape ⟨gs⟩).same t) ∧
    (∀ xs ys : List (String × Value), xs.Perm ys →
      ∀ v, (Value.object xs).same v = (Value.object ys).same v) ∧
    (∀ s s' t t' : Ty, s.WellFormed → s'.WellFormed → t.WellFormed → t'.WellFormed →
      s.same s' = true → t.same t' = true → s.isAssignable t o = s'.isAssignable t' o) ∧
    (∀ (v v' : Value) (t t' : Ty), v.WellFormed → v'.WellFormed → t.WellFormed → t'.WellFormed →
      v.same v' = true → t.same t' = true → (v.conforms t o).isOk = (v'.conforms t' o).isOk) ∧
    (∀ c c' r r' : Signature Ty, (Ty.function c).WellFormed → (Ty.function c').WellFormed →
      (Ty.function r).WellFormed → (Ty.function r').WellFormed →
      (Ty.function c).same (.function c') = true → (Ty.function r).same (.function r') = true →
      c.isCompatible r o = c'.isCompatible r' o) := by
  refine ⟨Ty.same_equivalence, Value.same_equivalence, fun _ _ => Ty.same_shape_perm,
    fun _ _ => Value.same_object_perm, ?_, ?_, ?_⟩
  · intro s s' t t' hs hs' ht ht' hss htt
    rw [Bool.eq_iff_iff]
    constructor
    · exact Ty.isAssignable_of_equal hs ht hss htt
    · exact Ty.isAssignable_of_equal hs' ht' (Ty.Equal.symm hs hss) (Ty.Equal.symm ht htt)
  · intro v v' t t' hv hv' ht ht' hvv htt
    rw [Bool.eq_iff_iff, Outcome.isOk_iff, Outcome.isOk_iff]
    constructor
    · exact Value.conforms_of_equal hv ht hvv htt
    · exact Value.conforms_of_equal hv' ht' (Value.Equal.symm hv hvv) (Ty.Equal.symm ht htt)
  · intro c c' r r' hc hc' hr hr' hcc hrr
    rw [Bool.eq_iff_iff]
    constructor
    · exact Signature.isCompatible_of_equal hc hr hcc hrr
    · exact Signature.isCompatible_of_equal hc' hr' (Ty.Equal.symm hc hcc) (Ty.Equal.symm hr hrr)

/-- The fields of two points in another order, and the two zeros. -/
theorem equal_interchangeable_point :
    let p : Ty := .shape ⟨[⟨"x", false, false, .literal (.number (.zero false))⟩,
      ⟨"y", true, false, .intrinsic .number⟩]⟩
    let q : Ty := .shape ⟨[⟨"y", true, false, .intrinsic .number⟩,
      ⟨"x", false, false, .literal (.number (.zero true))⟩]⟩
    let t : Ty := .shape ⟨[⟨"x", false, true, .intrinsic .number⟩]⟩
    p.same q = true ∧ p.isAssignable t {} = q.isAssignable t {} := by
  intro p q t
  obtain ⟨-, -, -, -, hassignable, -⟩ := equal_interchangeable {}
  have hpq : p.same q = true := by decide
  exact ⟨hpq, hassignable p q t t (by decide) (by decide) (by decide) (by decide) hpq (by decide)⟩

end ShapeTyping
