import ShapeTyping.Proofs.Assignability.Congruence
import ShapeTyping.Proofs.Signature.Arity
import ShapeTyping.Signature.Mismatch
/-! When one signature may stand where another is wanted: some number of arguments suits
both, the parameters agree at every position that both have, and the results do. It is
the same question as for the types of functions, one level further down. -/
namespace ShapeTyping.Signature

open Assignability (Holds walk verdict ParamsBelow SignatureBelow holds_signature_iff
  holds_walk_of_equal holds_walk_succ_iff walk_maxDepth)

variable {o : Options} {c r : Signature Ty}

/-- If both signatures have a parameter at an index, the types of the two are related in
the way the options ask for. -/
def ParamsAgree (o : Options) (c r : Signature Ty) (i : Nat) : Prop :=
  ∀ p q, c.params[i]? = some p → r.params[i]? = some q →
    ParamsBelow o.parameterVariance (fun s t => s.isAssignable t o = true) p.type q.type

theorem forall_paramsAgree_iff :
    (∀ i, ParamsAgree o c r i) ↔ ∀ pq ∈ c.params.zip r.params,
      ParamsBelow o.parameterVariance (Holds (verdict o)) pq.1.type pq.2.type := by
  constructor
  · intro h pq hpq
    obtain ⟨i, hi⟩ := List.mem_iff_getElem?.mp hpq
    obtain ⟨hp, hq⟩ := List.getElem?_zip_eq_some.mp hi
    exact h i pq.1 pq.2 hp hq
  · intro h i p q hp hq
    have hpq : (c.params.zip r.params)[i]? = some (p, q) :=
      List.getElem?_zip_eq_some.mpr ⟨hp, hq⟩
    exact h (p, q) (List.mem_of_getElem? hpq)

/-- The two conditions on the numbers of parameters come to one number of arguments that
both signatures take. -/
theorem isCompatible_iff (hr : Arranged r.params) :
    c.isCompatible r o = true ↔ (∃ n, c.Takes n ∧ r.Takes n) ∧ (∀ i, ParamsAgree o c r i) ∧
      c.result.isAssignable r.result o = true := by
  rw [exists_takes_iff, ← hr.forall_drop_iff, forall_paramsAgree_iff]
  constructor
  · intro h
    obtain ⟨count, params, covered, result⟩ := holds_signature_iff.mp h
    exact ⟨⟨count, covered⟩, params, result⟩
  · rintro ⟨⟨count, covered⟩, params, result⟩
    exact holds_signature_iff.mpr ⟨count, params, covered, result⟩

/-! ## Signatures as types -/

theorem isCompatible_maxDepth_iff {d : Nat} :
    c.isCompatible r { o with maxDepth := d } = true ↔
      SignatureBelow o.parameterVariance .covariant (Holds (walk o d)) c r := by
  rw [← walk_maxDepth o d d]
  exact holds_signature_iff

/-- Equal signatures need no level, as little as equal types. -/
theorem signatureBelow_of_equal {n : Nat} (hc : (Ty.function c).WellFormed)
    (h : (Ty.function c).Equal (.function r)) :
    SignatureBelow o.parameterVariance .covariant (Holds (walk o n)) c r := by
  cases Ty.equal_iff.mp h with
  | function params result =>
    have hlength : c.params.length = r.params.length := params.length_eq
    refine ⟨?_, fun pq hpq => ?_, fun q hq => ?_, holds_walk_of_equal result⟩
    · have := c.requiredCount_le
      omega
    · have halike := List.forall₂_zip params hpq
      have hwf := hc.part (Ty.param_mem_parts (List.of_mem_zip hpq).1)
      have hforth : Holds (walk o n) pq.1.type pq.2.type := holds_walk_of_equal halike.type
      have hback : Holds (walk o n) pq.2.type pq.1.type :=
        holds_walk_of_equal (halike.type.symm hwf)
      cases o.parameterVariance with
      | equivalent => exact ⟨hforth, hback⟩
      | contravariant => exact hback
      | bivariant => exact .inl hback
    · rw [hlength, List.drop_length] at hq
      cases hq

theorem isCompatible_eq_isAssignable (hc : (Ty.function c).WellFormed) (o : Options) (d : Nat) :
    c.isCompatible r { o with maxDepth := d } =
      (Ty.function c).isAssignable (.function r) { o with maxDepth := d + 1 } := by
  have hassignable :
      (Ty.function c).isAssignable (.function r) { o with maxDepth := d + 1 } = true ↔
      Holds (walk o (d + 1)) (.function c) (.function r) := by
    rw [← walk_maxDepth o (d + 1) (d + 1)]
    rfl
  rw [Bool.eq_iff_iff, isCompatible_maxDepth_iff, hassignable, holds_walk_succ_iff]
  constructor
  · exact fun h => .inr (.function h)
  · rintro (hequal | hrule)
    · exact signatureBelow_of_equal hc hequal
    · cases hrule with
      | function h => exact h

theorem wellFormed_of_ofParams (h : ofParams c.params c.result = .ok c)
    (hparts : ∀ t ∈ Nested.parts (Ty.function c), t.WellFormed) : (Ty.function c).WellFormed :=
  Nested.everywhere_iff.mpr ⟨arranged_iff.mp (.of_ofParams h), hparts⟩

/-- Compatible are the signatures that take a common number of arguments, whose
parameters agree wherever both have one, and whose results are assignable. As types of
functions they are assignable with one level more. -/
theorem isCompatible_iff_common_count (o : Options)
    (hc : ofParams c.params c.result = .ok c) (hr : ofParams r.params r.result = .ok r)
    (hparts : ∀ t ∈ Nested.parts (Ty.function c), t.WellFormed) :
    (c.isCompatible r o = true ↔ (∃ n, c.Takes n ∧ r.Takes n) ∧ (∀ i, ParamsAgree o c r i) ∧
      c.result.isAssignable r.result o = true) ∧
    ∀ d, c.isCompatible r { o with maxDepth := d } =
      (Ty.function c).isAssignable (.function r) { o with maxDepth := d + 1 } :=
  ⟨isCompatible_iff (.of_ofParams hr),
    isCompatible_eq_isAssignable (wellFormed_of_ofParams hc hparts) o⟩

/-- One argument suits both, since the second parameter of the one that is wanted is
optional. -/
theorem isCompatible_iff_common_count_toggle :
    let o : Options := { parameterVariance := .contravariant }
    let c : Signature Ty := ⟨[⟨0, false, .intrinsic .string⟩], .literal (.boolean true)⟩
    let r : Signature Ty :=
      ⟨[⟨0, false, .literal (.string "on")⟩, ⟨1, true, .intrinsic .number⟩], .intrinsic .boolean⟩
    ((∃ n, c.Takes n ∧ r.Takes n) ∧ (∀ i, ParamsAgree o c r i) ∧
      c.result.isAssignable r.result o = true) ∧
      (Ty.function c).isAssignable (.function r) { o with maxDepth := 2 } = true := by
  intro o c r
  have hparts : ∀ t ∈ Nested.parts (Ty.function c), t.WellFormed := by decide
  obtain ⟨hiff, hdepth⟩ := isCompatible_iff_common_count o (c := c) (r := r) rfl rfl hparts
  exact ⟨hiff.mp (by decide), (hdepth 1).symm.trans (by decide)⟩

end ShapeTyping.Signature
