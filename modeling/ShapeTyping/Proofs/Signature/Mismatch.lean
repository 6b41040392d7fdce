import ShapeTyping.Proofs.Assignability.Rule
import ShapeTyping.Signature.Overload
/-! Reports of mismatches. No mismatch is found just where the signatures are related,
and a report on overloads is about the first of them that the implementation does
not serve. -/
namespace ShapeTyping

open Assignability (Holds verdict ParamsBelow ResultsBelow SignatureBelow
  holds_paramsRelated_iff holds_resultsRelated_iff)

namespace Signature

variable {o : Options} {relation : ResultRelation} {c r : Signature Ty}

theorem countMismatch?_eq_none_iff :
    countMismatch? c r = none ↔ c.requiredCount ≤ r.params.length := by
  unfold countMismatch?
  split <;> simp_all

theorem paramMismatch?_eq_none_iff {index : Nat} {p q : Param Ty} :
    paramMismatch? o index p q = none ↔
      ParamsBelow o.parameterVariance (Holds (verdict o)) p.type q.type := by
  rw [← holds_paramsRelated_iff]
  unfold paramMismatch?
  split <;> simp_all

theorem coverMismatch?_eq_none_iff :
    coverMismatch? c r = none ↔ ∀ q ∈ r.params.drop c.params.length, q.optional = true := by
  simp [coverMismatch?]

theorem resultMismatch?_eq_none_iff :
    resultMismatch? o relation c r = none ↔
      ResultsBelow relation (Holds (verdict o)) c.result r.result := by
  rw [← holds_resultsRelated_iff]
  unfold resultMismatch?
  split <;> simp_all

theorem paramConditions_met_iff {index : Nat} {ps qs : List (Param Ty)} :
    (∀ condition ∈ paramConditions o index ps qs, condition () = none) ↔
      ∀ pq ∈ ps.zip qs,
        ParamsBelow o.parameterVariance (Holds (verdict o)) pq.1.type pq.2.type := by
  induction ps generalizing index qs with
  | nil => simp [paramConditions]
  | cons p ps ih =>
    cases qs with
    | nil => simp [paramConditions]
    | cons q qs =>
      rw [paramConditions, List.forall_mem_cons, ih, List.zip_cons_cons, List.forall_mem_cons,
        paramMismatch?_eq_none_iff]

theorem firstMismatch?_eq_none_iff :
    firstMismatch? o relation c r = none ↔
      SignatureBelow o.parameterVariance relation (Holds (verdict o)) c r := by
  rw [firstMismatch?, Report.kept?_run_first, List.findSome?_eq_none_iff, conditions]
  simp only [List.forall_mem_append, List.forall_mem_cons, countMismatch?_eq_none_iff,
    paramConditions_met_iff, coverMismatch?_eq_none_iff, resultMismatch?_eq_none_iff]
  constructor
  · rintro ⟨⟨hcount, hparams⟩, hcovered, hresult, -⟩
    exact ⟨hcount, hparams, hcovered, hresult⟩
  · rintro ⟨hcount, hparams, hcovered, hresult⟩
    exact ⟨⟨hcount, hparams⟩, hcovered, hresult, nofun⟩

end Signature

namespace Overloads

variable {o : Options} {implementation : Signature Ty}

/-- The results are never blamed for want of a mismatch that was kept. -/
theorem refusal?_eq (o : Options) (implementation s : Signature Ty) :
    refusal? o implementation s = Signature.firstMismatch? o .either implementation s := by
  have hpass := Report.fst_run (.first none) (Signature.conditions o .either implementation s)
  rw [← Report.kept?_run_first] at hpass
  have hkept := @Report.exists_taken_of_run (Signature.conditions o .either implementation s)
  rw [refusal?, Signature.firstMismatch?]
  split
  next report hrun =>
    rw [hrun] at hpass ⊢
    exact (Option.isNone_iff_eq_none.mp hpass.symm).symm
  next report hrun =>
    rw [hrun] at hkept ⊢
    obtain ⟨m, hm⟩ := hkept rfl
    rw [hm, Option.getD_some, ← hm, Report.fst_take]

theorem validateFrom_eq_ok_iff {index : Nat} {declared : List (Signature Ty)} :
    validateFrom o implementation index declared = .ok () ↔
      ∀ s ∈ declared, Signature.firstMismatch? o .either implementation s = none := by
  induction declared generalizing index with
  | nil => simp [validateFrom]
  | cons s declared ih =>
    rw [validateFrom, refusal?_eq, List.forall_mem_cons]
    cases Signature.firstMismatch? o .either implementation s with
    | none => simp [ih]
    | some reason => simp

theorem validateFrom_eq_error {index : Nat} {declared : List (Signature Ty)} {e : OverloadError}
    (h : validateFrom o implementation index declared = .error e) :
    ∃ before s after, declared = before ++ s :: after ∧ e.index = index + before.length ∧
      (∀ r ∈ before, Signature.firstMismatch? o .either implementation r = none) ∧
      Signature.firstMismatch? o .either implementation s = some e.reason := by
  induction declared generalizing index with
  | nil => cases h
  | cons s declared ih =>
    rw [validateFrom, refusal?_eq] at h
    cases hs : Signature.firstMismatch? o .either implementation s with
    | some reason =>
      rw [hs] at h
      cases h
      exact ⟨[], s, declared, rfl, rfl, nofun, hs⟩
    | none =>
      rw [hs] at h
      obtain ⟨before, t, after, rfl, hindex, hbefore, ht⟩ := ih h
      refine ⟨s :: before, t, after, rfl, ?_, List.forall_mem_cons.mpr ⟨hs, hbefore⟩, ht⟩
      rw [hindex, List.length_cons]
      omega

end Overloads
end ShapeTyping
