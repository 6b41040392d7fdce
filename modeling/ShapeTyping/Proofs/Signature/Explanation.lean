import ShapeTyping.Proofs.Signature.Compatibility
import ShapeTyping.Proofs.Signature.Mismatch
/-! Explanations agree with decisions. What is said of two signatures that do not go
together is the first condition not met, and what is said of overloads is that of the
first one not served. -/
namespace ShapeTyping

open Assignability (Holds verdict ParamsBelow ResultsBelow SignatureBelow holds_signature_iff)

namespace Signature

/-- The first condition that `c` does not meet in the place of `r`, and what is said of
it. The conditions that come before it are met. -/
inductive FirstMismatch (o : Options) (relation : ResultRelation) (c r : Signature Ty) :
    Mismatch → Prop
  | count (h : r.params.length < c.requiredCount) :
      FirstMismatch o relation c r (.tooManyParameters c.requiredCount r.params.length)
  | param (count : c.requiredCount ≤ r.params.length) {i : Nat} {p q : Param Ty}
      (before : ∀ j < i, ParamsAgree o c r j) (hp : c.params[i]? = some p)
      (hq : r.params[i]? = some q)
      (h : ¬ ParamsBelow o.parameterVariance (fun s t => s.isAssignable t o = true) p.type q.type) :
      FirstMismatch o relation c r (.parameterType i p.type q.type)
  | cover (count : c.requiredCount ≤ r.params.length) (params : ∀ i, ParamsAgree o c r i)
      {q : Param Ty} (hq : r.params[c.params.length]? = some q) (h : q.optional = false) :
      FirstMismatch o relation c r (.uncoveredParameter c.params.length)
  | result (count : c.requiredCount ≤ r.params.length) (params : ∀ i, ParamsAgree o c r i)
      (cover : ∀ q ∈ r.params.drop c.params.length, q.optional = true)
      (h : ¬ ResultsBelow relation (fun s t => s.isAssignable t o = true) c.result r.result) :
      FirstMismatch o relation c r (.returnType c.result r.result)

variable {o : Options} {relation : ResultRelation} {c r : Signature Ty} {m : Mismatch}

/-! ## One condition -/

theorem countMismatch?_eq_some_iff : countMismatch? c r = some m ↔
    r.params.length < c.requiredCount ∧
      m = .tooManyParameters c.requiredCount r.params.length := by
  unfold countMismatch?
  split
  next h => simp [Nat.not_lt.mpr h]
  next h => simp [Nat.not_le.mp h, eq_comm]

theorem paramMismatch?_eq_some_iff {i : Nat} {p q : Param Ty} : paramMismatch? o i p q = some m ↔
    ¬ ParamsBelow o.parameterVariance (Holds (verdict o)) p.type q.type ∧
      m = .parameterType i p.type q.type := by
  have hnone := @paramMismatch?_eq_none_iff o i p q
  rw [← hnone]
  unfold paramMismatch?
  split <;> simp [eq_comm]

theorem coverMismatch?_eq_some_iff (hr : Arranged r.params) : coverMismatch? c r = some m ↔
    ∃ q, r.params[c.params.length]? = some q ∧ q.optional = false ∧
      m = .uncoveredParameter c.params.length := by
  rw [coverMismatch?, hr.find?_drop, Option.map_eq_some_iff]
  refine exists_congr fun q => ?_
  rw [Option.filter_eq_some_iff, and_assoc, Bool.not_eq_true']
  refine and_congr_right fun hq => ?_
  rw [hr.position _ q hq]
  exact and_congr_right fun _ => eq_comm

theorem resultMismatch?_eq_some_iff : resultMismatch? o relation c r = some m ↔
    ¬ ResultsBelow relation (Holds (verdict o)) c.result r.result ∧
      m = .returnType c.result r.result := by
  rw [← resultMismatch?_eq_none_iff]
  unfold resultMismatch?
  split <;> simp [eq_comm]

/-- The parameters are gone through from the left, so that a mismatch is at the first
index where the types are not related. -/
theorem paramConditions_eq_some_iff {index : Nat} {ps qs : List (Param Ty)} :
    (paramConditions o index ps qs).findSome? (fun condition => condition ()) = some m ↔
      ∃ (i : Nat) (p q : Param Ty), ps[i]? = some p ∧ qs[i]? = some q ∧
        (∀ j < i, ∀ p' q', ps[j]? = some p' → qs[j]? = some q' →
          ParamsBelow o.parameterVariance (Holds (verdict o)) p'.type q'.type) ∧
        paramMismatch? o (index + i) p q = some m := by
  induction ps generalizing index qs with
  | nil => simp [paramConditions]
  | cons p ps ih =>
    cases qs with
    | nil => simp [paramConditions]
    | cons q qs =>
      rw [paramConditions, List.findSome?_cons]
      cases hm : paramMismatch? o index p q with
      | some m' =>
        constructor
        · rintro ⟨⟩
          exact ⟨0, p, q, rfl, rfl, fun j hj => absurd hj (Nat.not_lt_zero j), hm⟩
        · rintro ⟨i, p', q', hp, hq, hbefore, hm'⟩
          cases i with
          | zero =>
            cases hp
            cases hq
            exact hm.symm.trans hm'
          | succ i =>
            have hagree := hbefore 0 (by omega) p q rfl rfl
            exact absurd hagree (paramMismatch?_eq_some_iff.mp hm).1
      | none =>
        have hagree := paramMismatch?_eq_none_iff.mp hm
        refine ih.trans ⟨?_, ?_⟩
        · rintro ⟨i, p', q', hp, hq, hbefore, hm'⟩
          refine ⟨i + 1, p', q', hp, hq, fun j hj p'' q'' hp'' hq'' => ?_, ?_⟩
          · cases j with
            | zero =>
              cases hp''
              cases hq''
              exact hagree
            | succ j => exact hbefore j (by omega) p'' q'' hp'' hq''
          · rwa [Nat.add_right_comm, Nat.add_assoc] at hm'
        · rintro ⟨i, p', q', hp, hq, hbefore, hm'⟩
          cases i with
          | zero =>
            cases hp
            cases hq
            cases hm.symm.trans hm'
          | succ i =>
            refine ⟨i, p', q', hp, hq, fun j hj => hbefore (j + 1) (by omega), ?_⟩
            rwa [Nat.add_right_comm, Nat.add_assoc]

/-! ## All conditions -/

theorem firstMismatch?_eq (o : Options) (relation : ResultRelation) (c r : Signature Ty) :
    firstMismatch? o relation c r = (countMismatch? c r).or
      (((paramConditions o 0 c.params r.params).findSome? fun condition => condition ()).or
        ((coverMismatch? c r).or (resultMismatch? o relation c r))) := by
  rw [firstMismatch?, Report.kept?_run_first, conditions]
  simp only [List.findSome?_append, List.findSome?_cons, List.findSome?_nil, List.cons_append]
  cases countMismatch? c r <;> cases coverMismatch? c r <;>
    cases resultMismatch? o relation c r <;> simp

theorem paramConditions_eq_none_iff :
    (paramConditions o 0 c.params r.params).findSome? (fun condition => condition ()) = none ↔
      ∀ i, ParamsAgree o c r i := by
  rw [List.findSome?_eq_none_iff, paramConditions_met_iff, forall_paramsAgree_iff]

theorem firstMismatch?_eq_some_iff (hr : Arranged r.params) :
    firstMismatch? o relation c r = some m ↔ FirstMismatch o relation c r m := by
  rw [firstMismatch?_eq, Option.or_eq_some_iff, Option.or_eq_some_iff, Option.or_eq_some_iff,
    countMismatch?_eq_some_iff, countMismatch?_eq_none_iff, paramConditions_eq_some_iff,
    paramConditions_eq_none_iff, coverMismatch?_eq_some_iff hr, coverMismatch?_eq_none_iff,
    resultMismatch?_eq_some_iff]
  constructor
  · rintro (⟨h, rfl⟩ | ⟨count, ⟨i, p, q, hp, hq, before, hm⟩ | ⟨params, hrest⟩⟩)
    · exact .count h
    · obtain ⟨h, rfl⟩ := paramMismatch?_eq_some_iff.mp hm
      rw [Nat.zero_add]
      exact .param count before hp hq h
    · rcases hrest with ⟨q, hq, h, rfl⟩ | ⟨cover, h, rfl⟩
      · exact .cover count params hq h
      · exact .result count params cover h
  · intro h
    cases h with
    | count h => exact .inl ⟨h, rfl⟩
    | @param count i p q before hp hq h =>
      refine .inr ⟨count, .inl ⟨i, p, q, hp, hq, before, ?_⟩⟩
      rw [Nat.zero_add]
      exact paramMismatch?_eq_some_iff.mpr ⟨h, rfl⟩
    | @cover count params q hq h => exact .inr ⟨count, .inr ⟨params, .inl ⟨q, hq, h, rfl⟩⟩⟩
    | result count params cover h =>
      exact .inr ⟨count, .inr ⟨params, .inr ⟨cover, h, rfl⟩⟩⟩

/-- Whatever report is given, the run says whether the signatures are related. -/
theorem fst_run_conditions_iff (report : Report) :
    (report.run (conditions o relation c r)).1 = true ↔
      SignatureBelow o.parameterVariance relation (Holds (verdict o)) c r := by
  rw [Report.fst_run, ← Report.kept?_run_first, Option.isNone_iff_eq_none]
  exact firstMismatch?_eq_none_iff

theorem fst_run_eq_isCompatible (report : Report) :
    (report.run (conditions o .covariant c r)).1 = c.isCompatible r o := by
  rw [Bool.eq_iff_iff, fst_run_conditions_iff]
  exact holds_signature_iff.symm

end Signature

namespace Overloads

variable {o : Options} {overloads : Overloads}

open Signature (firstMismatch?)

/-- The implementation meets all conditions in the place of a signature, where its result
may be the wider or the narrower one. -/
def Serves (o : Options) (overloads : Overloads) (s : Signature Ty) : Prop :=
  SignatureBelow o.parameterVariance .either (fun s t => s.isAssignable t o = true)
    overloads.implementation s

theorem serves_iff {s : Signature Ty} : overloads.Serves o s ↔
    firstMismatch? o .either overloads.implementation s = none :=
  Signature.firstMismatch?_eq_none_iff.symm

theorem validate_eq_ok_iff : overloads.validate o = .ok () ↔ ∀ s ∈ overloads.declared,
    firstMismatch? o .either overloads.implementation s = none := validateFrom_eq_ok_iff

theorem mismatch_of_validate {e : OverloadError} (h : overloads.validate o = .error e) :
    (∃ s, overloads.declared[e.index]? = some s ∧
      firstMismatch? o .either overloads.implementation s = some e.reason) ∧
    ∀ s ∈ overloads.declared.take e.index,
      firstMismatch? o .either overloads.implementation s = none := by
  obtain ⟨before, s, after, hdeclared, hindex, hbefore, hs⟩ := validateFrom_eq_error h
  rw [Nat.zero_add] at hindex
  rw [hdeclared, hindex]
  refine ⟨⟨s, by simp, hs⟩, fun r hr => hbefore r ?_⟩
  rwa [List.take_left'] at hr
  rfl

theorem mem_take_of_getElem? {α : Type} {xs : List α} {i n : Nat} {x : α} (hi : i < n)
    (hx : xs[i]? = some x) : x ∈ xs.take n := by
  rw [← List.getElem?_take_of_lt hi] at hx
  exact List.mem_of_getElem? hx

/-- An error is about the first overload that is not served. There is one such error. -/
theorem validate_eq_error_iff {e : OverloadError} : overloads.validate o = .error e ↔
    (∃ s, overloads.declared[e.index]? = some s ∧
      firstMismatch? o .either overloads.implementation s = some e.reason) ∧
    ∀ s ∈ overloads.declared.take e.index,
      firstMismatch? o .either overloads.implementation s = none := by
  refine ⟨mismatch_of_validate, ?_⟩
  rintro ⟨⟨s, hs, hreason⟩, hbefore⟩
  cases hv : overloads.validate o with
  | ok =>
    have hserved := validate_eq_ok_iff.mp hv s (List.mem_of_getElem? hs)
    exact nomatch hserved.symm.trans hreason
  | error e' =>
    obtain ⟨⟨s', hs', hreason'⟩, hbefore'⟩ := mismatch_of_validate hv
    rcases Nat.lt_trichotomy e.index e'.index with hlt | heq | hgt
    · exact nomatch (hbefore' s (mem_take_of_getElem? hlt hs)).symm.trans hreason
    · rw [← heq, hs] at hs'
      obtain rfl := Option.some.inj hs'
      have hsame : e.reason = e'.reason := Option.some.inj (hreason.symm.trans hreason')
      obtain ⟨index, reason⟩ := e
      obtain ⟨index', reason'⟩ := e'
      cases heq
      cases hsame
      rfl
    · exact nomatch (hbefore s' (mem_take_of_getElem? hgt hs')).symm.trans hreason'

end Overloads

open Signature (ofParams conditions FirstMismatch firstMismatch?_eq_none_iff
  firstMismatch?_eq_some_iff fst_run_eq_isCompatible)

/-- An explanation is missing just where the answer is yes, and else it is the first
condition not met. Validation reports the first overload not served together with its
first condition not met, which a report has kept whenever a run says no. -/
theorem explanations_agree (o : Options) :
    (∀ c r : Signature Ty, ofParams r.params r.result = .ok r →
      c.isCompatible r o = (Report.silent.run (conditions o .covariant c r)).1 ∧
      (c.explain? r o = none ↔ c.isCompatible r o = true) ∧
      ∀ m, c.explain? r o = some m ↔ FirstMismatch o .covariant c r m) ∧
    (∀ overloads : Overloads, (∀ s ∈ overloads.declared, ofParams s.params s.result = .ok s) →
      (overloads.validate o = .ok () ↔ ∀ s ∈ overloads.declared, overloads.Serves o s) ∧
      (∀ e, overloads.validate o = .error e ↔
        (∃ s, overloads.declared[e.index]? = some s ∧
          FirstMismatch o .either overloads.implementation s e.reason) ∧
        ∀ s ∈ overloads.declared.take e.index, overloads.Serves o s) ∧
      ∀ s ∈ overloads.declared,
        let run := (Report.first none).run (conditions o .either overloads.implementation s)
        run.1 = false → ∃ reason, run.2.take.1 = some reason) := by
  constructor
  · intro c r hr
    refine ⟨(fst_run_eq_isCompatible .silent).symm, ?_, fun m => ?_⟩
    · exact firstMismatch?_eq_none_iff.trans holds_signature_iff.symm
    · exact firstMismatch?_eq_some_iff (.of_ofParams hr)
  · intro overloads hdeclared
    refine ⟨?_, fun e => ?_, fun s _ => Report.exists_taken_of_run⟩
    · simp only [Overloads.serves_iff]
      exact Overloads.validate_eq_ok_iff
    · simp only [Overloads.serves_iff]
      refine Overloads.validate_eq_error_iff.trans (and_congr_left fun _ => ?_)
      refine exists_congr fun s => and_congr_right fun hs => ?_
      exact firstMismatch?_eq_some_iff (.of_ofParams (hdeclared s (List.mem_of_getElem? hs)))

/-- The implementation serves the first of two overloads, and the second has a parameter
too many. -/
theorem explanations_agree_uncovered :
    let o : Options := {}
    let one : Signature Ty := ⟨[⟨0, false, .intrinsic .string⟩], .intrinsic .void⟩
    let two : Signature Ty :=
      ⟨[⟨0, false, .intrinsic .string⟩, ⟨1, false, .intrinsic .number⟩], .intrinsic .void⟩
    let overloads : Overloads := ⟨[one, two], one⟩
    FirstMismatch o .covariant one two (.uncoveredParameter 1) ∧ overloads.Serves o one ∧
      FirstMismatch o .either one two (.uncoveredParameter 1) := by
  intro o one two overloads
  obtain ⟨hexplain, hvalidate⟩ := explanations_agree o
  obtain ⟨-, -, hfirst⟩ := hexplain one two rfl
  have hdeclared : ∀ s ∈ overloads.declared, ofParams s.params s.result = .ok s :=
    List.forall_mem_cons.mpr ⟨rfl, List.forall_mem_singleton.mpr rfl⟩
  obtain ⟨-, herror, -⟩ := hvalidate overloads hdeclared
  obtain ⟨⟨_, ⟨⟩, htwo⟩, hone⟩ := (herror ⟨1, .uncoveredParameter 1⟩).mp rfl
  exact ⟨(hfirst _).mp rfl, hone one (List.mem_singleton_self _), htwo⟩

end ShapeTyping
