import Mathlib.Data.List.Basic
import ShapeTyping.Signature.Basic
/-! How many arguments a signature takes. A signature that was built has its parameters
in their places and the required ones first, so that one number divides the required
from the optional. -/
namespace ShapeTyping.Signature

variable {τ : Type} {s c r : Signature τ}

/-- Every parameter declares the position it has, and what follows an optional one is
optional. -/
structure Arranged (ps : List (Param τ)) : Prop where
  position : ∀ (i : Nat) (p : Param τ), ps[i]? = some p → p.position = i
  optional : ps.Pairwise fun p q => p.optional = true → q.optional = true

theorem fault?_eq_none_iff {expected : Nat} {afterOptional : Bool} {ps : List (Param τ)} :
    fault? expected afterOptional ps = none ↔
      (∀ (i : Nat) (p : Param τ), ps[i]? = some p → p.position = expected + i) ∧
        (ps.Pairwise fun p q => p.optional = true → q.optional = true) ∧
        (afterOptional = true → ∀ p ∈ ps, p.optional = true) := by
  induction ps generalizing expected afterOptional with
  | nil => simp [fault?]
  | cons p ps ih =>
    have hposition :
        (∀ (i : Nat) (q : Param τ), (p :: ps)[i]? = some q → q.position = expected + i) ↔
        p.position = expected ∧
          ∀ (i : Nat) (q : Param τ), ps[i]? = some q → q.position = expected + 1 + i := by
      constructor
      · intro h
        refine ⟨h 0 p rfl, fun i q hq => ?_⟩
        rw [h (i + 1) q hq]
        omega
      · rintro ⟨hp, hps⟩ i q hq
        cases i with
        | zero => cases hq; exact hp
        | succ i =>
          rw [hps i q hq]
          omega
    rw [hposition, List.pairwise_cons, List.forall_mem_cons, fault?]
    by_cases hp : p.position = expected
    · cases ho : p.optional <;> cases afterOptional <;> simp [hp, ih, and_comm]
    · simp [hp]

theorem arranged_iff {ps : List (Param τ)} : Arranged ps ↔ fault? 0 false ps = none := by
  rw [fault?_eq_none_iff]
  simp only [Nat.zero_add]
  constructor
  · rintro ⟨hposition, hoptional⟩
    exact ⟨hposition, hoptional, nofun⟩
  · rintro ⟨hposition, hoptional, -⟩
    exact ⟨hposition, hoptional⟩

theorem ofParams_eq_ok_iff {ps : List (Param τ)} {t : τ} :
    ofParams ps t = .ok s ↔ Arranged ps ∧ s = ⟨ps, t⟩ := by
  rw [arranged_iff]
  unfold ofParams
  cases fault? 0 false ps with
  | some e => simp
  | none => simp [eq_comm]

theorem Arranged.of_ofParams {ps : List (Param τ)} {t : τ} (h : ofParams ps t = .ok s) :
    Arranged s.params := by
  obtain ⟨hps, rfl⟩ := ofParams_eq_ok_iff.mp h
  exact hps

/-! ## Required and optional parameters -/

theorem requiredCount_le (s : Signature τ) : s.requiredCount ≤ s.params.length :=
  (List.takeWhile_prefix _).length_le

theorem optional_iff_le_index {ps : List (Param τ)}
    (h : ps.Pairwise fun p q => p.optional = true → q.optional = true) {i : Nat} {p : Param τ}
    (hp : ps[i]? = some p) :
    p.optional = true ↔ (ps.takeWhile fun p => !p.optional).length ≤ i := by
  induction ps generalizing i with
  | nil => cases hp
  | cons q ps ih =>
    rw [List.pairwise_cons] at h
    cases hq : q.optional with
    | true =>
      have hcount : ((q :: ps).takeWhile fun p => !p.optional).length = 0 := by simp [hq]
      have hopt : p.optional = true := by
        rcases List.mem_cons.mp (List.mem_of_getElem? hp) with rfl | hm
        · exact hq
        · exact h.1 p hm hq
      rw [hcount]
      exact iff_of_true hopt (Nat.zero_le i)
    | false =>
      have hcount : ((q :: ps).takeWhile fun p => !p.optional).length =
          (ps.takeWhile fun p => !p.optional).length + 1 := by simp [hq]
      rw [hcount]
      cases i with
      | zero =>
        cases hp
        simp [hq]
      | succ i =>
        rw [ih h.2 hp]
        omega

/-- The required parameters are those before the required count. -/
theorem Arranged.optional_iff (h : Arranged s.params) {i : Nat} {p : Param τ}
    (hp : s.params[i]? = some p) : p.optional = true ↔ s.requiredCount ≤ i :=
  optional_iff_le_index h.optional hp

/-- From a position on all parameters are optional just if none is required there. -/
theorem Arranged.forall_drop_iff (h : Arranged s.params) {n : Nat} :
    (∀ q ∈ s.params.drop n, q.optional = true) ↔ s.requiredCount ≤ n := by
  constructor
  · intro hall
    by_contra hlt
    have hn : n < s.params.length := by
      have := s.requiredCount_le
      omega
    have hat : s.params[n]? = some s.params[n] := List.getElem?_eq_getElem hn
    have hmem : s.params[n] ∈ s.params.drop n := by
      rw [List.drop_eq_getElem_cons hn]
      exact List.mem_cons_self ..
    have := (h.optional_iff hat).mp (hall _ hmem)
    omega
  · intro hle q hq
    obtain ⟨i, hi⟩ := List.mem_iff_getElem?.mp hq
    rw [List.getElem?_drop] at hi
    rw [h.optional_iff hi]
    omega

/-- The first required parameter from a position on is the one there. -/
theorem Arranged.find?_drop (h : Arranged s.params) (n : Nat) :
    (s.params.drop n).find? (fun q => !q.optional) =
      s.params[n]?.filter fun q => !q.optional := by
  cases hat : s.params[n]? with
  | none =>
    rw [List.drop_eq_nil_of_le (List.getElem?_eq_none_iff.mp hat)]
    rfl
  | some q =>
    obtain ⟨hn, rfl⟩ := List.getElem?_eq_some_iff.mp hat
    cases ho : s.params[n].optional with
    | false =>
      rw [List.drop_eq_getElem_cons hn, List.find?_cons, Option.filter_some, ho]
      rfl
    | true =>
      have hrest : ∀ p ∈ s.params.drop n, p.optional = true :=
        h.forall_drop_iff.mpr ((h.optional_iff hat).mp ho)
      have hnone : (s.params.drop n).find? (fun q => !q.optional) = none := by
        rw [List.find?_eq_none]
        intro p hp
        simp [hrest p hp]
      rw [hnone, Option.filter_some, ho]
      rfl

/-! ## Numbers of arguments -/

/-- A call may pass so many arguments. -/
def Takes (s : Signature τ) (n : Nat) : Prop := s.requiredCount ≤ n ∧ n ≤ s.params.length

/-- Two signatures take a common number of arguments if neither requires more than the
other has parameters. -/
theorem exists_takes_iff : (∃ n, c.Takes n ∧ r.Takes n) ↔
    c.requiredCount ≤ r.params.length ∧ r.requiredCount ≤ c.params.length := by
  have hc := c.requiredCount_le
  have hr := r.requiredCount_le
  constructor
  · rintro ⟨n, ⟨hcn, hnc⟩, hrn, hnr⟩
    omega
  · rintro ⟨hcr, hrc⟩
    refine ⟨max c.requiredCount r.requiredCount, ⟨?_, ?_⟩, ?_, ?_⟩
    all_goals omega

end ShapeTyping.Signature
