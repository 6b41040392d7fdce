import ShapeTyping.Proofs.Signature.Arity
/-! Which lists of parameters make a signature. Those that are arranged do, and of any other list
the first parameter that is out of order is reported. A signature made from types is always
arranged, and in every signature the required parameters are as many as a caller has to pass. -/
namespace ShapeTyping.Signature

variable {τ : Type} {ps qs : List (Param τ)} {p : Param τ} {i : Nat} {e : SchemaError}

/-! ## The first parameter out of order -/

/-- What there is to report of the parameter at an index. One that is misplaced is not also
reported as required too late. -/
inductive Offence (ps : List (Param τ)) (i : Nat) : SchemaError → Prop
  | misplaced {p : Param τ} (hp : ps[i]? = some p) (place : p.position ≠ i) :
      Offence ps i (.misplacedParameter i p.position)
  | requiredLate {p q : Param τ} {j : Nat} (hp : ps[i]? = some p) (place : p.position = i)
      (required : p.optional = false) (hj : j < i) (hq : ps[j]? = some q)
      (optional : q.optional = true) : Offence ps i (.requiredAfterOptional p.position)

theorem Offence.unique {e' : SchemaError} (h : Offence ps i e) (h' : Offence ps i e') : e = e' := by
  cases h with
  | misplaced hp place =>
    cases h' with
    | misplaced hp' => cases hp.symm.trans hp'; rfl
    | requiredLate hp' place' => cases hp.symm.trans hp'; exact absurd place' place
  | requiredLate hp place =>
    cases h' with
    | misplaced hp' place' => cases hp.symm.trans hp'; exact absurd place place'
    | requiredLate hp' => cases hp.symm.trans hp'; rfl

theorem any_optional_iff (qs ps : List (Param τ)) :
    qs.any (·.optional) = true ↔
      ∃ j q, j < qs.length ∧ (qs ++ ps)[j]? = some q ∧ q.optional = true := by
  rw [List.any_eq_true]
  constructor
  · rintro ⟨q, hq, ho⟩
    obtain ⟨j, hj⟩ := List.mem_iff_getElem?.mp hq
    have hlt : j < qs.length := (List.getElem?_eq_some_iff.mp hj).1
    exact ⟨j, q, hlt, (List.getElem?_append_left hlt).trans hj, ho⟩
  · rintro ⟨j, q, hlt, hj, ho⟩
    rw [List.getElem?_append_left hlt] at hj
    exact ⟨q, List.mem_of_getElem? hj, ho⟩

/-- The parameter after those in `qs` is judged by its own position and by whether one of them is
optional. -/
theorem offence_head_iff :
    Offence (qs ++ p :: ps) qs.length e ↔
      (p.position ≠ qs.length ∧ e = .misplacedParameter qs.length p.position) ∨
        (p.position = qs.length ∧ p.optional = false ∧ qs.any (·.optional) = true ∧
          e = .requiredAfterOptional p.position) := by
  have hhead : (qs ++ p :: ps)[qs.length]? = some p := by simp
  rw [any_optional_iff qs (p :: ps)]
  constructor
  · rintro (⟨hp, place⟩ | ⟨hp, place, required, hj, hq, optional⟩)
    · cases hhead.symm.trans hp
      exact .inl ⟨place, rfl⟩
    · cases hhead.symm.trans hp
      exact .inr ⟨place, required, ⟨_, _, hj, hq, optional⟩, rfl⟩
  · rintro (⟨place, rfl⟩ | ⟨place, required, ⟨j, q, hj, hq, optional⟩, rfl⟩)
    · exact .misplaced hhead place
    · exact .requiredLate hhead place required hj hq optional

/-- A step of the search: it ends at an offence, and otherwise goes on with one more parameter
behind it. -/
theorem fault?_cons (qs ps : List (Param τ)) (p : Param τ) :
    (∃ e, fault? qs.length (qs.any (·.optional)) (p :: ps) = some e ∧
      Offence (qs ++ p :: ps) qs.length e) ∨
    (fault? qs.length (qs.any (·.optional)) (p :: ps) =
      fault? (qs ++ [p]).length ((qs ++ [p]).any (·.optional)) ps ∧
      ∀ e, ¬ Offence (qs ++ p :: ps) qs.length e) := by
  simp only [offence_head_iff, List.length_append, List.length_singleton, List.any_append,
    List.any_cons, List.any_nil, Bool.or_false]
  rw [fault?]
  by_cases place : p.position = qs.length
  · cases hp : p.optional <;> cases hq : qs.any (·.optional) <;> simp [place]
  · simp [place]

/-- The search with the parameters `qs` behind it finds the first offence from there on. -/
theorem fault?_eq_some_iff (qs ps : List (Param τ)) :
    fault? qs.length (qs.any (·.optional)) ps = some e ↔
      ∃ i, qs.length ≤ i ∧ Offence (qs ++ ps) i e ∧
        ∀ j, qs.length ≤ j → j < i → ∀ e', ¬ Offence (qs ++ ps) j e' := by
  induction ps generalizing qs with
  | nil =>
    constructor
    · intro h
      cases h
    · rintro ⟨i, hi, hoffence, -⟩
      have hnone : (qs ++ [])[i]? = none := by simpa using hi
      cases hoffence with
      | misplaced hp => cases hnone.symm.trans hp
      | requiredLate hp => cases hnone.symm.trans hp
  | cons p ps ih =>
    rcases fault?_cons qs ps p with ⟨e₀, hfault, hoffence⟩ | ⟨hfault, hnone⟩
    · rw [hfault]
      constructor
      · rintro ⟨⟩
        exact ⟨qs.length, Nat.le_refl _, hoffence, fun j hle hlt => by omega⟩
      · rintro ⟨i, hi, hoffence', hfirst⟩
        have hi : i = qs.length := by
          by_contra hne
          exact hfirst qs.length (Nat.le_refl _) (by omega) e₀ hoffence
        subst hi
        rw [hoffence.unique hoffence']
    · rw [hfault, ih]
      simp only [List.append_assoc, List.singleton_append, List.length_append,
        List.length_singleton]
      constructor
      · rintro ⟨i, hi, hoffence, hfirst⟩
        refine ⟨i, by omega, hoffence, fun j hle hlt => ?_⟩
        rcases Nat.eq_or_lt_of_le hle with rfl | hle
        · exact hnone
        · exact hfirst j hle hlt
      · rintro ⟨i, hi, hoffence, hfirst⟩
        have hne : i ≠ qs.length := by
          rintro rfl
          exact hnone e hoffence
        exact ⟨i, by omega, hoffence, fun j hle hlt => hfirst j (by omega) hlt⟩

theorem ofParams_eq_error_iff {t : τ} :
    ofParams ps t = .error e ↔
      ∃ i, Offence ps i e ∧ ∀ j < i, ∀ e', ¬ Offence ps j e' := by
  have hfault := fault?_eq_some_iff (e := e) [] ps
  simp only [List.length_nil, List.any_nil, List.nil_append, Nat.zero_le, true_and,
    forall_const] at hfault
  rw [← hfault]
  unfold ofParams
  cases fault? 0 false ps <;> simp

/-! ## Signatures made from types -/

theorem getElem?_paramsFrom (optional : Bool) (first : Nat) (ts : List τ) (i : Nat) :
    (paramsFrom optional first ts)[i]? = ts[i]?.map fun t => ⟨first + i, optional, t⟩ := by
  induction ts generalizing first i with
  | nil => rfl
  | cons t ts ih =>
    cases i with
    | zero => rfl
    | succ i =>
      rw [paramsFrom, List.getElem?_cons_succ, List.getElem?_cons_succ, ih]
      simp only [Nat.add_assoc, Nat.add_comm 1 i]

theorem length_paramsFrom (optional : Bool) (first : Nat) (ts : List τ) :
    (paramsFrom optional first ts).length = ts.length := by
  induction ts generalizing first with
  | nil => rfl
  | cons t ts ih => rw [paramsFrom, List.length_cons, ih, List.length_cons]

theorem optional_of_mem_paramsFrom {optional : Bool} {first : Nat} {ts : List τ}
    (h : p ∈ paramsFrom optional first ts) : p.optional = optional := by
  obtain ⟨i, hi⟩ := List.mem_iff_getElem?.mp h
  rw [getElem?_paramsFrom] at hi
  obtain ⟨t, -, rfl⟩ := Option.map_eq_some_iff.mp hi
  rfl

theorem arranged_paramsFrom (required optional : List τ) :
    Arranged (paramsFrom false 0 required ++ paramsFrom true required.length optional) := by
  constructor
  · intro i p hp
    rw [List.getElem?_append, length_paramsFrom, getElem?_paramsFrom, getElem?_paramsFrom] at hp
    split at hp
    · obtain ⟨t, -, rfl⟩ := Option.map_eq_some_iff.mp hp
      exact Nat.zero_add i
    · obtain ⟨t, -, rfl⟩ := Option.map_eq_some_iff.mp hp
      show required.length + (i - required.length) = i
      omega
  · have hrequired : ∀ p ∈ paramsFrom false 0 required, p.optional = false := fun p hp =>
      optional_of_mem_paramsFrom hp
    have hoptional : ∀ p ∈ paramsFrom true required.length optional, p.optional = true :=
      fun p hp => optional_of_mem_paramsFrom hp
    refine List.pairwise_append.mpr ⟨?_, ?_, fun p hp q hq _ => hoptional q hq⟩
    · refine List.pairwise_of_forall_mem_list fun p hp q hq ho => ?_
      rw [hrequired p hp] at ho
      cases ho
    · exact List.pairwise_of_forall_mem_list fun p hp q hq _ => hoptional q hq

/-! ## How many are required -/

theorem length_takeWhile_required
    (h : ps.Pairwise fun p q => p.optional = true → q.optional = true) :
    (ps.takeWhile fun p => !p.optional).length = ps.countP fun p => !p.optional := by
  induction ps with
  | nil => rfl
  | cons p ps ih =>
    rw [List.pairwise_cons] at h
    cases hp : p.optional with
    | false => simp [hp, ih h.2]
    | true =>
      have hnone : (ps.countP fun q => !q.optional) = 0 := by
        rw [List.countP_eq_zero]
        intro q hq
        simp [h.1 q hq hp]
      simp [hp, hnone]

/-- A list of parameters makes a signature just if they are arranged, and otherwise the first one
out of order is reported. A signature made from types has the required ones first and then the
optional ones, and the required parameters of any signature are as many as it requires. -/
theorem ofParams_arranged_or_first_offence (ps : List (Param τ)) (required optional : List τ) (t : τ) :
    ((∃ s, ofParams ps t = .ok s) ↔ Arranged ps) ∧
    (∀ e, ofParams ps t = .error e ↔
      ∃ i, Offence ps i e ∧ ∀ j < i, ∀ e', ¬ Offence ps j e') ∧
    (∀ s, ofParams ps t = .ok s → s = ⟨ps, t⟩ ∧
      s.requiredCount = s.params.countP fun p => !p.optional) ∧
    ∃ s, ofTypes required optional t = .ok s ∧ s.result = t ∧
      s.params.length = required.length + optional.length ∧
      (∀ (i : Nat) u, required[i]? = some u → s.params[i]? = some ⟨i, false, u⟩) ∧
      ∀ (i : Nat) u, optional[i]? = some u →
        s.params[required.length + i]? = some ⟨required.length + i, true, u⟩ := by
  refine ⟨?_, fun e => ofParams_eq_error_iff, fun s hs => ?_, ?_⟩
  · constructor
    · rintro ⟨s, hs⟩
      exact (ofParams_eq_ok_iff.mp hs).1
    · intro h
      exact ⟨_, ofParams_eq_ok_iff.mpr ⟨h, rfl⟩⟩
  · obtain ⟨harranged, rfl⟩ := ofParams_eq_ok_iff.mp hs
    exact ⟨rfl, length_takeWhile_required harranged.optional⟩
  · refine ⟨_, ofParams_eq_ok_iff.mpr ⟨arranged_paramsFrom required optional, rfl⟩, rfl, ?_,
      fun i u hu => ?_, fun i u hu => ?_⟩
    · rw [List.length_append, length_paramsFrom, length_paramsFrom]
    · have hi : i < required.length := (List.getElem?_eq_some_iff.mp hu).1
      rw [List.getElem?_append_left (by rwa [length_paramsFrom]), getElem?_paramsFrom, hu]
      simp
    · rw [List.getElem?_append_right (by rw [length_paramsFrom]; omega), length_paramsFrom,
        Nat.add_sub_cancel_left, getElem?_paramsFrom, hu]
      rfl

-- The third parameter is misplaced and required too late, and the fourth is required too late.
example : ofParams [⟨0, false, ()⟩, ⟨1, true, ()⟩, ⟨9, false, ()⟩, ⟨3, false, ()⟩] () =
    .error (.misplacedParameter 2 9) := rfl

end ShapeTyping.Signature
