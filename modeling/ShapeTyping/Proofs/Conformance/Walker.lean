import ShapeTyping.Conformance.Walker
import ShapeTyping.Proofs.Outcome
/-! The walker does what the check does. It comes back to the level at which it started, and to the
text with which it started unless it has met a departure. Then it tells of the violation that the
check finds, and has written the path to it behind that text. -/
namespace ShapeTyping

/-! ## Texts that grow and are cut back -/

theorem Step.exists_append (text : String) (step : Step) :
    ∃ rest, step.append text = text ++ rest := by
  cases step with
  | index i => exact ⟨"[" ++ toString i ++ "]", by simp [append, String.append_assoc]⟩
  | field name =>
    by_cases hempty : text = ""
    · exact ⟨name, by simp [append, hempty]⟩
    · exact ⟨"." ++ name, by simp [append, hempty, String.append_assoc]⟩

theorem Step.exists_foldl_append (path : List Step) (text : String) :
    ∃ rest, path.foldl Step.append text = text ++ rest := by
  induction path generalizing text with
  | nil => exact ⟨"", by simp⟩
  | cons step path ih =>
    obtain ⟨first, hfirst⟩ := step.exists_append text
    obtain ⟨rest, hrest⟩ := ih (step.append text)
    exact ⟨first ++ rest, by rw [List.foldl_cons, hrest, hfirst, String.append_assoc]⟩

namespace Walker

theorem cut_append (text rest : String) : cut (text ++ rest) text.length = text := by
  simp [cut, ← String.length_toList]

/-! ## What a walk comes to -/

/-- What the walker makes of a result of the check. -/
def outcome (w : Walker) : Except Violation Unit → Except Departure Unit × Walker
  | .ok () => (.ok (), w)
  | .error violation =>
    (.error (violation.toldFrom w.path), { w with path := (violation.toldFrom w.path).path })

/-- From this walker on the walk has the result. -/
def Follows (w : Walker) (walk : Walk Unit) (r : Except Violation Unit) : Prop :=
  walk.run.run w = w.outcome r

variable {w : Walker} {walk rest : Walk Unit} {r r' : Except Violation Unit} {v : Value} {t : Ty}

theorem follows_pure (w : Walker) : Follows w (pure ()) (.ok ()) := rfl

theorem follows_report (w : Walker) (problem : Problem) :
    Follows w (report problem) (.error ⟨[], problem⟩) := rfl

theorem follows_require (w : Walker) (accepted : Bool) (v : Value) (t : Ty) :
    Follows w (require accepted v t) (Conformance.require accepted v t) := by
  cases accepted <;> rfl

/-- The level is left again, whatever the walk inside has met. -/
theorem Follows.nested (h : Follows { w with depth := w.depth + 1 } walk r) :
    Follows w (nested walk) r := by
  have hrun := Outcome.run_bind_of (f := fun result => do
    modify fun w : Walker => { w with depth := w.depth - 1 }
    return result) h
  refine Eq.trans hrun ?_
  cases r <;> rfl

/-- A step is taken, and taken back if nothing was met. -/
theorem Follows.step {step : Step} (h : Follows { w with path := step.append w.path } walk r)
    (h' : Follows w rest r') :
    Follows w (do push step; walk; truncate w.path.length; rest)
      (do Conformance.under step r; r') := by
  have hpush : (push step).run.run w = (.ok (), { w with path := step.append w.path }) := rfl
  refine (Outcome.run_bind_of_ok hpush).trans ?_
  cases r with
  | error violation => exact Outcome.run_bind_of_error h
  | ok _ =>
    refine (Outcome.run_bind_of_ok h).trans ?_
    obtain ⟨first, hfirst⟩ := step.exists_append w.path
    show rest.run.run { w with path := cut (step.append w.path) w.path.length } = _
    rw [hfirst, cut_append]
    exact h'

theorem isOk_outcome (w : Walker) (r : Except Violation Unit) : (w.outcome r).1.isOk = r.isOk := by
  cases r <;> rfl

/-- Whatever was met, the text is what it was before when it is cut back. -/
theorem cut_outcome (w : Walker) (r : Except Violation Unit) :
    { (w.outcome r).2 with path := cut (w.outcome r).2.path w.path.length } = w := by
  cases r with
  | ok _ =>
    have hcut := cut_append w.path ""
    rw [String.append_empty] at hcut
    show { w with path := cut w.path w.path.length } = w
    rw [hcut]
  | error violation =>
    obtain ⟨rest, hrest⟩ := Step.exists_foldl_append violation.path w.path
    show { w with path := cut (violation.path.foldl Step.append w.path) w.path.length } = w
    rw [hrest, cut_append]

/-! ## Lists -/

theorem Follows.items {f : Value → Walk Unit} {g : Value → Except Violation Unit} {vs : List Value}
    (h : ∀ path, ∀ v ∈ vs, Follows { w with path := path } (f v) (g v)) (i : Nat) :
    Follows w (items f w.path.length i vs) (Conformance.items g i vs) := by
  induction vs generalizing i with
  | nil => exact follows_pure w
  | cons v vs ih =>
    exact (h _ v (List.mem_cons_self ..)).step
      (ih (fun path v hv => h path v (List.mem_cons_of_mem _ hv)) (i + 1))

theorem run_checkAny {o : Options} {b : Budget} {ts : List Ty}
    (h : ∀ t ∈ ts, Follows w (check v t) (Conformance.check o b v t)) :
    (checkAny v w.path.length ts).run w = (Conformance.checkAny o b v ts, w) := by
  induction ts with
  | nil => rfl
  | cons t ts ih =>
    rw [List.forall_mem_cons] at h
    rw [checkAny, Conformance.checkAny]
    have hrun : (check v t).run.run w = w.outcome (Conformance.check o b v t) := h.1
    have hcut := cut_outcome w (Conformance.check o b v t)
    have hok := isOk_outcome w (Conformance.check o b v t)
    generalize w.outcome (Conformance.check o b v t) = out at hrun hcut hok
    obtain ⟨result, left⟩ := out
    refine (Outcome.run_bind_of hrun).trans ?_
    show StateT.run (if result.isOk then pure true else checkAny v w.path.length ts)
      { left with path := cut left.path w.path.length } = _
    rw [hcut, ← hok]
    cases result.isOk with
    | true => rfl
    | false => exact ih h.2

theorem follows_get {f : Walker → Walk Unit} (h : Follows w (f w) r) : Follows w (get >>= f) r := h

theorem follows_checkFields {b : Budget} {entries : List (String × Value)} {fs : List (Field Ty)}
    (h : ∀ path, ∀ f ∈ fs, ∀ v,
      Follows { w with path := path } (check v f.type) (Conformance.check w.options b v f.type)) :
    Follows w (checkFields entries w.path.length fs)
      (Conformance.checkFields w.options b entries fs) := by
  induction fs with
  | nil => exact follows_pure w
  | cons f fs ih =>
    obtain ⟨name, optional, readonly, t⟩ := f
    rw [checkFields, Conformance.checkFields]
    refine Follows.step ?_ (ih fun path f hf => h path f (List.mem_cons_of_mem _ hf))
    refine follows_get ?_
    dsimp only
    cases hentry : entries.lookup name with
    | none =>
      cases optional with
      | true => exact follows_pure _
      | false => exact follows_report _ _
    | some v =>
      dsimp only
      split
      · exact follows_pure _
      · exact h _ _ (List.mem_cons_self ..) v

/-! ## The whole walk -/

/-- The limit is met at the depth at which no level is left, and comes before all else. -/
theorem Follows.within_limit (h : Follows w walk r) (v : Value) :
    Follows w
      (if w.options.conformanceLimit ≤ w.depth then report .depthExceeded
        else if !w.options.strictNullChecks && v.isNullish then pure ()
        else walk)
      (if (Budget.levels (w.options.conformanceLimit - w.depth)).isSpent then
          .error ⟨[], .depthExceeded⟩
        else if !w.options.strictNullChecks && v.isNullish then .ok ()
        else r) := by
  have hspent : (Budget.levels (w.options.conformanceLimit - w.depth)).isSpent = true ↔
      w.options.conformanceLimit ≤ w.depth := by
    rw [Budget.isSpent, beq_iff_eq]
    omega
  by_cases hlimit : w.options.conformanceLimit ≤ w.depth
  · rw [if_pos hlimit, if_pos (hspent.mpr hlimit)]
    exact follows_report w _
  · rw [if_neg hlimit, if_neg (mt hspent.mp hlimit)]
    split
    · exact follows_pure w
    · exact h

theorem follows_check (w : Walker) (v : Value) (t : Ty) :
    Follows w (check v t)
      (Conformance.check w.options (.levels (w.options.conformanceLimit - w.depth)) v t) := by
  induction t generalizing w v with
  | intrinsic kind =>
    rw [check, Conformance.check]
    exact follows_get ((follows_require w _ v _).within_limit v)
  | literal value =>
    rw [check, Conformance.check]
    exact follows_get ((follows_require w _ v _).within_limit v)
  | function s =>
    rw [check, Conformance.check]
    exact follows_get ((follows_require w _ v _).within_limit v)
  | application name arguments =>
    rw [check, Conformance.check]
    exact follows_get ((follows_require w _ v _).within_limit v)
  | union members ih =>
    rw [check, Conformance.check]
    refine follows_get (Follows.within_limit ?_ v)
    have hany := run_checkAny fun t ht => ih t ht w v
    exact (Outcome.run_bind_of_ok (Outcome.run_lift_of hany)).trans (follows_require w _ v _)
  | shape s ih =>
    rw [check.eq_def, Conformance.check.eq_def]
    refine follows_get (Follows.within_limit ?_ v)
    cases v with
    | object entries =>
      refine Follows.nested (follows_checkFields fun path f hf v => ?_)
      exact ih f hf { w with path := path, depth := w.depth + 1 } v
    | _ => exact follows_report w _
  | array element ih =>
    rw [check.eq_def, Conformance.check.eq_def]
    refine follows_get (Follows.within_limit ?_ v)
    cases v with
    | array vs =>
      refine Follows.nested (Follows.items (fun path v hv => ?_) 0)
      exact ih { w with path := path, depth := w.depth + 1 } v
    | _ => exact follows_report w _

theorem follows_checkShape (w : Walker) (v : Value) (s : Shape Ty) :
    Follows w (checkShape v s)
      (Conformance.checkShape w.options (.levels (w.options.conformanceLimit - w.depth)) v s) := by
  cases v with
  | object entries =>
    refine follows_get (follows_checkFields fun path f hf v => ?_)
    exact follows_check { w with path := path } v f.type
  | _ => exact follows_report w _

theorem fst_outcome (w : Walker) (r : Except Violation Unit) :
    (w.outcome r).1 = r.mapError (·.toldFrom w.path) := by
  cases r <;> rfl

end Walker

theorem Value.examine_eq (v : Value) (t : Ty) (o : Options) :
    v.examine t o = (v.conforms t o).mapError (·.told) := by
  unfold Value.examine
  rw [Walker.follows_check, Walker.fst_outcome]
  rfl

theorem Value.examineShape_eq (v : Value) (s : Shape Ty) (o : Options) :
    v.examineShape s o = (v.conformsToShape s o).mapError (·.told) := by
  unfold Value.examineShape
  rw [Walker.follows_checkShape, Walker.fst_outcome]
  rfl

end ShapeTyping
