import ShapeTyping.Proofs.Guard.Series
/-! Which predicates of the caller a guard calls, and in what order. The calls are seen by
giving the guard predicates that keep a log, which changes nothing else. -/
namespace ShapeTyping

/-- A call of a predicate of the caller's. -/
structure Call (σ : Type) where
  predicate : Value → Attempt σ Bool
  value : Value

variable {σ α β γ δ : Type}

/-- Does what it did, and writes the call down. -/
def Call.noted (call : Call σ) (m : StateM σ α) : StateM (σ × List (Call σ)) α :=
  fun (s, log) =>
    let (a, s') := m.run s
    pure (a, (s', log ++ [call]))

/-- What a computation with a log adds to it. -/
def callsOf (m : StateM (σ × List (Call σ)) α) (s : σ) : List (Call σ) := (m.run (s, [])).2.2

/-! ## Computations with a log -/

/-- A computation takes a state to a result and another state. A second one does the same,
with `out` of the result, and adds the calls to any log. -/
structure Observed (out : α → β) (m : StateM σ α) (m' : StateM (σ × List (Call σ)) β) (s : σ)
    (a : α) (calls : List (Call σ)) (s' : σ) : Prop where
  run : m.run s = (a, s')
  logged : ∀ log, m'.run (s, log) = (out a, (s', log ++ calls))

namespace Observed

variable {s s₁ s' : σ} {calls calls' : List (Call σ)}

theorem callsOf_eq {out : α → β} {m : StateM σ α} {m' : StateM (σ × List (Call σ)) β} {a : α}
    (h : Observed out m m' s a calls s') : callsOf m' s = calls := by
  unfold callsOf
  rw [h.logged]
  rfl

theorem pure (out : α → β) (a : α) (s : σ) :
    Observed out (Pure.pure a) (Pure.pure (out a)) s a [] s := by
  refine ⟨rfl, fun log => ?_⟩
  rw [List.append_nil]
  rfl

theorem noted (call : Call σ) {m : StateM σ α} {a : α} (h : m.run s = (a, s')) :
    Observed id m (call.noted m) s a [call] s' := by
  refine ⟨h, fun log => ?_⟩
  show (fun x : α × σ => (x.1, (x.2, log ++ [call]))) (m.run s) = _
  rw [h]
  rfl

theorem map {m : StateM σ α} {m' : StateM (σ × List (Call σ)) α} {a : α}
    (h : Observed id m m' s a calls s') (f : α → β) :
    Observed id (f <$> m) (f <$> m') s (f a) calls s' := by
  constructor
  · rw [StateT.run_map, h.run]
    rfl
  · intro log
    rw [StateT.run_map, h.logged]
    rfl

/-- The calls of the first part come first. -/
theorem bind {out : α → β} {out' : γ → δ} {m : StateM σ α} {m' : StateM (σ × List (Call σ)) β}
    {f : α → StateM σ γ} {f' : β → StateM (σ × List (Call σ)) δ} {a : α} {c : γ}
    (hm : Observed out m m' s a calls s₁) (hf : Observed out' (f a) (f' (out a)) s₁ c calls' s') :
    Observed out' (m >>= f) (m' >>= f') s c (calls ++ calls') s' := by
  constructor
  · rw [StateT.run_bind, hm.run]
    exact hf.run
  · intro log
    rw [StateT.run_bind, hm.logged, ← List.append_assoc]
    exact hf.logged (log ++ calls)

section
variable {x : Attempt σ α} {x' : Attempt (σ × List (Call σ)) α} {f : α → Attempt σ β}
  {f' : α → Attempt (σ × List (Call σ)) β}

theorem bind_ok {a : α} {answer : Except PredicateFailure β}
    (hx : Observed id x.run x'.run s (.ok a) calls s₁)
    (hf : Observed id (f a).run (f' a).run s₁ answer calls' s') :
    Observed id (x >>= f).run (x' >>= f').run s answer (calls ++ calls') s' := by
  rw [ExceptT.run_bind, ExceptT.run_bind]
  exact hx.bind hf

/-- A failure ends the evaluation. -/
theorem bind_error {failure : PredicateFailure}
    (hx : Observed id x.run x'.run s (.error failure) calls s') :
    Observed id (x >>= f).run (x' >>= f').run s (.error failure) calls s' := by
  rw [ExceptT.run_bind, ExceptT.run_bind, ← List.append_nil calls]
  exact hx.bind (.pure id (Except.error failure) s')

end

end Observed

namespace Guard

mutual
/-- The guard with predicates that write down every call. -/
def watched : Guard σ → Guard (σ × List (Call σ))
  | .typeof kind => .typeof kind
  | .inProperty name => .inProperty name
  | .callable name => .callable name
  | .discriminant property value => .discriminant property value
  | .conforms shape => .conforms shape
  | .truthy => .truthy
  | .all guards => .all (watchedList guards)
  | .any guards => .any (watchedList guards)
  | .not guard => .not guard.watched
  | .custom test => .custom fun v => Call.noted ⟨fun v => ExceptT.lift (test v), v⟩ (test v)
  | .fallible test => .fallible fun v => ExceptT.mk (Call.noted ⟨test, v⟩ (test v).run)
termination_by structural g => g
def watchedList : List (Guard σ) → List (Guard (σ × List (Call σ)))
  | [] => []
  | g :: gs => g.watched :: watchedList gs
termination_by structural gs => gs
end

theorem watched_series (settling : Bool) (gs : List (Guard σ)) :
    (series settling gs).watched = series settling (watchedList gs) := by
  cases settling <;> rfl

/-! ## The rules of evaluation -/

/-- In a state a guard gives an answer, makes some calls and leaves a state. Only predicates
of the caller are called, and only they change the state. -/
inductive Answers (o : Options) (v : Value) :
    Guard σ → σ → Except PredicateFailure Bool → List (Call σ) → σ → Prop
  | typeof (kind : TypeofResult) (s : σ) :
      Answers o v (.typeof kind) s (.ok (v.typeof == kind)) [] s
  | inProperty (name : String) (s : σ) :
      Answers o v (.inProperty name) s (hasProperty v name) [] s
  | callable (name : String) (s : σ) :
      Answers o v (.callable name) s (.ok (isCallable v name)) [] s
  | discriminant (property : String) (value : Literal) (s : σ) :
      Answers o v (.discriminant property value) s (.ok (isDiscriminant v property value)) [] s
  | conforms (shape : Shape Ty) (s : σ) :
      Answers o v (.conforms shape) s (.ok (v.conformsToShape shape o).isOk) [] s
  | truthy (s : σ) : Answers o v .truthy s (.ok v.isTruthy) [] s
  | seriesNil (settling : Bool) (s : σ) :
      Answers o v (series settling []) s (.ok !settling) [] s
  | seriesNext {settling : Bool} {g : Guard σ} {gs : List (Guard σ)} {s s₁ s' : σ}
      {calls calls' : List (Call σ)} {answer : Except PredicateFailure Bool}
      (unsettled : Answers o v g s (.ok !settling) calls s₁)
      (rest : Answers o v (series settling gs) s₁ answer calls' s') :
      Answers o v (series settling (g :: gs)) s answer (calls ++ calls') s'
  | seriesStop {settling : Bool} {g : Guard σ} {gs : List (Guard σ)} {s s' : σ}
      {calls : List (Call σ)} {answer : Except PredicateFailure Bool}
      (h : Answers o v g s answer calls s') (stop : answer ≠ .ok !settling) :
      Answers o v (series settling (g :: gs)) s answer calls s'
  | not {g : Guard σ} {s s' : σ} {calls : List (Call σ)} {accepted : Bool}
      (h : Answers o v g s (.ok accepted) calls s') :
      Answers o v (.not g) s (.ok !accepted) calls s'
  | notFailed {g : Guard σ} {s s' : σ} {calls : List (Call σ)} {failure : PredicateFailure}
      (h : Answers o v g s (.error failure) calls s') :
      Answers o v (.not g) s (.error failure) calls s'
  | custom {test : Value → StateM σ Bool} {s s' : σ} {accepted : Bool}
      (h : (test v).run s = (accepted, s')) :
      Answers o v (.custom test) s (.ok accepted) [⟨fun v => ExceptT.lift (test v), v⟩] s'
  | fallible {test : Value → Attempt σ Bool} {s s' : σ}
      {answer : Except PredicateFailure Bool} (h : (test v).run.run s = (answer, s')) :
      Answers o v (.fallible test) s answer [⟨test, v⟩] s'

variable {o : Options} {v : Value} {g : Guard σ} {s s' : σ}
  {answer : Except PredicateFailure Bool} {calls : List (Call σ)}

/-- Evaluation follows the rules, and to watch a guard changes neither its answer nor what
it does to the state. -/
theorem Answers.observed (h : Answers o v g s answer calls s') :
    Observed id (g.eval o v).run (g.watched.eval o v).run s answer calls s' := by
  induction h with
  | seriesNil settling s =>
    rw [watched_series, watchedList, eval_series_nil, eval_series_nil]
    exact .pure id _ s
  | @seriesNext settling g gs s s₁ s' calls calls' answer _ _ ihg ihgs =>
    rw [watched_series] at ihgs ⊢
    rw [watchedList, eval_series_cons, eval_series_cons]
    apply ihg.bind_ok
    have hopen : (!settling) ≠ settling := by cases settling <;> decide
    rw [if_neg hopen, if_neg hopen]
    exact ihgs
  | @seriesStop settling g gs s s' calls answer _ stop ih =>
    rw [watched_series, watchedList, eval_series_cons, eval_series_cons]
    rcases answer with failure | accepted
    · exact ih.bind_error
    · have hsettled : accepted = settling := by
        cases accepted <;> cases settling <;> simp_all
      rw [← List.append_nil calls]
      apply ih.bind_ok
      rw [if_pos hsettled, if_pos hsettled, hsettled]
      exact .pure id _ s'
  | @not g s s' calls accepted _ ih =>
    rw [← List.append_nil calls]
    exact ih.bind_ok (.pure id (Except.ok !accepted) s')
  | notFailed _ ih => exact ih.bind_error
  | custom h => exact (Observed.noted _ h).map Except.ok
  | fallible h => exact .noted _ h
  | typeof kind s => exact .pure id _ s
  | inProperty name s => exact .pure id _ s
  | callable name s => exact .pure id _ s
  | discriminant property value s => exact .pure id _ s
  | conforms shape s => exact .pure id _ s
  | truthy s => exact .pure id _ s

theorem exists_answers_series (settling : Bool) {gs : List (Guard σ)}
    (h : ∀ g ∈ gs, ∀ s, ∃ answer calls s', Answers o v g s answer calls s') (s : σ) :
    ∃ answer calls s', Answers o v (series settling gs) s answer calls s' := by
  induction gs generalizing s with
  | nil => exact ⟨_, _, _, .seriesNil settling s⟩
  | cons g gs ih =>
    rw [List.forall_mem_cons] at h
    obtain ⟨answer, calls, s₁, hg⟩ := h.1 s
    by_cases hopen : answer = .ok !settling
    · subst hopen
      obtain ⟨answer, calls', s', hgs⟩ := ih h.2 s₁
      exact ⟨_, _, _, .seriesNext hg hgs⟩
    · exact ⟨_, _, _, .seriesStop hg hopen⟩

/-- In every state the rules give an answer. -/
theorem exists_answers (o : Options) (v : Value) (g : Guard σ) (s : σ) :
    ∃ answer calls s', Answers o v g s answer calls s' := by
  induction g generalizing s with
  | typeof kind => exact ⟨_, _, _, .typeof kind s⟩
  | inProperty name => exact ⟨_, _, _, .inProperty name s⟩
  | callable name => exact ⟨_, _, _, .callable name s⟩
  | discriminant property value => exact ⟨_, _, _, .discriminant property value s⟩
  | conforms shape => exact ⟨_, _, _, .conforms shape s⟩
  | truthy => exact ⟨_, _, _, .truthy s⟩
  | all guards ih => exact exists_answers_series false ih s
  | any guards ih => exact exists_answers_series true ih s
  | not guard ih =>
    obtain ⟨answer, calls, s', h⟩ := ih s
    cases answer with
    | ok accepted => exact ⟨_, _, _, .not h⟩
    | error failure => exact ⟨_, _, _, .notFailed h⟩
  | custom test => exact ⟨_, _, _, .custom rfl⟩
  | fallible test => exact ⟨_, _, _, .fallible rfl⟩

end Guard
end ShapeTyping
