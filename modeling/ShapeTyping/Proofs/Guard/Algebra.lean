import ShapeTyping.Proofs.Guard.Calls
/-! The laws of Boolean algebra for guards. They hold of answers and failures, of what becomes
of the state, and of the calls of the caller's predicates: a negation goes inwards and a list
inside a list of its kind goes up without moving the place where evaluation stops. -/
namespace ShapeTyping.Guard

variable {σ : Type} {o : Options} {v : Value}

/-! ## Laws of evaluation -/

theorem eval_not (o : Options) (v : Value) (g : Guard σ) :
    g.not.eval o v = (do let answer ← g.eval o v; pure !answer) := by
  rw [eval]

theorem eval_not_not (o : Options) (v : Value) (g : Guard σ) :
    g.not.not.eval o v = g.eval o v := by
  rw [eval_not, eval_not, bind_assoc]
  simp only [pure_bind, Bool.not_not, bind_pure]

/-- The second list is tried if nothing in the first one settles the whole. -/
theorem eval_series_append (o : Options) (v : Value) (settling : Bool) (gs hs : List (Guard σ)) :
    (series settling (gs ++ hs)).eval o v = (do
      let answer ← (series settling gs).eval o v
      if answer = settling then pure settling else (series settling hs).eval o v) := by
  induction gs with
  | nil =>
    have hopen : (!settling) ≠ settling := by cases settling <;> decide
    rw [List.nil_append, eval_series_nil, pure_bind, if_neg hopen]
  | cons g gs ih =>
    rw [List.cons_append, eval_series_cons, eval_series_cons, bind_assoc]
    apply bind_congr
    intro answer
    by_cases hsettled : answer = settling
    · rw [if_pos hsettled, if_pos hsettled, pure_bind, if_pos rfl]
    · rw [if_neg hsettled, if_neg hsettled, ih]

theorem eval_series_singleton (o : Options) (v : Value) (settling : Bool) (g : Guard σ) :
    (series settling [g]).eval o v = g.eval o v := by
  have hanswer : ∀ answer : Bool, (if answer = settling then pure settling else pure !settling) =
      (pure answer : Attempt σ Bool) := by
    intro answer
    cases answer <;> cases settling <;> rfl
  rw [eval_series_cons, eval_series_nil]
  simp only [hanswer, bind_pure]

/-- A list in a list of its kind stops where its members would. -/
theorem eval_series_flatten (o : Options) (v : Value) (settling : Bool)
    (xs ys zs : List (Guard σ)) :
    (series settling (xs ++ [series settling ys] ++ zs)).eval o v =
      (series settling (xs ++ ys ++ zs)).eval o v := by
  rw [eval_series_append, eval_series_append, eval_series_singleton, eval_series_append,
    eval_series_append]

/-- A negated list stops where the list of the negations does, since the answer that settles it
is negated as well. -/
theorem eval_not_series (o : Options) (v : Value) (settling : Bool) (gs : List (Guard σ)) :
    (series settling gs).not.eval o v = (series (!settling) (gs.map .not)).eval o v := by
  induction gs with
  | nil => rw [List.map_nil, eval_not, eval_series_nil, eval_series_nil, pure_bind]
  | cons g gs ih =>
    rw [List.map_cons, eval_not, eval_series_cons, eval_series_cons, eval_not, bind_assoc,
      bind_assoc]
    apply bind_congr
    intro answer
    rw [pure_bind]
    by_cases hsettled : answer = settling
    · rw [if_pos hsettled, if_pos (congrArg Bool.not hsettled), pure_bind]
    · have hopen : (!answer) ≠ !settling := fun h => hsettled (Bool.not_inj h)
      rw [if_neg hsettled, if_neg hopen, ← ih, eval_not]

/-! ## Answers, states and calls -/

/-- The calls that a guard makes. -/
def calls (o : Options) (v : Value) (g : Guard σ) (s : σ) : List (Call σ) :=
  callsOf (g.watched.eval o v).run s

/-- Two guards that nothing can tell apart. In every state they give every value the same answer
or the same failure, make the same calls in the same order, and leave the same state. -/
def Equivalent (g h : Guard σ) : Prop :=
  ∀ o v s, (g.eval o v).run.run s = (h.eval o v).run.run s ∧ g.calls o v s = h.calls o v s

/-- Watching a guard shows all there is to its evaluation. -/
theorem Equivalent.of_watched {g h : Guard σ}
    (heval : ∀ o v, g.watched.eval o v = h.watched.eval o v) : Equivalent g h := by
  intro o v s
  obtain ⟨answer, calls, s₁, hg⟩ := exists_answers o v g s
  obtain ⟨answer', calls', s₁', hh⟩ := exists_answers o v h s
  have hlogged := hg.observed.logged []
  rw [heval, hh.observed.logged] at hlogged
  simp only [id, List.nil_append] at hlogged
  obtain ⟨rfl, rfl, rfl⟩ := hlogged
  exact ⟨hg.observed.run.trans hh.observed.run.symm,
    hg.observed.callsOf_eq.trans hh.observed.callsOf_eq.symm⟩

theorem watched_series_map (settling : Bool) (gs : List (Guard σ)) :
    (series settling gs).watched = series settling (gs.map watched) := by
  have hlist : watchedList gs = gs.map watched := by
    induction gs with
    | nil => rfl
    | cons g gs ih => rw [watchedList, ih, List.map_cons]
  rw [watched_series, hlist]

theorem equivalent_not_series (settling : Bool) (gs : List (Guard σ)) :
    Equivalent (series settling gs).not (series (!settling) (gs.map .not)) := by
  apply Equivalent.of_watched
  intro o v
  have hmap : (gs.map .not).map watched = (gs.map watched).map .not := by
    rw [List.map_map, List.map_map]
    rfl
  rw [watched, watched_series_map, watched_series_map, hmap]
  exact eval_not_series o v settling _

theorem equivalent_series_flatten (settling : Bool) (xs ys zs : List (Guard σ)) :
    Equivalent (series settling (xs ++ [series settling ys] ++ zs))
      (series settling (xs ++ ys ++ zs)) := by
  apply Equivalent.of_watched
  intro o v
  rw [watched_series_map, watched_series_map]
  simp only [List.map_append, List.map_cons, List.map_nil, watched_series_map]
  exact eval_series_flatten o v settling _ _ _

theorem equivalent_not_not (g : Guard σ) : Equivalent g.not.not g := by
  apply Equivalent.of_watched
  intro o v
  rw [watched, watched]
  exact eval_not_not o v g.watched

/-- De Morgan's laws, double negation and association, with failures and effects. -/
theorem boolean_laws (g : Guard σ) (gs xs ys zs : List (Guard σ)) :
    Equivalent (.not (.all gs)) (.any (gs.map .not)) ∧
    Equivalent (.not (.any gs)) (.all (gs.map .not)) ∧
    Equivalent (.not (.not g)) g ∧
    Equivalent (.all (xs ++ [.all ys] ++ zs)) (.all (xs ++ ys ++ zs)) ∧
    Equivalent (.any (xs ++ [.any ys] ++ zs)) (.any (xs ++ ys ++ zs)) :=
  ⟨equivalent_not_series false gs, equivalent_not_series true gs, equivalent_not_not g,
    equivalent_series_flatten false xs ys zs, equivalent_series_flatten true xs ys zs⟩

/-- The predicate counts its calls and fails at the second one. Both sides stop there. -/
theorem boolean_laws_counting :
    let counting : Guard Nat := .fallible fun _ => ExceptT.mk fun n =>
      (if n = 1 then .error ⟨"second call"⟩ else .ok true, n + 1)
    let guards := [counting, counting, counting]
    let stopped : Except PredicateFailure Bool × Nat := (.error ⟨"second call"⟩, 2)
    ((Guard.not (.all guards)).eval {} .null).run.run 0 = stopped ∧
      ((Guard.any (guards.map .not)).eval {} .null).run.run 0 = stopped ∧
      (Guard.any (guards.map .not)).calls {} .null 0 =
        (Guard.not (.all guards)).calls {} .null 0 := by
  intro counting guards stopped
  have hall : ((Guard.not (.all guards)).eval {} .null).run.run 0 = stopped := rfl
  obtain ⟨hlaw, -⟩ := boolean_laws counting guards [] [] []
  obtain ⟨hrun, hcalls⟩ := hlaw {} .null 0
  exact ⟨hall, hrun.symm.trans hall, hcalls.symm⟩

end ShapeTyping.Guard
