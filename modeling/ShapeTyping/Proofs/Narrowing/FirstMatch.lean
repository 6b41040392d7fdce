import ShapeTyping.Proofs.Conformance.Budget
import ShapeTyping.Proofs.Guard.Calls
import ShapeTyping.Proofs.Narrowing.Machine
/-! Narrowing is a search for the first variant whose guard does not say no. Every guard up
to that one is evaluated once, in order and in the state that the one before it left, and
no other is. -/
namespace ShapeTyping

variable {σ : Type}

namespace Registry

/-- The guards of some variants are evaluated one after the other, and all say no. -/
inductive Declined (o : Options) (v : Value) : List (Variant σ) → σ → List (Call σ) → σ → Prop
  | nil (s : σ) : Declined o v [] s [] s
  | cons {variant : Variant σ} {variants : List (Variant σ)} {s s₁ s' : σ}
      {calls calls' : List (Call σ)} (no : variant.guard.Answers o v s (.ok false) calls s₁)
      (rest : Declined o v variants s₁ calls' s') :
      Declined o v (variant :: variants) s (calls ++ calls') s'

/-- The search comes to a variant, all before it have declined, and its guard gives this
answer, which is not a no. -/
inductive StopsAt (o : Options) (v : Value) (variants : List (Variant σ)) (s : σ)
    (variant : Variant σ) (answer : Except PredicateFailure Bool) : List (Call σ) → σ → Prop
  | mk {before after : List (Variant σ)} {s₁ s' : σ} {calls calls' : List (Call σ)}
      (split : variants = before ++ variant :: after)
      (declined : Declined o v before s calls s₁)
      (answers : variant.guard.Answers o v s₁ answer calls' s') (stop : answer ≠ .ok false) :
      StopsAt o v variants s variant answer (calls ++ calls') s'

/-- What narrowing a value comes to: a result, the calls made for it, and the state left. -/
inductive Narrows (r : Registry σ) (v : Value) (s : σ) :
    Except NarrowingError (Variant σ) → List (Call σ) → σ → Prop
  | noMatch {calls : List (Call σ)} {s' : σ}
      (declined : Declined r.options v r.variants s calls s') :
      Narrows r v s (.error .noMatch) calls s'
  | failed {variant : Variant σ} {cause : PredicateFailure} {calls : List (Call σ)} {s' : σ}
      (stops : StopsAt r.options v r.variants s variant (.error cause) calls s') :
      Narrows r v s (.error (.predicateFailure variant.tag cause)) calls s'
  | matched {variant : Variant σ} {calls : List (Call σ)} {s' : σ}
      (stops : StopsAt r.options v r.variants s variant (.ok true) calls s')
      (verified : r.options.verifyVariantShapes = true →
        v.conformsToShape variant.shape r.options = .ok ()) :
      Narrows r v s (.ok variant) calls s'
  | refuted {variant : Variant σ} {violation : Violation} {calls : List (Call σ)} {s' : σ}
      (stops : StopsAt r.options v r.variants s variant (.ok true) calls s')
      (verify : r.options.verifyVariantShapes = true)
      (violated : v.conformsToShape variant.shape r.options = .error violation) :
      Narrows r v s (.error (.shapeAssertion variant.tag violation)) calls s'

/-! ## The search with a log -/

end Registry

/-- The variant with a guard that is watched. -/
def Variant.watched (variant : Variant σ) : Variant (σ × List (Call σ)) :=
  ⟨variant.tag, variant.shape, variant.guard.watched⟩

namespace Registry

/-- The same variants under the same options, with guards that are watched. -/
def watched (r : Registry σ) : Registry (σ × List (Call σ)) :=
  ⟨r.variants.map Variant.watched, r.options⟩

/-- The predicates that narrowing a value calls. -/
def calls (r : Registry σ) (v : Value) (s : σ) : List (Call σ) := callsOf (r.watched.narrow v) s

theorem confirm_watched (o : Options) (v : Value) (variant : Variant σ) :
    confirm o v variant.watched = (confirm o v variant).map Variant.watched := by
  have hshape : variant.watched.shape = variant.shape := rfl
  unfold confirm
  rw [hshape]
  cases o.verifyVariantShapes with
  | false => rfl
  | true => cases v.conformsToShape variant.shape o <;> rfl

/-- How the search goes on after the answer of a guard. -/
def proceed (o : Options) (v : Value) (variant : Variant σ) (variants : List (Variant σ)) :
    Except PredicateFailure Bool → StateM σ (Except NarrowingError (Variant σ))
  | .ok true => pure (confirm o v variant)
  | .ok false => search o v variants
  | .error cause => pure (.error (.predicateFailure variant.tag cause))

theorem search_cons (o : Options) (v : Value) (variant : Variant σ)
    (variants : List (Variant σ)) :
    search o v (variant :: variants) =
      (variant.guard.eval o v).run >>= proceed o v variant variants := rfl

/-! ## One variant at a time -/

/-- In a state the search gives a result, makes some calls and leaves a state. -/
def Found (o : Options) (v : Value) (variants : List (Variant σ)) :
    σ → Except NarrowingError (Variant σ) → List (Call σ) → σ → Prop :=
  Observed (Except.map Variant.watched) (search o v variants)
    (search o v (variants.map Variant.watched))

variable {o : Options} {v : Value} {variant : Variant σ} {variants : List (Variant σ)}
  {s s₁ s' : σ} {calls calls' : List (Call σ)} {result : Except NarrowingError (Variant σ)}

theorem Found.nil (o : Options) (v : Value) (s : σ) : Found o v [] s (.error .noMatch) [] s :=
  .pure (Except.map Variant.watched) (Except.error NarrowingError.noMatch) s

/-- What follows an answer starts in the state that the guard left. -/
theorem Found.of_answers {answer : Except PredicateFailure Bool}
    (h : variant.guard.Answers o v s answer calls s₁)
    (rest : Observed (Except.map Variant.watched) (proceed o v variant variants answer)
      (proceed o v variant.watched (variants.map Variant.watched) answer) s₁ result calls' s') :
    Found o v (variant :: variants) s result (calls ++ calls') s' := by
  unfold Found
  rw [List.map_cons, search_cons, search_cons]
  exact h.observed.bind rest

theorem Found.of_yes (h : variant.guard.Answers o v s (.ok true) calls s') :
    Found o v (variant :: variants) s (confirm o v variant) calls s' := by
  rw [← List.append_nil calls]
  apply Found.of_answers h
  show Observed _ (pure (confirm o v variant)) (pure (confirm o v variant.watched)) s' _ [] s'
  rw [confirm_watched]
  exact .pure _ _ s'

theorem Found.of_failure {cause : PredicateFailure}
    (h : variant.guard.Answers o v s (.error cause) calls s') :
    Found o v (variant :: variants) s (.error (.predicateFailure variant.tag cause)) calls s' := by
  rw [← List.append_nil calls]
  apply Found.of_answers h
  exact .pure _ (Except.error (NarrowingError.predicateFailure variant.tag cause)) s'

/-- Those that decline can be left out of the search. -/
theorem Declined.found {before : List (Variant σ)} (h : Declined o v before s calls s₁)
    (rest : Found o v variants s₁ result calls' s') :
    Found o v (before ++ variants) s result (calls ++ calls') s' := by
  induction h with
  | nil s => exact rest
  | cons no _ ih =>
    rw [List.append_assoc]
    exact .of_answers no (ih rest)

/-- Either all decline, or the search stops at one. -/
theorem exists_declined_or_stopsAt (o : Options) (v : Value) (variants : List (Variant σ))
    (s : σ) :
    (∃ calls s', Declined o v variants s calls s') ∨
      ∃ variant answer calls s', StopsAt o v variants s variant answer calls s' := by
  induction variants generalizing s with
  | nil => exact .inl ⟨[], s, .nil s⟩
  | cons variant variants ih =>
    obtain ⟨answer, calls, s₁, hanswers⟩ := variant.guard.exists_answers o v s
    by_cases hno : answer = .ok false
    · subst hno
      rcases ih s₁ with ⟨calls', s', hdeclined⟩ | ⟨found, answer, _, s', hstops⟩
      · exact .inl ⟨_, s', .cons hanswers hdeclined⟩
      · cases hstops with
        | mk split declined answers stop =>
          subst split
          exact .inr ⟨found, answer, _, s', .mk rfl (.cons hanswers declined) answers stop⟩
    · exact .inr ⟨variant, answer, _, s₁, .mk rfl (.nil s) hanswers hno⟩

/-! ## The whole search -/

theorem confirm_eq_ok (h : o.verifyVariantShapes = true →
    v.conformsToShape variant.shape o = .ok ()) : confirm o v variant = .ok variant := by
  unfold confirm
  cases hverify : o.verifyVariantShapes with
  | false => rfl
  | true =>
    rw [h hverify]
    rfl

theorem confirm_eq_error {violation : Violation} (hverify : o.verifyVariantShapes = true)
    (h : v.conformsToShape variant.shape o = .error violation) :
    confirm o v variant = .error (.shapeAssertion variant.tag violation) := by
  unfold confirm
  rw [hverify, h]
  rfl

theorem Narrows.found {r : Registry σ} (h : Narrows r v s result calls s') :
    Found r.options v r.variants s result calls s' := by
  cases h with
  | noMatch declined =>
    have hfound := declined.found (.nil r.options v s')
    rwa [List.append_nil, List.append_nil] at hfound
  | failed stops =>
    cases stops with
    | mk split declined answers stop =>
      rw [split]
      exact declined.found (.of_failure answers)
  | matched stops verified =>
    cases stops with
    | mk split declined answers stop =>
      rw [split, ← confirm_eq_ok verified]
      exact declined.found (.of_yes answers)
  | refuted stops verify violated =>
    cases stops with
    | mk split declined answers stop =>
      rw [split, ← confirm_eq_error verify violated]
      exact declined.found (.of_yes answers)

theorem exists_narrows (r : Registry σ) (v : Value) (s : σ) :
    ∃ result calls s', Narrows r v s result calls s' := by
  rcases exists_declined_or_stopsAt r.options v r.variants s with
    ⟨calls, s', hdeclined⟩ | ⟨variant, answer, calls, s', hstops⟩
  · exact ⟨_, calls, s', .noMatch hdeclined⟩
  · match answer, hstops with
    | .error cause, hstops => exact ⟨_, calls, s', .failed hstops⟩
    | .ok false, .mk _ _ _ stop => exact absurd rfl stop
    | .ok true, hstops =>
      by_cases hverify : r.options.verifyVariantShapes = true
      · cases hshape : v.conformsToShape variant.shape r.options with
        | ok _ => exact ⟨_, calls, s', .matched hstops fun _ => hshape⟩
        | error violation => exact ⟨_, calls, s', .refuted hstops hverify hshape⟩
      · exact ⟨_, calls, s', .matched hstops fun h => absurd h hverify⟩

theorem narrows_iff {r : Registry σ} :
    Narrows r v s result calls s' ↔
      Observed (Except.map Variant.watched) (r.narrow v) (r.watched.narrow v) s result calls s' := by
  rw [narrow_eq_search, narrow_eq_search]
  constructor
  · intro h
    exact h.found
  · intro hobserved
    obtain ⟨result', calls', s₁, h⟩ := exists_narrows r v s
    cases hobserved.run.symm.trans h.found.run
    cases hobserved.callsOf_eq.symm.trans h.found.callsOf_eq
    exact h

/-! ## With and without a check of shapes -/

/-- The registry with the check of shapes switched on or off. -/
def verifying (verify : Bool) (r : Registry σ) : Registry σ :=
  { r with options := { r.options with verifyVariantShapes := verify } }

/-- The check of shapes comes after all guards, and no guard looks at whether it is on. -/
theorem state_search_verifying (o : Options) (verify : Bool) (v : Value)
    (variants : List (Variant σ)) (s : σ) :
    ((search { o with verifyVariantShapes := verify } v variants).run s).2 =
      ((search o v variants).run s).2 := by
  have ho : ({ o with verifyVariantShapes := verify } : Options).ChecksLike o := ⟨rfl, rfl⟩
  induction variants generalizing s with
  | nil => rfl
  | cons variant variants ih =>
    have hguard : variant.guard.eval { o with verifyVariantShapes := verify } v =
        variant.guard.eval o v := by
      apply Guard.eval_congr
      intro shape
      exact Conformance.checkShape_options ho
    rw [search_cons, search_cons, StateT.run_bind, StateT.run_bind, hguard]
    rcases (variant.guard.eval o v).run.run s with ⟨cause | accepted, s₁⟩
    · rfl
    · cases accepted with
      | true => rfl
      | false => exact ih s₁

/-- Narrowing finds the first variant whose guard does not say no, with exactly the calls
that the guards up to it make, and these do not depend on whether shapes are verified. Going from
state to state comes to the same as searching the variants, with or without a log, and is given up
only when all variants have been tried. -/
theorem narrow_first_match (r : Registry σ) (v : Value) (s : σ) :
    (∀ result calls s',
      Observed (Except.map Variant.watched) (r.narrow v) (r.watched.narrow v) s result calls s' ↔
        Narrows r v s result calls s') ∧
    (r.narrow v = search r.options v r.variants ∧
      r.watched.narrow v = search r.options v r.watched.variants) ∧
    (∀ state s₁ s₂, Reaches r v s state s₁ → (r.step v state).run s₁ = (.leave, s₂) →
      state = .exhausted) ∧
    ∀ verify, (r.verifying verify).calls v s = r.calls v s := by
  refine ⟨fun result calls s' => narrows_iff.symm,
    ⟨narrow_eq_search r v, narrow_eq_search r.watched v⟩,
    fun state s₁ s₂ hreaches hleave => hreaches.eq_exhausted hleave, fun verify => ?_⟩
  have hstate := state_search_verifying r.options verify v r.watched.variants (s, [])
  unfold calls
  rw [narrow_eq_search, narrow_eq_search]
  exact congrArg Prod.snd hstate

end Registry
end ShapeTyping
