import ShapeTyping.Narrowing.Selection
import ShapeTyping.Proofs.Guard.Unvarying
import ShapeTyping.Proofs.Narrowing.FirstMatch
/-! Selecting by variant is one pass over the values, and the passes for all tags share the
values out: a value is of one variant, fails in every pass, or is of none. -/
namespace ShapeTyping

variable {σ : Type}

namespace Registry

/-- Starts empty and grows by registering variants. -/
inductive Built : Registry σ → Prop
  | empty (o : Options) : Built (.empty o)
  | register {r r' : Registry σ} {variant : Variant σ} (hr : Built r)
      (h : r.register variant = .ok r') : Built r'

theorem Built.nodup_tags {r : Registry σ} (hr : r.Built) : r.tags.Nodup := by
  induction hr with
  | empty o => exact List.nodup_nil
  | @register r r' variant _ h ih =>
    unfold Registry.register at h
    split at h
    · cases h
    · rename_i hnew
      cases h
      have hfresh : variant.tag ∉ r.tags := by
        rwa [List.contains_iff_mem] at hnew
      show ((r.variants ++ [variant]).map fun variant => variant.tag).Nodup
      rw [List.map_append, List.nodup_append]
      refine ⟨ih, List.nodup_singleton _, ?_⟩
      intro tag htag tag' htag' heq
      have hown : tag' = variant.tag := List.mem_singleton.mp htag'
      rw [heq, hown] at htag
      exact hfresh htag

theorem constant_search {variants : List (Variant σ)} (o : Options) (v : Value)
    (h : ∀ variant ∈ variants, variant.guard.Unvarying) : Constant (search o v variants) := by
  induction variants with
  | nil => exact .pure _
  | cons variant variants ih =>
    rw [List.forall_mem_cons] at h
    rw [search_cons]
    apply (h.1.constant_eval o v).bind
    intro answer
    match answer with
    | .ok true => exact .pure _
    | .ok false => exact ih h.2
    | .error cause => exact .pure _

theorem constant_narrow {r : Registry σ} (h : ∀ variant ∈ r.variants, variant.guard.Unvarying)
    (v : Value) : Constant (r.narrow v) := by
  rw [narrow_eq_search]
  exact constant_search r.options v h

theorem mem_of_narrow {r : Registry σ} {v : Value} {variant : Variant σ} {s s' : σ}
    (h : (r.narrow v).run s = (.ok variant, s')) : variant ∈ r.variants := by
  obtain ⟨result, calls, s₁, hnarrows⟩ := exists_narrows r v s
  rw [narrow_eq_search] at h
  cases h.symm.trans hnarrows.found.run
  cases hnarrows with
  | matched stops verified =>
    cases stops with
    | mk split declined answers stop =>
      rw [split]
      exact List.mem_append_right _ List.mem_cons_self

end Registry

namespace Selection

/-! ## One pass over the values -/

/-- What a pass makes of one value: nothing, the value, or an error in its place. -/
abbrev Yield := Option (Except NarrowingError Value)

/-- What a value yields in the pass for a tag, by the result of narrowing it. -/
inductive Yields (tag : String) (v : Value) : Except NarrowingError (Variant σ) → Yield → Prop
  | own {variant : Variant σ} (h : variant.tag = tag) : Yields tag v (.ok variant) (some (.ok v))
  | other {variant : Variant σ} (h : variant.tag ≠ tag) : Yields tag v (.ok variant) none
  | noMatch : Yields tag v (.error .noMatch) none
  | failed {e : NarrowingError} (h : e ≠ .noMatch) : Yields tag v (.error e) (some (.error e))

/-- Narrows every value once, in order, each in the state that the one before it left. -/
inductive Pass (r : Registry σ) (tag : String) : List Value → σ → List Yield → σ → Prop
  | nil (s : σ) : Pass r tag [] s [] s
  | cons {v : Value} {vs : List Value} {s s₁ s' : σ} {result : Except NarrowingError (Variant σ)}
      {y : Yield} {ys : List Yield} (narrowed : (r.narrow v).run s = (result, s₁))
      (yields : Yields tag v result y) (rest : Pass r tag vs s₁ ys s') :
      Pass r tag (v :: vs) s (y :: ys) s'

/-- Asks for the next item again and again, up to the first time that there is none. -/
inductive Drained : Selection σ → σ → List (Except NarrowingError Value) → Selection σ → σ → Prop
  | done {selection rest : Selection σ} {s s' : σ}
      (h : selection.next.run s = ((none, rest), s')) : Drained selection s [] rest s'
  | more {selection selection' rest : Selection σ} {s s₁ s' : σ}
      {item : Except NarrowingError Value} {items : List (Except NarrowingError Value)}
      (h : selection.next.run s = ((some item, selection'), s₁))
      (others : Drained selection' s₁ items rest s') : Drained selection s (item :: items) rest s'

variable {r : Registry σ} {tag : String} {v : Value} {vs values : List Value} {s s₁ s' : σ}
  {result : Except NarrowingError (Variant σ)} {y : Yield} {ys : List Yield}

theorem yields_contribution (tag : String) (v : Value)
    (result : Except NarrowingError (Variant σ)) :
    Yields tag v result (contribution tag v result) := by
  match result with
  | .ok variant =>
    show Yields tag v _ (if variant.tag == tag then some (.ok v) else none)
    by_cases htag : variant.tag = tag
    · rw [if_pos (beq_iff_eq.mpr htag)]
      exact .own htag
    · rw [if_neg (mt beq_iff_eq.mp htag)]
      exact .other htag
  | .error .noMatch => exact .noMatch
  | .error (.predicateFailure tag' cause) => exact .failed (by intro h; cases h)
  | .error (.duplicateVariant tag') => exact .failed (by intro h; cases h)
  | .error (.shapeAssertion tag' violation) => exact .failed (by intro h; cases h)

theorem Yields.unique {y' : Yield} (h : Yields tag v result y) (h' : Yields tag v result y') :
    y = y' := by
  cases h <;> cases h' <;> first | rfl | contradiction

theorem Yields.contribution_eq (h : Yields tag v result y) : contribution tag v result = y :=
  (yields_contribution tag v result).unique h

theorem exists_pass (r : Registry σ) (tag : String) (values : List Value) (s : σ) :
    ∃ ys s', Pass r tag values s ys s' := by
  induction values generalizing s with
  | nil => exact ⟨[], s, .nil s⟩
  | cons v vs ih =>
    obtain ⟨ys, s', hpass⟩ := ih ((r.narrow v).run s).2
    exact ⟨_, s', .cons rfl (yields_contribution tag v _) hpass⟩

/-! ## Draining, item by item and at once -/

/-- What is drained is decided by what comes next. -/
theorem Drained.of_next_eq {selection selection' rest : Selection σ}
    {items : List (Except NarrowingError Value)} (h : Drained selection' s₁ items rest s')
    (hnext : selection.next.run s = selection'.next.run s₁) :
    Drained selection s items rest s' := by
  cases h with
  | done h => exact .done (hnext.trans h)
  | more h others => exact .more (hnext.trans h) others

theorem Drained.unique {selection rest rest' : Selection σ} {s₂ : σ}
    {items items' : List (Except NarrowingError Value)} (h : Drained selection s items rest s')
    (h' : Drained selection s items' rest' s₂) : items = items' ∧ rest = rest' ∧ s' = s₂ := by
  induction h generalizing items' with
  | done h =>
    cases h' with
    | done h' =>
      cases h.symm.trans h'
      exact ⟨rfl, rfl, rfl⟩
    | more h' others => cases h.symm.trans h'
  | more h _ ih =>
    cases h' with
    | done h' => cases h.symm.trans h'
    | more h' others =>
      cases h.symm.trans h'
      obtain ⟨rfl, rfl, rfl⟩ := ih others
      exact ⟨rfl, rfl, rfl⟩

/-- After a value that yields nothing the search for an item goes on. -/
theorem run_nextFrom_cons (tag : String) (vs : List Value)
    (narrowed : (r.narrow v).run s = (result, s₁)) :
    (nextFrom r tag (v :: vs)).run s =
      match contribution tag v result with
      | some item => ((some item, vs), s₁)
      | none => (nextFrom r tag vs).run s₁ := by
  rw [nextFrom, StateT.run_bind, narrowed]
  show StateT.run (match contribution tag v result with
    | some item => pure (some item, vs)
    | none => nextFrom r tag vs) s₁ = _
  cases contribution tag v result <;> rfl

theorem run_next_of_some {item : Except NarrowingError Value}
    (narrowed : (r.narrow v).run s = (result, s₁)) (yields : Yields tag v result (some item)) :
    (r.select tag (v :: vs)).next.run s = ((some item, r.select tag vs), s₁) := by
  have hfrom := run_nextFrom_cons tag vs narrowed
  rw [yields.contribution_eq] at hfrom
  show StateT.run (nextFrom r tag (v :: vs) >>= _) s = _
  rw [StateT.run_bind, hfrom]
  rfl

theorem run_next_of_none (narrowed : (r.narrow v).run s = (result, s₁))
    (yields : Yields tag v result none) :
    (r.select tag (v :: vs)).next.run s = (r.select tag vs).next.run s₁ := by
  have hfrom := run_nextFrom_cons tag vs narrowed
  rw [yields.contribution_eq] at hfrom
  show StateT.run (nextFrom r tag (v :: vs) >>= _) s = StateT.run (nextFrom r tag vs >>= _) s₁
  rw [StateT.run_bind, StateT.run_bind, hfrom]
  rfl

theorem Pass.drained (h : Pass r tag values s ys s') :
    Drained (r.select tag values) s (ys.filterMap id) (r.select tag []) s' := by
  induction h with
  | nil s => exact .done rfl
  | @cons v vs s s₁ s' result y ys narrowed yields _ ih =>
    cases y with
    -- A value that yields nothing is passed over within one call.
    | none => exact ih.of_next_eq (run_next_of_none narrowed yields)
    | some item => exact .more (run_next_of_some narrowed yields) ih

theorem Pass.run_drainFrom (h : Pass r tag values s ys s') :
    (drainFrom r tag values).run s = (ys.filterMap id, s') := by
  induction h with
  | nil s => rfl
  | @cons v vs s s₁ s' result y ys narrowed yields _ ih =>
    rw [drainFrom, StateT.run_bind, narrowed, ← yields.contribution_eq]
    show StateT.run (drainFrom r tag vs >>= _) s₁ = _
    rw [StateT.run_bind, ih]
    cases contribution tag v result <;> rfl

theorem run_drain (h : Pass r tag values s ys s') :
    (r.select tag values).drain.run s = ((ys.filterMap id, r.select tag []), s') := by
  show StateT.run (drainFrom r tag values >>= _) s = _
  rw [StateT.run_bind, h.run_drainFrom]
  rfl

theorem drained_iff_pass {items : List (Except NarrowingError Value)} {rest : Selection σ} :
    Drained (r.select tag values) s items rest s' ↔
      rest = r.select tag [] ∧ ∃ ys, Pass r tag values s ys s' ∧ items = ys.filterMap id := by
  constructor
  · intro h
    obtain ⟨ys, s₁, hpass⟩ := exists_pass r tag values s
    obtain ⟨rfl, rfl, rfl⟩ := h.unique hpass.drained
    exact ⟨rfl, ys, hpass, rfl⟩
  · rintro ⟨rfl, ys, hpass, rfl⟩
    exact hpass.drained

theorem drained_iff_run_drain {items : List (Except NarrowingError Value)}
    {rest : Selection σ} :
    Drained (r.select tag values) s items rest s' ↔
      (r.select tag values).drain.run s = ((items, rest), s') := by
  obtain ⟨ys, s₁, hpass⟩ := exists_pass r tag values s
  rw [run_drain hpass]
  constructor
  · intro h
    obtain ⟨rfl, rfl, rfl⟩ := h.unique hpass.drained
    rfl
  · intro h
    cases h
    exact hpass.drained

/-- The values of the second list are narrowed from where the first has left the state. -/
theorem drainFrom_append (r : Registry σ) (tag : String) (xs ys : List Value) :
    drainFrom r tag (xs ++ ys) =
      (do
        let first ← drainFrom r tag xs
        let second ← drainFrom r tag ys
        pure (first ++ second)) := by
  induction xs with
  | nil => simp [drainFrom]
  | cons v vs ih =>
    simp only [List.cons_append, drainFrom, ih, bind_assoc, pure_bind, List.append_assoc]

theorem drain_append (r : Registry σ) (tag : String) (xs ys : List Value) :
    (r.select tag (xs ++ ys)).drain =
      (do
        let (first, _) ← (r.select tag xs).drain
        let (second, rest) ← (r.select tag ys).drain
        pure (first ++ second, rest)) := by
  simp [drain, Registry.select, drainFrom_append]

/-! ## The passes for all tags -/

/-- What the pass for a tag makes of the value at a position. -/
def YieldsAt (r : Registry σ) (tag : String) (values : List Value) (s : σ) (i : Nat)
    (y : Yield) : Prop :=
  ∃ ys s', Pass r tag values s ys s' ∧ ys[i]? = some y

/-- One pass yields the value, and the others nothing. -/
def YieldedOnce (v : Value) (ys : List Yield) : Prop :=
  (∃ k : Nat, ys[k]? = some (some (.ok v)) ∧
      ∀ k' : Nat, ys[k']? = some (some (.ok v)) → k' = k) ∧
    ∀ y ∈ ys, y = some (.ok v) ∨ y = none

/-- All passes yield the same error. -/
def YieldedAlike (ys : List Yield) : Prop := ∃ e, ∀ y ∈ ys, y = some (.error e)

/-- No pass yields anything. -/
def NeverYielded (ys : List Yield) : Prop := ∀ y ∈ ys, y = none

/-- One of three holds, and the two others do not. -/
def ExactlyOne (a b c : Prop) : Prop := (a ∧ ¬b ∧ ¬c) ∨ (¬a ∧ b ∧ ¬c) ∨ (¬a ∧ ¬b ∧ c)

theorem Pass.yields_at {i : Nat} (h : Pass r tag values s ys s') (hi : values[i]? = some v) :
    ∃ s₁, ys[i]? = some (contribution tag v ((r.narrow v).run s₁).1) := by
  induction h generalizing i with
  | nil s => cases hi
  | @cons w vs s s₁ s' result y ys narrowed yields _ ih =>
    cases i with
    | zero =>
      cases hi
      refine ⟨s, ?_⟩
      rw [narrowed, yields.contribution_eq]
      rfl
    | succ i => exact ih hi

theorem YieldedAlike.not_once (h : YieldedAlike ys) : ¬YieldedOnce v ys := by
  rintro ⟨⟨k, hk, -⟩, -⟩
  obtain ⟨e, he⟩ := h
  cases he _ (List.mem_of_getElem? hk)

theorem NeverYielded.not_once (h : NeverYielded ys) : ¬YieldedOnce v ys := by
  rintro ⟨⟨k, hk, -⟩, -⟩
  cases h _ (List.mem_of_getElem? hk)

theorem NeverYielded.not_alike (h : NeverYielded ys) (hne : ys ≠ []) : ¬YieldedAlike ys := by
  rintro ⟨e, he⟩
  obtain ⟨y, hy⟩ := List.exists_mem_of_ne_nil ys hne
  cases (he y hy).symm.trans (h y hy)

/-- A tag is registered once, so a match is yielded in one pass. -/
theorem yieldedOnce_of_mem {variant : Variant σ} (hr : r.Built) (h : variant ∈ r.variants)
    (v : Value) : YieldedOnce v (r.tags.map fun tag => contribution tag v (.ok variant)) := by
  have hown : contribution variant.tag v (.ok variant) = some (.ok v) :=
    (Yields.own rfl).contribution_eq
  have hmem : variant.tag ∈ r.tags := List.mem_map_of_mem h
  obtain ⟨k, hk⟩ := List.getElem?_of_mem hmem
  refine ⟨⟨k, ?_, ?_⟩, ?_⟩
  · rw [List.getElem?_map, hk]
    exact congrArg some hown
  · -- Another pass that yields the value is for the same tag, and tags do not repeat.
    intro k' hk'
    rw [List.getElem?_map, Option.map_eq_some_iff] at hk'
    obtain ⟨tag, htag, hvalue⟩ := hk'
    have hyields := yields_contribution tag v (.ok variant)
    rw [hvalue] at hyields
    cases hyields with
    | own hsame =>
      have hlt : k' < r.tags.length := (List.getElem?_eq_some_iff.mp htag).1
      rw [← hsame, ← hk] at htag
      exact (List.getElem?_inj hlt hr.nodup_tags).mp htag
  · intro y hy
    obtain ⟨tag, -, heq⟩ := List.mem_map.mp hy
    have hyields := yields_contribution tag v (.ok variant)
    rw [heq] at hyields
    cases hyields with
    | own _ => exact .inl rfl
    | other _ => exact .inr rfl

theorem forall_mem_map_tags {out : String → Yield} {y : Yield} (h : ∀ tag, out tag = y) :
    ∀ y' ∈ r.tags.map out, y' = y := by
  intro y' hy'
  obtain ⟨tag, -, rfl⟩ := List.mem_map.mp hy'
  exact h tag

/-- What the passes for all tags make of one result. -/
theorem exactlyOne_of_result (hr : r.Built) (hne : r.variants ≠ [])
    (hresult : ∀ variant, result = .ok variant → variant ∈ r.variants) (v : Value) :
    let ys := r.tags.map fun tag => contribution tag v result
    ExactlyOne (YieldedOnce v ys) (YieldedAlike ys) (NeverYielded ys) ∧
      (NeverYielded ys ↔ result = .error .noMatch) := by
  intro ys
  have hys : ys ≠ [] := by
    simpa [ys, Registry.tags] using hne
  by_cases hmatch : result = .error .noMatch
  · have hnever : NeverYielded ys := by
      subst hmatch
      exact forall_mem_map_tags fun tag => rfl
    exact ⟨.inr (.inr ⟨hnever.not_once, hnever.not_alike hys, hnever⟩),
      iff_of_true hnever hmatch⟩
  · rcases result with e | variant
    · have halike : YieldedAlike ys := by
        refine ⟨e, forall_mem_map_tags fun tag => ?_⟩
        exact (Yields.failed fun h => hmatch (congrArg Except.error h)).contribution_eq
      have hsome : ¬NeverYielded ys := fun h => h.not_alike hys halike
      exact ⟨.inr (.inl ⟨halike.not_once, halike, hsome⟩), iff_of_false hsome hmatch⟩
    · have honce : YieldedOnce v ys := yieldedOnce_of_mem hr (hresult variant rfl) v
      have hsome : ¬NeverYielded ys := fun h => h.not_once honce
      exact ⟨.inl ⟨honce, fun h => h.not_once honce, hsome⟩, iff_of_false hsome hmatch⟩

end Selection

namespace Registry
open Selection

/-- Selecting by variant narrows every value once and in order, and keeps the values of the
variant and the errors. Where predicates answer alike in every state, a value is yielded in
the pass for one tag, or its error in all, or neither in any. -/
theorem select_partitions (r : Registry σ) (hr : r.Built) :
    (∀ tag values s items rest s',
      (Drained (r.select tag values) s items rest s' ↔
        (r.select tag values).drain.run s = ((items, rest), s')) ∧
      (Drained (r.select tag values) s items rest s' ↔
        rest = r.select tag [] ∧
          ∃ ys, Pass r tag values s ys s' ∧ items = ys.filterMap id)) ∧
    (∀ tag xs ys, (r.select tag (xs ++ ys)).drain =
      (do
        let (first, _) ← (r.select tag xs).drain
        let (second, rest) ← (r.select tag ys).drain
        pure (first ++ second, rest))) ∧
    ((∀ variant ∈ r.variants, variant.guard.Unvarying) → r.variants ≠ [] →
      ∀ (values : List Value) (starts : String → σ) (i : Nat) (v : Value), values[i]? = some v →
      ∃ out : String → Yield, (∀ tag, YieldsAt r tag values (starts tag) i (out tag)) ∧
        ExactlyOne (YieldedOnce v (r.tags.map out)) (YieldedAlike (r.tags.map out))
          (NeverYielded (r.tags.map out)) ∧
        (NeverYielded (r.tags.map out) ↔
          ∀ s, ((r.narrow v).run s).1 = .error .noMatch)) := by
  refine ⟨?_, drain_append r, ?_⟩
  · intro tag values s items rest s'
    exact ⟨drained_iff_run_drain, drained_iff_pass⟩
  · intro hpure hne values starts i v hi
    -- Wherever the passes start and whatever they did before, they narrow to one result.
    obtain ⟨result, hresult⟩ := constant_narrow hpure v
    have hmem : ∀ variant, result = .ok variant → variant ∈ r.variants := by
      intro variant h
      have hnarrow := hresult (starts variant.tag)
      rw [h] at hnarrow
      exact mem_of_narrow (Prod.ext hnarrow rfl)
    obtain ⟨hone, hnever⟩ := exactlyOne_of_result hr hne hmem v
    refine ⟨fun tag => contribution tag v result, ?_, hone, hnever.trans ?_⟩
    · intro tag
      obtain ⟨ys, s', hpass⟩ := exists_pass r tag values (starts tag)
      obtain ⟨s₁, hy⟩ := hpass.yields_at hi
      refine ⟨ys, s', hpass, hy.trans ?_⟩
      exact congrArg (fun result => some (contribution tag v result)) (hresult s₁)
    · constructor
      · intro h s
        exact (hresult s).trans h
      · intro h
        exact (hresult (starts "")).symm.trans (h (starts ""))

/-- A predicate that counts its calls answers alike in every state. -/
theorem select_partitions_counted :
    let counted : Guard Nat := .custom fun v => do
      modify (· + 1)
      pure v.isTruthy
    let r : Registry Nat := ⟨[⟨"text", ⟨[]⟩, .typeof .string⟩, ⟨"blank", ⟨[]⟩, .not counted⟩], {}⟩
    let values : List Value := [.string "", .null, .bool true]
    r.Built ∧ (∀ variant ∈ r.variants, variant.guard.Unvarying) ∧
      Drained (r.select "blank" values) 0 [.ok .null] (r.select "blank" []) 2 ∧
      ∃ out : String → Yield, (∀ tag, YieldsAt r tag values tag.length 1 (out tag)) ∧
        ExactlyOne (YieldedOnce .null (r.tags.map out)) (YieldedAlike (r.tags.map out))
          (NeverYielded (r.tags.map out)) ∧ ¬NeverYielded (r.tags.map out) := by
  intro counted r values
  have hr : r.Built := by
    let r₁ : Registry Nat := ⟨[⟨"text", ⟨[]⟩, .typeof .string⟩], {}⟩
    have htext : (empty {}).register ⟨"text", ⟨[]⟩, .typeof .string⟩ = .ok r₁ := rfl
    have hblank : r₁.register ⟨"blank", ⟨[]⟩, .not counted⟩ = .ok r := rfl
    exact .register (.register (.empty {}) htext) hblank
  have hpure : ∀ variant ∈ r.variants, variant.guard.Unvarying := by
    simp only [r, List.forall_mem_cons]
    refine ⟨?_, ?_, ?_⟩
    · intro test h
      cases h
    · intro test h
      cases h with
      | head => exact fun v => ⟨_, fun s => rfl⟩
      | tail _ h => cases h
    · intro variant h
      cases h
  obtain ⟨hdrain, -, hparts⟩ := select_partitions r hr
  have hrun : (r.select "blank" values).drain.run 0 = (([.ok .null], r.select "blank" []), 2) := by
    simp only [drain, select, drainFrom, values, narrow_eq_search]
    rfl
  have hdrained := (hdrain "blank" values 0 [.ok .null] (r.select "blank" []) 2).1.mpr hrun
  obtain ⟨out, hout, hone, hnever⟩ :=
    hparts hpure (by intro h; cases h) values (fun tag => tag.length) 1 .null rfl
  refine ⟨hr, hpure, hdrained, out, hout, hone, fun h => ?_⟩
  have hnull := hnever.mp h 0
  rw [narrow_eq_search] at hnull
  cases hnull

end Registry
end ShapeTyping
