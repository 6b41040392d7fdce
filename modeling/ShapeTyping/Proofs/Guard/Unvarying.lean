import ShapeTyping.Proofs.Guard.Series
/-! Guards that give a value the same answer in every state, because the predicates in them
do. -/
namespace ShapeTyping

variable {σ α β : Type}

/-- Gives one result, whatever the state is. What becomes of the state is left open. -/
def Constant (m : StateM σ α) : Prop := ∃ a, ∀ s, (m.run s).1 = a

theorem Constant.pure (a : α) : Constant (Pure.pure a : StateM σ α) := ⟨a, fun _ => rfl⟩

theorem Constant.bind {m : StateM σ α} {f : α → StateM σ β} (hm : Constant m)
    (hf : ∀ a, Constant (f a)) : Constant (m >>= f) := by
  obtain ⟨a, ha⟩ := hm
  obtain ⟨b, hb⟩ := hf a
  refine ⟨b, fun s => ?_⟩
  show ((f (m.run s).1).run (m.run s).2).1 = b
  rw [ha, hb]

theorem Constant.bind_attempt {x : Attempt σ α} {f : α → Attempt σ β} (hx : Constant x.run)
    (hf : ∀ a, Constant (f a).run) : Constant (x >>= f).run := by
  rw [ExceptT.run_bind]
  apply hx.bind
  intro answer
  cases answer with
  | ok a => exact hf a
  | error failure => exact .pure _

namespace Guard

mutual
/-- The predicates of the caller that stand in a guard. -/
def predicates : Guard σ → List (Value → Attempt σ Bool)
  | .all guards | .any guards => predicatesOf guards
  | .not guard => guard.predicates
  | .custom test => [fun v => ExceptT.lift (test v)]
  | .fallible test => [test]
  | _ => []
termination_by structural g => g
def predicatesOf : List (Guard σ) → List (Value → Attempt σ Bool)
  | [] => []
  | g :: gs => g.predicates ++ predicatesOf gs
termination_by structural gs => gs
end

/-- What the predicates answer depends on the value alone. Those without effects are such,
and so are those that only count their calls. -/
def Unvarying (g : Guard σ) : Prop := ∀ test ∈ g.predicates, ∀ v, Constant (test v).run

variable {o : Options} {v : Value}

theorem mem_predicatesOf {g : Guard σ} {gs : List (Guard σ)} {test : Value → Attempt σ Bool}
    (hg : g ∈ gs) (h : test ∈ g.predicates) : test ∈ predicatesOf gs := by
  induction gs with
  | nil => cases hg
  | cons g' gs ih =>
    rw [predicatesOf, List.mem_append]
    cases hg with
    | head => exact .inl h
    | tail _ hg => exact .inr (ih hg)

theorem constant_eval_series (settling : Bool) {gs : List (Guard σ)}
    (h : ∀ g ∈ gs, Constant (g.eval o v).run) : Constant ((series settling gs).eval o v).run := by
  induction gs with
  | nil =>
    rw [eval_series_nil]
    exact .pure _
  | cons g gs ih =>
    rw [List.forall_mem_cons] at h
    rw [eval_series_cons]
    apply h.1.bind_attempt
    intro answer
    by_cases hsettled : answer = settling
    · rw [if_pos hsettled]
      exact .pure _
    · rw [if_neg hsettled]
      exact ih h.2

theorem Unvarying.constant_eval {g : Guard σ} (h : g.Unvarying) (o : Options) (v : Value) :
    Constant (g.eval o v).run := by
  induction g with
  | all guards ih =>
    apply constant_eval_series false
    intro g hg
    exact ih g hg fun test htest => h test (mem_predicatesOf hg htest)
  | any guards ih =>
    apply constant_eval_series true
    intro g hg
    exact ih g hg fun test htest => h test (mem_predicatesOf hg htest)
  | not guard ih => exact (ih h).bind_attempt fun accepted => .pure _
  | custom test => exact h _ (List.mem_singleton_self _) v
  | fallible test => exact h test (List.mem_singleton_self test) v
  | typeof kind => exact .pure _
  | inProperty name => exact .pure _
  | callable name => exact .pure _
  | discriminant property value => exact .pure _
  | conforms shape => exact .pure _
  | truthy => exact .pure _

end Guard
end ShapeTyping
