import ShapeTyping.Guard.Basic
/-! Guards that are tried one after the other, up to the first answer that settles the whole:
a no where all have to hold, a yes where one has to. -/
namespace ShapeTyping.Guard

variable {σ : Type}

/-- Guards of which the first to give the settling answer decides. -/
def series : (settling : Bool) → List (Guard σ) → Guard σ
  | false, guards => .all guards
  | true, guards => .any guards

variable {o : Options} {v : Value}

theorem eval_series_nil (o : Options) (v : Value) (settling : Bool) :
    (series settling ([] : List (Guard σ))).eval o v = pure !settling := by
  cases settling <;> rfl

theorem eval_series_cons (o : Options) (v : Value) (settling : Bool) (g : Guard σ)
    (gs : List (Guard σ)) :
    (series settling (g :: gs)).eval o v = (do
      let answer ← g.eval o v
      if answer = settling then pure settling else (series settling gs).eval o v) := by
  cases settling with
  | false =>
    show (g.eval o v >>= fun answer => if answer then evalAll o v gs else pure false) = _
    apply bind_congr
    intro answer
    cases answer <;> rfl
  | true => rfl

theorem eval_series_congr (settling : Bool) {o' : Options} {gs : List (Guard σ)}
    (h : ∀ g ∈ gs, g.eval o v = g.eval o' v) :
    (series settling gs).eval o v = (series settling gs).eval o' v := by
  induction gs with
  | nil => rw [eval_series_nil, eval_series_nil]
  | cons g gs ih =>
    rw [List.forall_mem_cons] at h
    rw [eval_series_cons, eval_series_cons, h.1, ih h.2]

/-- Options matter to a guard as far as they matter to conformance. -/
theorem eval_congr {o' : Options}
    (h : ∀ shape, v.conformsToShape shape o = v.conformsToShape shape o') (g : Guard σ) :
    g.eval o v = g.eval o' v := by
  induction g with
  | conforms shape => rw [eval, eval, h]
  | all guards ih => exact eval_series_congr false ih
  | any guards ih => exact eval_series_congr true ih
  | not guard ih => rw [eval, eval, ih]
  | _ => rfl

end ShapeTyping.Guard
