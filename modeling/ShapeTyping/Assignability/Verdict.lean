/-! The answer of a walk whose depth is limited: whether the relation was found to
hold, and whether the walk gave up somewhere. -/
namespace ShapeTyping

structure Verdict where
  holds : Bool
  /-- Some question on the way was left open at the limit. -/
  gaveUp : Bool
deriving DecidableEq

namespace Verdict

def ofBool (b : Bool) : Verdict := ⟨b, false⟩

/-- The answer at the limit. -/
def undecided : Verdict := ⟨false, true⟩

/-- The answer to a question asked after another one. -/
def after (w v : Verdict) : Verdict := ⟨w.holds, v.gaveUp || w.gaveUp⟩

/-- The second question is asked only if the first holds. -/
def and (v : Verdict) (w : Unit → Verdict) : Verdict :=
  if v.holds then (w ()).after v else v

/-- The second question is asked only if the first fails. -/
def or (v : Verdict) (w : Unit → Verdict) : Verdict :=
  if v.holds then v else (w ()).after v

variable {α : Type}

/-- Asks from left to right up to the first that fails. -/
def all (f : α → Verdict) : List α → Verdict
  | [] => ofBool true
  | x :: xs => (f x).and fun _ => all f xs

/-- Asks from left to right up to the first that holds. -/
def any (f : α → Verdict) : List α → Verdict
  | [] => ofBool false
  | x :: xs => (f x).or fun _ => any f xs

theorem holds_and (v : Verdict) (w : Unit → Verdict) :
    (v.and w).holds = (v.holds && (w ()).holds) := by
  cases h : v.holds <;> simp [and, after, h]

theorem holds_or (v : Verdict) (w : Unit → Verdict) :
    (v.or w).holds = (v.holds || (w ()).holds) := by
  cases h : v.holds <;> simp [or, after, h]

theorem holds_all (f : α → Verdict) (xs : List α) :
    (all f xs).holds = xs.all fun x => (f x).holds := by
  induction xs with
  | nil => rfl
  | cons x xs ih => simp [all, holds_and, ih]

theorem holds_any (f : α → Verdict) (xs : List α) :
    (any f xs).holds = xs.any fun x => (f x).holds := by
  induction xs with
  | nil => rfl
  | cons x xs ih => simp [any, holds_or, ih]

end Verdict
end ShapeTyping
