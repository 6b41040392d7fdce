import ShapeTyping.Assignability.Checker
import ShapeTyping.Proofs.Assignability.Related
import ShapeTyping.Proofs.Outcome
/-! What a checker's answers are worth. It computes the verdict of the walk with as many levels left
as its depth leaves, and returns to the depth at which it was asked, whatever it met on the way. The
limit on the depth may hide a yes but never a no, it shows in the checker when it does, and neither
it nor the answers that follow depend on what the checker was asked before. -/
namespace ShapeTyping

namespace Verdict

variable {α β : Type}

theorem all_map (f : β → Verdict) (g : α → β) (xs : List α) :
    all f (xs.map g) = all (fun x => f (g x)) xs := by
  induction xs with
  | nil => rfl
  | cons x xs ih => rw [List.map_cons, all, all, ih]

theorem any_map (f : β → Verdict) (g : α → β) (xs : List α) :
    any f (xs.map g) = any (fun x => f (g x)) xs := by
  induction xs with
  | nil => rfl
  | cons x xs ih => rw [List.map_cons, any, any, ih]

end Verdict

namespace Checker

/-- The answer that a verdict gives, and the checker that has kept what there is to remember. -/
def record (c : Checker) (v : Verdict) : Bool × Checker :=
  (v.holds, { c with gaveUp := c.gaveUp || v.gaveUp })

/-- At this depth the question has the verdict, whether or not the checker gave up before. -/
def Gives (o : Options) (depth : Nat) (ask : StateM Checker Bool) (v : Verdict) : Prop :=
  ∀ gaveUp, ask.run ⟨o, depth, gaveUp⟩ = record ⟨o, depth, gaveUp⟩ v

namespace Gives

variable {o : Options} {depth : Nat} {ask next : StateM Checker Bool} {v w : Verdict} {α : Type}

theorem ofBool (b : Bool) : Gives o depth (pure b) (.ofBool b) := by
  intro gaveUp
  show (b, _) = (b, _)
  rw [Verdict.ofBool, Bool.or_false]

theorem and (h : Gives o depth ask v) (h' : Gives o depth next w) :
    Gives o depth (ask <&&> next) (v.and fun _ => w) := by
  intro gaveUp
  refine (Outcome.run_bind_of (h gaveUp)).trans ?_
  obtain ⟨holds, gave⟩ := v
  cases holds with
  | false => rfl
  | true =>
    show next.run _ = _
    rw [h' (gaveUp || gave)]
    simp [record, Verdict.and, Verdict.after, Bool.or_assoc]

theorem or (h : Gives o depth ask v) (h' : Gives o depth next w) :
    Gives o depth (ask <||> next) (v.or fun _ => w) := by
  intro gaveUp
  refine (Outcome.run_bind_of (h gaveUp)).trans ?_
  obtain ⟨holds, gave⟩ := v
  cases holds with
  | false =>
    show next.run _ = _
    rw [h' (gaveUp || gave)]
    simp [record, Verdict.or, Verdict.after, Bool.or_assoc]
  | true => rfl

theorem allM {p : α → StateM Checker Bool} {f : α → Verdict} {xs : List α}
    (h : ∀ x ∈ xs, Gives o depth (p x) (f x)) : Gives o depth (xs.allM p) (Verdict.all f xs) := by
  induction xs with
  | nil => exact ofBool true
  | cons x xs ih =>
    rw [List.forall_mem_cons] at h
    have hcons : (x :: xs).allM p = (p x <&&> xs.allM p) := by
      apply bind_congr
      intro answer
      cases answer <;> rfl
    rw [hcons]
    exact h.1.and (ih h.2)

theorem anyM {p : α → StateM Checker Bool} {f : α → Verdict} {xs : List α}
    (h : ∀ x ∈ xs, Gives o depth (p x) (f x)) : Gives o depth (xs.anyM p) (Verdict.any f xs) := by
  induction xs with
  | nil => exact ofBool false
  | cons x xs ih =>
    rw [List.forall_mem_cons] at h
    have hcons : (x :: xs).anyM p = (p x <||> xs.anyM p) := by
      apply bind_congr
      intro answer
      cases answer <;> rfl
    rw [hcons]
    exact h.1.or (ih h.2)

theorem attach_allM {xs : List α} {p : { x // x ∈ xs } → StateM Checker Bool} {f : α → Verdict}
    (h : ∀ x (hx : x ∈ xs), Gives o depth (p ⟨x, hx⟩) (f x)) :
    Gives o depth (xs.attach.allM p) (Verdict.all f xs) := by
  have hall := Verdict.all_map f Subtype.val xs.attach
  rw [List.attach_map_subtype_val] at hall
  rw [hall]
  exact allM fun x _ => h x.1 x.2

theorem attach_anyM {xs : List α} {p : { x // x ∈ xs } → StateM Checker Bool} {f : α → Verdict}
    (h : ∀ x (hx : x ∈ xs), Gives o depth (p ⟨x, hx⟩) (f x)) :
    Gives o depth (xs.attach.anyM p) (Verdict.any f xs) := by
  have hany := Verdict.any_map f Subtype.val xs.attach
  rw [List.attach_map_subtype_val] at hany
  rw [hany]
  exact anyM fun x _ => h x.1 x.2

end Gives

/-! ## One level -/

section
variable {o : Options} {depth : Nat} {f : Ty → Ty → Verdict}

theorem gives_compareParams (variance : Variance) {there back : StateM Checker Bool} {s t : Ty}
    (h : Gives o depth there (f s t)) (h' : Gives o depth back (f t s)) :
    Gives o depth (compareParams variance there back)
      (Assignability.paramsRelated variance f s t) := by
  cases variance with
  | equivalent => exact h.and h'
  | contravariant => exact h'
  | bivariant => exact h'.or h

theorem gives_compareSignatures (variance : Variance) {c r : Signature Ty}
    {below : Below (.function c) (.function r)}
    (h : ∀ a b hab, Gives o depth (below a b hab) (f a b)) :
    Gives o depth (compareSignatures variance c r below)
      (Assignability.signature variance .covariant f c r) := by
  refine (Gives.ofBool _).and (Gives.and (.attach_allM fun pq _ => ?_) ((Gives.ofBool _).and ?_))
  · exact gives_compareParams variance (h _ _ _) (h _ _ _)
  · exact h _ _ _

theorem gives_compareShapes {s t : Shape Ty} {below : Below (.shape s) (.shape t)}
    (h : ∀ a b hab, Gives o depth (below a b hab) (f a b)) :
    Gives o depth (compareShapes s t below) (Assignability.shape f s t) := by
  refine .attach_allM fun g hg => ?_
  dsimp only
  split
  next field hfield =>
    simp only [hfield]
    exact (Gives.ofBool _).and (h _ _ _)
  next hfield =>
    simp only [hfield]
    exact .ofBool _

theorem gives_compareApplications {m n : String} {ss ts : List Ty}
    {below : Below (.application m ss) (.application n ts)}
    (h : ∀ a b hab, Gives o depth (below a b hab) (f a b)) :
    Gives o depth (compareApplications m n ss ts below)
      (Assignability.application f m n ss ts) :=
  (Gives.ofBool _).and (.attach_allM fun _ _ => (h _ _ _).and (h _ _ _))

theorem gives_compare {s t : Ty} {below : Below s t}
    (h : ∀ a b hab, Gives o depth (below a b hab) (f a b)) :
    Gives o depth (compare o s t below) (Assignability.step o f s t) := by
  unfold compare Assignability.step
  repeat (split; · exact .ofBool _)
  cases s with
  | union members => exact .attach_allM fun _ _ => h _ _ _
  | intrinsic kind =>
    cases t with
    | union members => exact .attach_anyM fun _ _ => h _ _ _
    | _ => exact .ofBool _
  | literal value =>
    cases t with
    | union members => exact .attach_anyM fun _ _ => h _ _ _
    | _ => exact .ofBool _
  | shape a =>
    cases t with
    | union members => exact .attach_anyM fun _ _ => h _ _ _
    | shape b => exact gives_compareShapes h
    | _ => exact .ofBool _
  | function c =>
    cases t with
    | union members => exact .attach_anyM fun _ _ => h _ _ _
    | function r => exact gives_compareSignatures o.parameterVariance h
    | _ => exact .ofBool _
  | array a =>
    cases t with
    | union members => exact .attach_anyM fun _ _ => h _ _ _
    | array b => exact h a b _
    | _ => exact .ofBool _
  | application m ss =>
    cases t with
    | union members => exact .attach_anyM fun _ _ => h _ _ _
    | application n ts => exact gives_compareApplications h
    | _ => exact .ofBool _

end

/-! ## All levels -/

theorem run_walk (c : Checker) (s t : Ty) :
    (walk s t).run c =
      if s.same t then (true, c)
      else if c.options.maxDepth ≤ c.depth then (false, { c with gaveUp := true })
      else
        let (answer, left) := (compare c.options s t fun a b _ => walk a b).run
          { c with depth := c.depth + 1 }
        (answer, { left with depth := left.depth - 1 }) := by
  rw [walk]
  split
  · rfl
  · show StateT.run (if _ then _ else _) c = _
    split <;> rfl

/-- The levels that are left are those between the depth and the limit. -/
theorem gives_walk (o : Options) (depth : Nat) (s t : Ty) :
    Gives o depth (walk s t) (Assignability.walk o (o.maxDepth - depth) s t) := by
  intro gaveUp
  rw [run_walk]
  by_cases hlimit : o.maxDepth ≤ depth
  · rw [Nat.sub_eq_zero_of_le hlimit, Assignability.walk_zero]
    split
    · exact Gives.ofBool true gaveUp
    · simp [record, Verdict.undecided]
  · have hlevels : o.maxDepth - depth = o.maxDepth - (depth + 1) + 1 := by omega
    rw [hlevels, Assignability.walk_succ]
    split
    · exact Gives.ofBool true gaveUp
    · have hcompare := gives_compare (s := s) (t := t) fun a b _ => gives_walk o (depth + 1) a b
      dsimp only
      rw [hcompare gaveUp]
      rfl
termination_by sizeOf s + sizeOf t

theorem assignable_eq (c : Checker) (s t : Ty) :
    c.assignable s t =
      c.record (Assignability.walk c.options (c.options.maxDepth - c.depth) s t) :=
  gives_walk c.options c.depth s t c.gaveUp

theorem equivalent_eq (c : Checker) (s t : Ty) :
    c.equivalent s t =
      c.record (Assignability.both
        (Assignability.walk c.options (c.options.maxDepth - c.depth)) s t) :=
  (gives_walk c.options c.depth s t).and (gives_walk c.options c.depth t s) c.gaveUp

theorem assignable_fresh (o : Options) (s t : Ty) :
    (fresh o).assignable s t =
      ((Assignability.verdict o s t).holds, ⟨o, 0, (Assignability.verdict o s t).gaveUp⟩) := by
  rw [assignable_eq, record]
  simp [fresh, Assignability.verdict]

end Checker

/-! ## One query after the other -/

inductive Query where
  | assignable (s t : Ty)
  | equivalent (s t : Ty)

namespace Checker

def ask (c : Checker) : Query → Bool × Checker
  | .assignable s t => c.assignable s t
  | .equivalent s t => c.equivalent s t

/-- The checker that is left when some queries have been answered. -/
def after (c : Checker) (queries : List Query) : Checker :=
  queries.foldl (fun c query => (c.ask query).2) c

/-- A query leaves a checker as it was, but for the flag. -/
theorem exists_snd_ask (c : Checker) (query : Query) :
    ∃ gaveUp, (c.ask query).2 = { c with gaveUp := gaveUp } := by
  cases query with
  | assignable s t => exact ⟨_, congrArg Prod.snd (c.assignable_eq s t)⟩
  | equivalent s t => exact ⟨_, congrArg Prod.snd (c.equivalent_eq s t)⟩

theorem exists_after (c : Checker) (queries : List Query) :
    ∃ gaveUp, c.after queries = { c with gaveUp := gaveUp } := by
  induction queries generalizing c with
  | nil => exact ⟨c.gaveUp, rfl⟩
  | cons query queries ih =>
    obtain ⟨flag, hask⟩ := c.exists_snd_ask query
    obtain ⟨gaveUp, hrest⟩ := ih (c.ask query).2
    refine ⟨gaveUp, hrest.trans ?_⟩
    rw [hask]

/-- A yes is right, a no is right if the checker has not given up, and it does not
give up if it may go as deep as the two types have nodes. At whatever depth a checker is asked, it
comes back to that depth with the verdict on the levels below it. So it is as deep after any queries
as before them, and answers as if it had not been asked. -/
theorem assignable_approximates_related (o : Options) (s t : Ty) (earlier : List Query) :
    let (answer, asked) := (fresh o).assignable s t
    (answer = true → Assignability.Related o s t) ∧
      (answer = false → asked.gaveUp = false → ¬ Assignability.Related o s t) ∧
      (Nested.size s + Nested.size t ≤ o.maxDepth →
        asked.gaveUp = false ∧ answer = Assignability.related o s t) ∧
      (∀ depth gaveUp,
        let verdict := Assignability.walk o (o.maxDepth - depth) s t
        (walk s t).run ⟨o, depth, gaveUp⟩ = (verdict.holds, ⟨o, depth, gaveUp || verdict.gaveUp⟩)) ∧
      ((fresh o).after earlier).depth = 0 ∧
      (((fresh o).after earlier).assignable s t).1 = answer := by
  rw [assignable_fresh]
  have hwalk := Assignability.walk_approximates o o.maxDepth s t
  refine ⟨hwalk.sound, fun hno hgave hrel => ?_, fun hdepth => ?_,
    fun depth gaveUp => gives_walk o depth s t gaveUp, ?_⟩
  · rcases hwalk.complete hrel with h | h
    · exact absurd (hno.symm.trans h) (by decide)
    · exact absurd (hgave.symm.trans h) (by decide)
  · have hsettled : Assignability.verdict o s t = .ofBool (Assignability.related o s t) :=
      Assignability.walk_settled hdepth
    rw [hsettled]
    exact ⟨rfl, rfl⟩
  · obtain ⟨gaveUp, hafter⟩ := (fresh o).exists_after earlier
    rw [hafter, assignable_eq]
    exact ⟨rfl, rfl⟩

end Checker
end ShapeTyping
