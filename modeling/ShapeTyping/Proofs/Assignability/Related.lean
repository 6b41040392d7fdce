import ShapeTyping.Proofs.Assignability.Rule
/-! Assignability without a limit, and what the walk with a limit has to do with
it: a yes of the walk is right, a no is right unless the walk gave up, and with
enough levels it never gives up. -/
namespace ShapeTyping

namespace Verdict

theorem gaveUp_and (v : Verdict) (w : Unit → Verdict) :
    (v.and w).gaveUp = (v.gaveUp || v.holds && (w ()).gaveUp) := by
  cases h : v.holds <;> simp [and, after, h]

theorem gaveUp_or (v : Verdict) (w : Unit → Verdict) :
    (v.or w).gaveUp = (v.gaveUp || !v.holds && (w ()).gaveUp) := by
  cases h : v.holds <;> simp [or, after, h]

/-- A relation between verdicts that asking one question after another keeps. -/
structure Compatible (R : Verdict → Verdict → Prop) : Prop where
  ofBool : ∀ b, R (ofBool b) (ofBool b)
  and : ∀ {v v' w w' : Verdict}, R v v' → R w w' → R (v.and fun _ => w) (v'.and fun _ => w')
  or : ∀ {v v' w w' : Verdict}, R v v' → R w w' → R (v.or fun _ => w) (v'.or fun _ => w')

section
variable {α : Type} {R : Verdict → Verdict → Prop} {f g : α → Verdict} {xs : List α}

theorem Compatible.all (hR : Compatible R) (h : ∀ x ∈ xs, R (f x) (g x)) :
    R (all f xs) (all g xs) := by
  induction xs with
  | nil => exact hR.ofBool true
  | cons x xs ih =>
    exact hR.and (h x (List.mem_cons_self ..)) (ih fun y hy => h y (List.mem_cons_of_mem _ hy))

theorem Compatible.any (hR : Compatible R) (h : ∀ x ∈ xs, R (f x) (g x)) :
    R (any f xs) (any g xs) := by
  induction xs with
  | nil => exact hR.ofBool false
  | cons x xs ih =>
    exact hR.or (h x (List.mem_cons_self ..)) (ih fun y hy => h y (List.mem_cons_of_mem _ hy))

end

/-- As far as the first verdict goes, it is right about the second: its yes is
one, and where it misses a yes it gave up. -/
structure Approximates (v w : Verdict) : Prop where
  sound : v.holds = true → w.holds = true
  complete : w.holds = true → v.holds = true ∨ v.gaveUp = true

theorem approximates_compatible : Compatible Approximates where
  ofBool _ := ⟨id, .inl⟩
  and {v v' w w'} hv hw := by
    constructor
    · rw [holds_and, holds_and, Bool.and_eq_true, Bool.and_eq_true]
      exact fun h => ⟨hv.sound h.1, hw.sound h.2⟩
    · rw [holds_and, holds_and, gaveUp_and, Bool.and_eq_true]
      rintro ⟨h, h'⟩
      have hv := hv.complete h
      have hw := hw.complete h'
      cases hh : v.holds with
      | false => simp_all
      | true =>
        rcases hw with hw | hw
        · exact .inl (by simp [hw])
        · exact .inr (by simp [hw])
  or {v v' w w'} hv hw := by
    constructor
    · rw [holds_or, holds_or, Bool.or_eq_true, Bool.or_eq_true]
      exact fun h => h.imp hv.sound hw.sound
    · rw [holds_or, holds_or, gaveUp_or, Bool.or_eq_true]
      intro h
      have hvw := h.imp hv.complete hw.complete
      cases hh : v.holds with
      | false => simpa [hh, or_left_comm] using hvw
      | true => exact .inl rfl

/-- Both verdicts are one, reached without giving up. -/
structure Settled (v w : Verdict) : Prop where
  eq : v = w
  gaveUp : w.gaveUp = false

theorem settled_compatible : Compatible Settled where
  ofBool _ := ⟨rfl, rfl⟩
  and {v v' w w'} hv hw := by
    constructor
    · simp only [Verdict.and, hv.eq, hw.eq]
    · rw [gaveUp_and, hv.gaveUp, hw.gaveUp, Bool.and_false, Bool.or_false]
  or {v v' w w'} hv hw := by
    constructor
    · simp only [Verdict.or, hv.eq, hw.eq]
    · rw [gaveUp_or, hv.gaveUp, hw.gaveUp, Bool.and_false, Bool.or_false]

end Verdict

namespace Assignability

open Nested (size size_part_lt size_pos)

/-! ## A step asks about smaller pairs only -/

section
variable {R : Verdict → Verdict → Prop} {f g : Ty → Ty → Verdict}

theorem both_rel (hR : Verdict.Compatible R) {s t : Ty} (h : R (f s t) (g s t))
    (h' : R (f t s) (g t s)) : R (both f s t) (both g s t) := hR.and h h'

theorem paramsRelated_rel (hR : Verdict.Compatible R) (variance : Variance) {s t : Ty}
    (h : R (f s t) (g s t)) (h' : R (f t s) (g t s)) :
    R (paramsRelated variance f s t) (paramsRelated variance g s t) := by
  cases variance with
  | equivalent => exact both_rel hR h h'
  | contravariant => exact h'
  | bivariant => exact hR.or h' h

theorem signature_rel (hR : Verdict.Compatible R) (variance : Variance) {c r : Signature Ty}
    (hp : ∀ p ∈ c.params, ∀ q ∈ r.params,
      R (f p.type q.type) (g p.type q.type) ∧ R (f q.type p.type) (g q.type p.type))
    (hr : R (f c.result r.result) (g c.result r.result)) :
    R (signature variance .covariant f c r) (signature variance .covariant g c r) := by
  refine hR.and (hR.ofBool _) (hR.and (hR.all fun pq hpq => ?_) (hR.and (hR.ofBool _) hr))
  have h := hp pq.1 (List.of_mem_zip hpq).1 pq.2 (List.of_mem_zip hpq).2
  exact paramsRelated_rel hR variance h.1 h.2

theorem shape_rel (hR : Verdict.Compatible R) {a b : Shape Ty}
    (h : ∀ x ∈ a.fields, ∀ y ∈ b.fields, R (f x.type y.type) (g x.type y.type)) :
    R (shape f a b) (shape g a b) := by
  refine hR.all fun y hy => ?_
  cases hx : a.field? y.name with
  | none => exact hR.ofBool _
  | some x => exact hR.and (hR.ofBool _) (h x (Shape.mem_of_field? hx).1 y hy)

theorem application_rel (hR : Verdict.Compatible R) (m n : String) {ss ts : List Ty}
    (h : ∀ s ∈ ss, ∀ t ∈ ts, R (f s t) (g s t) ∧ R (f t s) (g t s)) :
    R (application f m n ss ts) (application g m n ss ts) := by
  refine hR.and (hR.ofBool _) (hR.all fun st hst => ?_)
  have h := h st.1 (List.of_mem_zip hst).1 st.2 (List.of_mem_zip hst).2
  exact both_rel hR h.1 h.2

/-- Whatever a step makes of two families of verdicts is related if the verdicts
on all smaller pairs are. -/
theorem step_rel (hR : Verdict.Compatible R) (o : Options) {s t : Ty}
    (h : ∀ a b, size a + size b < size s + size t → R (f a b) (g a b)) :
    R (step o f s t) (step o g s t) := by
  unfold step
  repeat (split; · exact hR.ofBool _)
  split
  case h_1 =>
    refine hR.all fun m hm => h _ _ ?_
    have := size_part_lt (Ty.member_mem_parts hm)
    omega
  case h_2 =>
    refine hR.any fun m hm => h _ _ ?_
    have := size_part_lt (Ty.member_mem_parts hm)
    omega
  case h_3 => exact hR.ofBool _
  case h_4 =>
    refine shape_rel hR fun x hx y hy => h _ _ ?_
    have := size_part_lt (Ty.field_mem_parts hx)
    have := size_part_lt (Ty.field_mem_parts hy)
    omega
  case h_5 c r _ _ _ _ =>
    refine signature_rel hR _ (fun p hp q hq => ⟨h _ _ ?_, h _ _ ?_⟩) (h _ _ ?_)
    · have := size_part_lt (Ty.param_mem_parts hp)
      have := size_part_lt (Ty.param_mem_parts hq)
      omega
    · have := size_part_lt (Ty.param_mem_parts hp)
      have := size_part_lt (Ty.param_mem_parts hq)
      omega
    · have := size_part_lt (Ty.result_mem_parts c)
      have := size_part_lt (Ty.result_mem_parts r)
      omega
  case h_6 a b _ _ _ _ =>
    apply h
    have := size_part_lt (Ty.element_mem_parts a)
    have := size_part_lt (Ty.element_mem_parts b)
    omega
  case h_7 m ss n ts _ _ _ _ =>
    refine application_rel hR m n fun s hs t ht => ⟨h _ _ ?_, h _ _ ?_⟩
    · have := size_part_lt (Ty.argument_mem_parts m hs)
      have := size_part_lt (Ty.argument_mem_parts n ht)
      omega
    · have := size_part_lt (Ty.argument_mem_parts m hs)
      have := size_part_lt (Ty.argument_mem_parts n ht)
      omega
  case h_8 => exact hR.ofBool _

end

/-! ## Assignability without a limit -/

/-- The rules of the walk without its limit. The two types get smaller from one
level to the next, which is what the guard inside says. -/
def related (o : Options) (s t : Ty) : Bool :=
  s.same t || (step o (fun a b =>
    .ofBool (if _ : size a + size b < size s + size t then related o a b else false)) s t).holds
termination_by size s + size t

def Related (o : Options) (s t : Ty) : Prop := related o s t = true

variable {o : Options} {s t : Ty}

theorem related_eq (o : Options) (s t : Ty) :
    related o s t = (s.same t || (step o (fun a b => .ofBool (related o a b)) s t).holds) := by
  have hstep : Verdict.Settled
      (step o (fun a b => .ofBool
        (if _ : size a + size b < size s + size t then related o a b else false)) s t)
      (step o (fun a b => .ofBool (related o a b)) s t) := by
    refine step_rel Verdict.settled_compatible o fun a b h => ?_
    rw [dif_pos h]
    exact Verdict.settled_compatible.ofBool _
  rw [related, hstep.eq]

theorem related_iff : Related o s t ↔ s.Equal t ∨ Rule o (Related o) s t := by
  unfold Related
  rw [related_eq, Bool.or_eq_true, holds_step_iff]
  rfl

theorem Related.of_equal (h : s.Equal t) : Related o s t := related_iff.mpr (.inl h)

theorem Related.of_rule (h : Rule o (Related o) s t) : Related o s t := related_iff.mpr (.inr h)

/-! ## The walk and its limit -/

theorem walk_approximates (o : Options) (n : Nat) (s t : Ty) :
    (walk o n s t).Approximates (.ofBool (related o s t)) := by
  induction n generalizing s t with
  | zero =>
    rw [walk_zero]
    split
    next h => rw [related_eq, h]; exact Verdict.approximates_compatible.ofBool true
    next => exact ⟨(by cases ·), fun _ => .inr rfl⟩
  | succ n ih =>
    rw [walk_succ, related_eq]
    split
    next h => rw [h]; exact Verdict.approximates_compatible.ofBool true
    next h =>
      have hstep : (step o (walk o n) s t).Approximates
          (step o (fun a b => .ofBool (related o a b)) s t) :=
        step_rel Verdict.approximates_compatible o fun a b _ => ih a b
      rw [Bool.not_eq_true] at h
      rw [h, Bool.false_or]
      exact ⟨hstep.sound, hstep.complete⟩

/-- With as many levels as there are nodes the walk is never short of one. -/
theorem walk_settled {n : Nat} (h : size s + size t ≤ n) :
    walk o n s t = .ofBool (related o s t) := by
  induction n generalizing s t with
  | zero =>
    have := size_pos s
    omega
  | succ n ih =>
    rw [walk_succ, related_eq]
    have hstep : Verdict.Settled (step o (walk o n) s t)
        (step o (fun a b => .ofBool (related o a b)) s t) := by
      refine step_rel Verdict.settled_compatible o fun a b hab => ?_
      rw [ih (by omega)]
      exact Verdict.settled_compatible.ofBool _
    split
    next h => rw [h]; rfl
    next h =>
      rw [Bool.not_eq_true] at h
      rw [h, Bool.false_or, hstep.eq, Verdict.ofBool, ← hstep.gaveUp]

theorem related_iff_exists_walk : Related o s t ↔ ∃ n, Holds (walk o n) s t := by
  constructor
  · intro h
    refine ⟨size s + size t, ?_⟩
    unfold Holds
    rw [walk_settled (Nat.le_refl _)]
    exact h
  · rintro ⟨n, h⟩
    exact (walk_approximates o n s t).sound h

/-- The relation is the least one that has equal types and obeys the rules. -/
theorem Related.induction {P : Ty → Ty → Prop} (equal : ∀ s t, s.Equal t → P s t)
    (rule : ∀ s t, Rule o P s t → P s t) (h : Related o s t) : P s t := by
  rw [related_iff_exists_walk] at h
  obtain ⟨n, hn⟩ := h
  induction n generalizing s t with
  | zero => exact equal s t (holds_walk_zero_iff.mp hn)
  | succ n ih =>
    rcases holds_walk_succ_iff.mp hn with heq | hrule
    · exact equal s t heq
    · exact rule s t (hrule.mono (.refl o) fun a b hab => ih hab)

end Assignability

theorem Ty.related_of_isAssignable {o : Options} {s t : Ty} (h : s.isAssignable t o = true) :
    Assignability.Related o s t := (Assignability.walk_approximates o o.maxDepth s t).sound h

end ShapeTyping
