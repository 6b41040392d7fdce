import ShapeTyping.Proofs.Assignability.Checker
/-! When a walk gives up. A step of the walk asks about parts of its two types, one question after
another, and the answers so far decide what it asks next. The walk gives up just if some chain of
questions that it asks is longer than it has levels. A checker never forgets that a walk of its own
gave up, so that what it says is about all its walks and not about the last one. -/
namespace ShapeTyping

/-! ## Questions in a row -/

namespace Verdict

variable {α : Type} {f : α → Verdict} {x : α} {xs : List α}

/-- From the left one comes to `x` if everything before it lets one pass. -/
inductive ComesTo (pass : α → Prop) (x : α) : List α → Prop
  | here (xs : List α) : ComesTo pass x (x :: xs)
  | later {y : α} {xs : List α} (h : pass y) (rest : ComesTo pass x xs) : ComesTo pass x (y :: xs)

theorem gaveUp_all_iff :
    (all f xs).gaveUp = true ↔
      ∃ x, ComesTo (fun y => (f y).holds = true) x xs ∧ (f x).gaveUp = true := by
  induction xs with
  | nil =>
    constructor
    · intro h
      cases h
    · rintro ⟨x, hx, -⟩
      cases hx
  | cons y ys ih =>
    rw [all, gaveUp_and, Bool.or_eq_true, Bool.and_eq_true, ih]
    constructor
    · rintro (h | ⟨hy, x, hx, h⟩)
      · exact ⟨y, .here ys, h⟩
      · exact ⟨x, .later hy hx, h⟩
    · rintro ⟨x, hx, h⟩
      cases hx with
      | here => exact .inl h
      | later hy hx => exact .inr ⟨hy, x, hx, h⟩

theorem gaveUp_any_iff :
    (any f xs).gaveUp = true ↔
      ∃ x, ComesTo (fun y => ¬ (f y).holds = true) x xs ∧ (f x).gaveUp = true := by
  induction xs with
  | nil =>
    constructor
    · intro h
      cases h
    · rintro ⟨x, hx, -⟩
      cases hx
  | cons y ys ih =>
    rw [any, gaveUp_or, Bool.or_eq_true, Bool.and_eq_true, Bool.not_eq_true', ih,
      ← Bool.not_eq_true]
    constructor
    · rintro (h | ⟨hy, x, hx, h⟩)
      · exact ⟨y, .here ys, h⟩
      · exact ⟨x, .later hy hx, h⟩
    · rintro ⟨x, hx, h⟩
      cases hx with
      | here => exact .inl h
      | later hy hx => exact .inr ⟨hy, x, hx, h⟩

end Verdict

namespace Assignability

open Verdict (ComesTo)

/-! ## The questions of a step -/

/-- The answer is yes without a look at the parts of the two types. -/
inductive AtSight (o : Options) : Ty → Ty → Prop
  | top (s : Ty) {kind : Intrinsic} (h : kind = .any ∨ kind = .unknown) :
      AtSight o s (.intrinsic kind)
  | any (t : Ty) : AtSight o (.intrinsic .any) t
  | never (t : Ty) : AtSight o (.intrinsic .never) t
  | nullish (loose : o.strictNullChecks = false) {kind : Intrinsic}
      (h : kind = .null ∨ kind = .undefined) (t : Ty) : AtSight o (.intrinsic kind) t
  | void : AtSight o (.intrinsic .undefined) (.intrinsic .void)

/-- The questions on two types at one position, where those of a named type's arguments are asked
as under `equivalent`. -/
inductive AsksAt (below : Ty → Ty → Prop) : Variance → Ty → Ty → Ty → Ty → Prop
  | forth (s t : Ty) : AsksAt below .equivalent s t s t
  | back {s t : Ty} (h : below s t) : AsksAt below .equivalent s t t s
  | contravariant (s t : Ty) : AsksAt below .contravariant s t t s
  | first (s t : Ty) : AsksAt below .bivariant s t t s
  | second {s t : Ty} (h : ¬ below t s) : AsksAt below .bivariant s t s t

/-- To compare the first two types a step asks about the other two, where `below` tells the answers
to its questions. -/
inductive Asks (o : Options) (below : Ty → Ty → Prop) : Ty → Ty → Ty → Ty → Prop
  | unionLeft {ss : List Ty} {s t : Ty} (unseen : ¬ AtSight o (.union ss) t)
      (h : ComesTo (below · t) s ss) : Asks o below (.union ss) t s t
  | unionRight {s t : Ty} {ts : List Ty} (hs : s.isUnion = false)
      (unseen : ¬ AtSight o s (.union ts)) (h : ComesTo (¬ below s ·) t ts) :
      Asks o below s (.union ts) s t
  | shape {a b : Shape Ty} {f g : Field Ty}
      (h : ComesTo (fun g => Serves below g (a.field? g.name)) g b.fields)
      (hf : a.field? g.name = some f) (optional : f.optional = true → g.optional = true) :
      Asks o below (.shape a) (.shape b) f.type g.type
  | param {c r : Signature Ty} {p q : Param Ty} {s t : Ty}
      (count : c.requiredCount ≤ r.params.length)
      (h : ComesTo (fun pq => ParamsBelow o.parameterVariance below pq.1.type pq.2.type) (p, q)
        (c.params.zip r.params))
      (asks : AsksAt below o.parameterVariance p.type q.type s t) :
      Asks o below (.function c) (.function r) s t
  | result {c r : Signature Ty} (count : c.requiredCount ≤ r.params.length)
      (params : ∀ pq ∈ c.params.zip r.params,
        ParamsBelow o.parameterVariance below pq.1.type pq.2.type)
      (covered : ∀ q ∈ r.params.drop c.params.length, q.optional = true) :
      Asks o below (.function c) (.function r) c.result r.result
  | array (s t : Ty) : Asks o below (.array s) (.array t) s t
  | argument (name : String) {ss ts : List Ty} {s t s' t' : Ty} (length : ss.length = ts.length)
      (h : ComesTo (fun st => below st.1 st.2 ∧ below st.2 st.1) (s, t) (ss.zip ts))
      (asks : AsksAt below .equivalent s t s' t') :
      Asks o below (.application name ss) (.application name ts) s' t'

section
variable {o : Options} {below : Ty → Ty → Verdict} {s t : Ty}

theorem gaveUp_paramsRelated_iff {variance : Variance} :
    (paramsRelated variance below s t).gaveUp = true ↔
      ∃ s' t', AsksAt (Holds below) variance s t s' t' ∧ (below s' t').gaveUp = true := by
  cases variance with
  | equivalent =>
    rw [paramsRelated, both, Verdict.gaveUp_and, Bool.or_eq_true, Bool.and_eq_true]
    constructor
    · rintro (h | ⟨hst, h⟩)
      · exact ⟨s, t, .forth s t, h⟩
      · exact ⟨t, s, .back hst, h⟩
    · rintro ⟨s', t', hasks, h⟩
      cases hasks with
      | forth => exact .inl h
      | back hst => exact .inr ⟨hst, h⟩
  | contravariant =>
    constructor
    · intro h
      exact ⟨t, s, .contravariant s t, h⟩
    · rintro ⟨s', t', hasks, h⟩
      cases hasks
      exact h
  | bivariant =>
    rw [paramsRelated, Verdict.gaveUp_or, Bool.or_eq_true, Bool.and_eq_true, Bool.not_eq_true',
      ← Bool.not_eq_true]
    constructor
    · rintro (h | ⟨hts, h⟩)
      · exact ⟨t, s, .first s t, h⟩
      · exact ⟨s, t, .second hts, h⟩
    · rintro ⟨s', t', hasks, h⟩
      cases hasks with
      | first => exact .inl h
      | second hts => exact .inr ⟨hts, h⟩

theorem gaveUp_shape_iff {a b : Shape Ty} :
    (shape below a b).gaveUp = true ↔
      ∃ g f, ComesTo (fun g => Serves (Holds below) g (a.field? g.name)) g b.fields ∧
        a.field? g.name = some f ∧ (f.optional = true → g.optional = true) ∧
        (below f.type g.type).gaveUp = true := by
  have hfield : ∀ g, (fieldServed below a g).gaveUp = true ↔
      ∃ f, a.field? g.name = some f ∧ (f.optional = true → g.optional = true) ∧
        (below f.type g.type).gaveUp = true := by
    intro g
    unfold fieldServed
    cases a.field? g.name with
    | none => simp [Verdict.ofBool]
    | some f =>
      rw [Verdict.gaveUp_and, Bool.or_eq_true, Bool.and_eq_true]
      simp [Verdict.ofBool, ← optional_passes_iff]
  simp only [shape_eq, Verdict.gaveUp_all_iff, holds_fieldServed_iff, hfield, exists_and_left]

theorem gaveUp_signature_iff {variance : Variance} {c r : Signature Ty} :
    (signature variance .covariant below c r).gaveUp = true ↔
      c.requiredCount ≤ r.params.length ∧
        ((∃ p q s t, ComesTo (fun pq => ParamsBelow variance (Holds below) pq.1.type pq.2.type)
            (p, q) (c.params.zip r.params) ∧
          AsksAt (Holds below) variance p.type q.type s t ∧ (below s t).gaveUp = true) ∨
        ((∀ pq ∈ c.params.zip r.params,
            ParamsBelow variance (Holds below) pq.1.type pq.2.type) ∧
          (∀ q ∈ r.params.drop c.params.length, q.optional = true) ∧
          (below c.result r.result).gaveUp = true)) := by
  simp only [signature, resultsRelated, Verdict.gaveUp_and, Verdict.holds_all,
    Verdict.gaveUp_all_iff, Verdict.ofBool, Bool.or_eq_true, Bool.and_eq_true, List.all_eq_true,
    decide_eq_true_eq, holds_paramsRelated_iff, gaveUp_paramsRelated_iff, Bool.false_eq_true,
    false_or, Prod.exists, exists_and_left]

theorem gaveUp_application_iff {m n : String} {ss ts : List Ty} :
    (application below m n ss ts).gaveUp = true ↔
      m = n ∧ ss.length = ts.length ∧
        ∃ s t s' t', ComesTo (fun st => Holds below st.1 st.2 ∧ Holds below st.2 st.1) (s, t)
            (ss.zip ts) ∧
          AsksAt (Holds below) .equivalent s t s' t' ∧ (below s' t').gaveUp = true := by
  have hboth : ∀ s t, (both below s t).gaveUp = true ↔
      ∃ s' t', AsksAt (Holds below) .equivalent s t s' t' ∧ (below s' t').gaveUp = true :=
    fun s t => @gaveUp_paramsRelated_iff below s t .equivalent
  simp only [application, Verdict.gaveUp_and, Verdict.gaveUp_all_iff, Verdict.ofBool,
    Bool.or_eq_true, Bool.and_eq_true, beq_iff_eq, holds_both_iff, hboth, Bool.false_eq_true,
    false_or, Prod.exists, exists_and_left, and_assoc]

theorem atSight_iff :
    AtSight o s t ↔
      (t.isIntrinsic .any || t.isIntrinsic .unknown) = true ∨
        (s.isIntrinsic .any || s.isIntrinsic .never) = true ∨
        (!o.strictNullChecks && (s.isIntrinsic .null || s.isIntrinsic .undefined)) = true ∨
        (s.isIntrinsic .undefined && t.isIntrinsic .void) = true := by
  simp only [Bool.or_eq_true, Bool.and_eq_true, Bool.not_eq_true', isIntrinsic_iff]
  constructor
  · intro h
    cases h with
    | top s h => rcases h with rfl | rfl <;> simp
    | any t => simp
    | never t => simp
    | nullish loose h t => rcases h with rfl | rfl <;> simp [loose]
    | void => simp
  · rintro ((rfl | rfl) | (rfl | rfl) | ⟨loose, rfl | rfl⟩ | ⟨rfl, rfl⟩)
    · exact .top s (.inl rfl)
    · exact .top s (.inr rfl)
    · exact .any t
    · exact .never t
    · exact .nullish loose (.inl rfl) t
    · exact .nullish loose (.inr rfl) t
    · exact .void

theorem step_of_atSight (h : AtSight o s t) : step o below s t = .ofBool true := by
  unfold step
  rcases atSight_iff.mp h with h | h | h | h
  · rw [if_pos h]
  · rw [if_pos h, ite_self]
  · rw [if_pos h, ite_self, ite_self]
  · rw [if_pos h, ite_self, ite_self, ite_self]

theorem step_unionLeft {ss : List Ty} (h : ¬ AtSight o (.union ss) t) :
    step o below (.union ss) t = Verdict.all (fun s => below s t) ss := by
  rw [atSight_iff, not_or, not_or, not_or] at h
  obtain ⟨h₁, h₂, h₃, h₄⟩ := h
  rw [step, if_neg h₁, if_neg h₂, if_neg h₃, if_neg h₄]

theorem step_unionRight {ts : List Ty} (hs : s.isUnion = false)
    (h : ¬ AtSight o s (.union ts)) :
    step o below s (.union ts) = Verdict.any (fun t => below s t) ts := by
  rw [atSight_iff, not_or, not_or, not_or] at h
  obtain ⟨h₁, h₂, h₃, h₄⟩ := h
  unfold step
  rw [if_neg h₁, if_neg h₂, if_neg h₃, if_neg h₄]
  cases s with
  | union ss => cases hs
  | _ => rfl

/-- A step gives up just if one of the questions that it asks is given up. -/
theorem gaveUp_step_iff :
    (step o below s t).gaveUp = true ↔
      ∃ s' t', Asks o (Holds below) s t s' t' ∧ (below s' t').gaveUp = true := by
  constructor
  · intro h
    by_cases hsight : AtSight o s t
    · rw [step_of_atSight hsight] at h
      cases h
    rcases s.eq_union_or with ⟨ss, rfl⟩ | hs
    · rw [step_unionLeft hsight, Verdict.gaveUp_all_iff] at h
      obtain ⟨s, hcomes, h⟩ := h
      exact ⟨s, t, .unionLeft hsight hcomes, h⟩
    rcases t.eq_union_or with ⟨ts, rfl⟩ | ht
    · rw [step_unionRight hs hsight, Verdict.gaveUp_any_iff] at h
      obtain ⟨t, hcomes, h⟩ := h
      exact ⟨s, t, .unionRight hs hsight hcomes, h⟩
    unfold step at h
    repeat (split at h; · cases h)
    split at h
    case h_1 => cases hs
    case h_2 => cases ht
    case h_3 => cases h
    case h_4 =>
      obtain ⟨g, f, hcomes, hf, optional, h⟩ := gaveUp_shape_iff.mp h
      exact ⟨_, _, .shape hcomes hf optional, h⟩
    case h_5 =>
      obtain ⟨count, ⟨p, q, s, t, hcomes, hasks, h⟩ | ⟨params, covered, h⟩⟩ :=
        gaveUp_signature_iff.mp h
      · exact ⟨s, t, .param count hcomes hasks, h⟩
      · exact ⟨_, _, .result count params covered, h⟩
    case h_6 a b _ _ _ _ => exact ⟨a, b, .array a b, h⟩
    case h_7 =>
      obtain ⟨rfl, length, s, t, s', t', hcomes, hasks, h⟩ := gaveUp_application_iff.mp h
      exact ⟨s', t', .argument _ length hcomes hasks, h⟩
    case h_8 => cases h
  · rintro ⟨s', t', hasks, h⟩
    cases hasks with
    | unionLeft unseen hcomes =>
      rw [step_unionLeft unseen, Verdict.gaveUp_all_iff]
      exact ⟨s', hcomes, h⟩
    | unionRight hs unseen hcomes =>
      rw [step_unionRight hs unseen, Verdict.gaveUp_any_iff]
      exact ⟨t', hcomes, h⟩
    | shape hcomes hf optional =>
      simpa [step, isIntrinsic_iff] using gaveUp_shape_iff.mpr ⟨_, _, hcomes, hf, optional, h⟩
    | param count hcomes hasks =>
      simpa [step, isIntrinsic_iff] using
        gaveUp_signature_iff.mpr ⟨count, .inl ⟨_, _, _, _, hcomes, hasks, h⟩⟩
    | result count params covered =>
      simpa [step, isIntrinsic_iff] using
        gaveUp_signature_iff.mpr ⟨count, .inr ⟨params, covered, h⟩⟩
    | array => simpa [step, isIntrinsic_iff] using h
    | argument name length hcomes hasks =>
      simpa [step, isIntrinsic_iff] using
        gaveUp_application_iff.mpr ⟨rfl, length, _, _, _, _, hcomes, hasks, h⟩

end

/-! ## Too deep a walk -/

/-- The walk asks a chain of questions that is longer than its levels, each about two types that
are not equal and each a part of answering the one before. -/
inductive Overruns (o : Options) : Nat → Ty → Ty → Prop
  | limit {s t : Ty} (differ : ¬ s.Equal t) : Overruns o 0 s t
  | deeper {n : Nat} {s t s' t' : Ty} (differ : ¬ s.Equal t)
      (asks : Asks o (Holds (walk o n)) s t s' t') (rest : Overruns o n s' t') :
      Overruns o (n + 1) s t

theorem gaveUp_walk_iff {o : Options} {n : Nat} {s t : Ty} :
    (walk o n s t).gaveUp = true ↔ Overruns o n s t := by
  induction n generalizing s t with
  | zero =>
    rw [walk_zero]
    split
    next heq =>
      constructor
      · intro h
        cases h
      · rintro ⟨differ⟩
        exact absurd heq differ
    next hne => exact ⟨fun _ => .limit hne, fun _ => rfl⟩
  | succ n ih =>
    rw [walk_succ]
    split
    next heq =>
      constructor
      · intro h
        cases h
      · rintro (_ | ⟨differ, -, -⟩)
        exact absurd heq differ
    next hne =>
      rw [gaveUp_step_iff]
      constructor
      · rintro ⟨s', t', asks, h⟩
        exact .deeper hne asks (ih.mp h)
      · rintro (_ | ⟨-, asks, rest⟩)
        exact ⟨_, _, asks, ih.mpr rest⟩

end Assignability

/-! ## What a checker remembers -/

/-- The walk for a query, or the second of the two, goes deeper than the options allow. -/
def Query.Overruns (o : Options) : Query → Prop
  | .assignable s t => Assignability.Overruns o o.maxDepth s t
  | .equivalent s t => Assignability.Overruns o o.maxDepth s t ∨
      s.isAssignable t o = true ∧ Assignability.Overruns o o.maxDepth t s

namespace Checker

/-- A query adds to what was there before. -/
theorem gaveUp_ask_iff (o : Options) (gaveUp : Bool) (query : Query) :
    ((⟨o, 0, gaveUp⟩ : Checker).ask query).2.gaveUp = true ↔ gaveUp = true ∨ query.Overruns o := by
  cases query with
  | assignable s t =>
    rw [ask, assignable_eq, record, Bool.or_eq_true, Nat.sub_zero, Assignability.gaveUp_walk_iff]
    rfl
  | equivalent s t =>
    rw [ask, equivalent_eq, record, Bool.or_eq_true, Nat.sub_zero, Assignability.both,
      Verdict.gaveUp_and, Bool.or_eq_true, Bool.and_eq_true, Assignability.gaveUp_walk_iff,
      Assignability.gaveUp_walk_iff]
    rfl

theorem gaveUp_after_iff (o : Options) (gaveUp : Bool) (queries : List Query) :
    ((⟨o, 0, gaveUp⟩ : Checker).after queries).gaveUp = true ↔
      gaveUp = true ∨ ∃ query ∈ queries, query.Overruns o := by
  induction queries generalizing gaveUp with
  | nil => simp [after]
  | cons query queries ih =>
    have hgave := gaveUp_ask_iff o gaveUp query
    obtain ⟨flag, hask⟩ := exists_snd_ask ⟨o, 0, gaveUp⟩ query
    rw [hask] at hgave
    have hrest : (⟨o, 0, gaveUp⟩ : Checker).after (query :: queries) =
        (⟨o, 0, flag⟩ : Checker).after queries := congrArg (after · queries) hask
    rw [hrest, ih, hgave]
    simp only [List.mem_cons, or_and_right, exists_or, exists_eq_left, or_assoc]

/-- A fresh checker says of its first query whether the walk went too deep. A checker that has been
asked before says so of all its queries together, which is the same just if the last walk went too
deep or none of the earlier ones did. -/
theorem gaveUp_about_all_queries (o : Options) (earlier : List Query) (last : Query) :
    let asked := (((fresh o).after earlier).ask last).2
    (((fresh o).ask last).2.gaveUp = true ↔ last.Overruns o) ∧
      (asked.gaveUp = true ↔ ∃ query ∈ earlier ++ [last], query.Overruns o) ∧
      (asked.gaveUp = ((fresh o).ask last).2.gaveUp ↔
        last.Overruns o ∨ ∀ query ∈ earlier, ¬ query.Overruns o) := by
  intro asked
  have hfresh : ((fresh o).ask last).2.gaveUp = true ↔ last.Overruns o := by
    rw [fresh, gaveUp_ask_iff]
    exact or_iff_right (by simp)
  have hlast : asked = (fresh o).after (earlier ++ [last]) := by
    simp [asked, after]
  have hasked : asked.gaveUp = true ↔ ∃ query ∈ earlier ++ [last], query.Overruns o := by
    rw [hlast, fresh, gaveUp_after_iff]
    exact or_iff_right (by simp)
  refine ⟨hfresh, hasked, ?_⟩
  rw [Bool.eq_iff_iff, hfresh, hasked]
  simp only [List.mem_append, List.mem_singleton, or_and_right, exists_or, exists_eq_left]
  by_cases hlast : last.Overruns o <;> simp [hlast]

/-- A walk that is answered in full, after one that was not. -/
theorem gaveUp_outlasts_its_walk :
    let unasked : Checker := fresh { maxDepth := 1 }
    let deep : Query := .assignable (.array (.intrinsic .string)) (.array (.intrinsic .number))
    let last : Query := .assignable (.intrinsic .string) (.intrinsic .number)
    (unasked.ask last).2.gaveUp = false ∧ ((unasked.after [deep]).ask last).2.gaveUp = true := by
  simp only [ask, after, List.foldl, assignable_eq]
  decide

end Checker
end ShapeTyping
