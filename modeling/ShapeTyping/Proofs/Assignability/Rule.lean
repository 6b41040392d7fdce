import ShapeTyping.Assignability.Walk
import ShapeTyping.Proofs.Options.Order
import ShapeTyping.Proofs.Ty.Same
/-! The rules of assignability: what a step of the walk finds to hold, with the
order in which the step tries things taken away. -/
namespace ShapeTyping.Assignability

/-- A field of the target is served by what the source has under its name. -/
inductive Serves (below : Ty → Ty → Prop) (g : Field Ty) : Option (Field Ty) → Prop
  | present {f : Field Ty} (optional : f.optional = true → g.optional = true)
      (type : below f.type g.type) : Serves below g (some f)
  | absent (optional : g.optional = true) : Serves below g none

def ParamsBelow (variance : Variance) (below : Ty → Ty → Prop) (candidate required : Ty) : Prop :=
  match variance with
  | .equivalent => below candidate required ∧ below required candidate
  | .contravariant => below required candidate
  | .bivariant => below required candidate ∨ below candidate required

def ResultsBelow (relation : ResultRelation) (below : Ty → Ty → Prop) (candidate required : Ty) :
    Prop :=
  match relation with
  | .covariant => below candidate required
  | .either => below candidate required ∨ below required candidate

structure SignatureBelow (variance : Variance) (relation : ResultRelation)
    (below : Ty → Ty → Prop) (c r : Signature Ty) : Prop where
  count : c.requiredCount ≤ r.params.length
  params : ∀ pq ∈ c.params.zip r.params, ParamsBelow variance below pq.1.type pq.2.type
  covered : ∀ q ∈ r.params.drop c.params.length, q.optional = true
  result : ResultsBelow relation below c.result r.result

/-- The rules, where `below` relates the parts. -/
inductive Rule (o : Options) (below : Ty → Ty → Prop) : Ty → Ty → Prop
  | top (s : Ty) {kind : Intrinsic} (h : kind = .any ∨ kind = .unknown) :
      Rule o below s (.intrinsic kind)
  | any (t : Ty) : Rule o below (.intrinsic .any) t
  | never (t : Ty) : Rule o below (.intrinsic .never) t
  | nullish (loose : o.strictNullChecks = false) {kind : Intrinsic}
      (h : kind = .null ∨ kind = .undefined) (t : Ty) : Rule o below (.intrinsic kind) t
  | void : Rule o below (.intrinsic .undefined) (.intrinsic .void)
  | unionLeft {ss : List Ty} {t : Ty} (members : ∀ s ∈ ss, below s t) :
      Rule o below (.union ss) t
  | unionRight {s t : Ty} {ts : List Ty} (hs : s.isUnion = false) (ht : t ∈ ts) (h : below s t) :
      Rule o below s (.union ts)
  | literal (value : Literal) : Rule o below (.literal value) (.intrinsic value.widened)
  | shape {a b : Shape Ty} (fields : ∀ g ∈ b.fields, Serves below g (a.field? g.name)) :
      Rule o below (.shape a) (.shape b)
  | function {c r : Signature Ty} (h : SignatureBelow o.parameterVariance .covariant below c r) :
      Rule o below (.function c) (.function r)
  | array {s t : Ty} (h : below s t) : Rule o below (.array s) (.array t)
  | application (name : String) {ss ts : List Ty}
      (arguments : List.Forall₂ (fun s t => below s t ∧ below t s) ss ts) :
      Rule o below (.application name ss) (.application name ts)

/-- The relation a family of verdicts finds to hold. -/
def Holds (below : Ty → Ty → Verdict) (s t : Ty) : Prop := (below s t).holds = true

section
variable {below : Ty → Ty → Verdict}

theorem holds_both_iff {s t : Ty} :
    (both below s t).holds = true ↔ Holds below s t ∧ Holds below t s := by
  rw [both, Verdict.holds_and, Bool.and_eq_true]
  rfl

theorem holds_paramsRelated_iff {variance : Variance} {s t : Ty} :
    (paramsRelated variance below s t).holds = true ↔ ParamsBelow variance (Holds below) s t := by
  cases variance with
  | equivalent => exact holds_both_iff
  | contravariant => rfl
  | bivariant =>
    rw [paramsRelated, Verdict.holds_or, Bool.or_eq_true]
    rfl

theorem holds_resultsRelated_iff {relation : ResultRelation} {s t : Ty} :
    (resultsRelated relation below s t).holds = true ↔
      ResultsBelow relation (Holds below) s t := by
  cases relation with
  | covariant => rfl
  | either =>
    rw [resultsRelated, Verdict.holds_or, Bool.or_eq_true]
    rfl

theorem holds_signature_iff {variance : Variance} {relation : ResultRelation}
    {c r : Signature Ty} :
    (signature variance relation below c r).holds = true ↔
      SignatureBelow variance relation (Holds below) c r := by
  simp only [signature, Verdict.holds_and, Verdict.holds_all, Verdict.ofBool,
    Bool.and_eq_true, List.all_eq_true, decide_eq_true_eq, holds_paramsRelated_iff,
    holds_resultsRelated_iff]
  constructor
  · rintro ⟨hc, hp, hq, hr⟩
    exact ⟨hc, hp, hq, hr⟩
  · rintro ⟨hc, hp, hq, hr⟩
    exact ⟨hc, hp, hq, hr⟩

/-- The verdict on what a shape has for one field of the target. -/
def fieldServed (below : Ty → Ty → Verdict) (a : Shape Ty) (g : Field Ty) : Verdict :=
  match a.field? g.name with
  | some f => (Verdict.ofBool (!f.optional || g.optional)).and fun _ => below f.type g.type
  | none => Verdict.ofBool g.optional

theorem shape_eq (below : Ty → Ty → Verdict) (a b : Shape Ty) :
    shape below a b = Verdict.all (fieldServed below a) b.fields := rfl

theorem optional_passes_iff {f g : Field Ty} :
    (!f.optional || g.optional) = true ↔ (f.optional = true → g.optional = true) := by
  cases f.optional <;> simp

theorem holds_fieldServed_iff {a : Shape Ty} {g : Field Ty} :
    (fieldServed below a g).holds = true ↔ Serves (Holds below) g (a.field? g.name) := by
  unfold fieldServed
  cases a.field? g.name with
  | none =>
    constructor
    · exact .absent
    · rintro ⟨⟩
      assumption
  | some f =>
    simp only [Verdict.holds_and, Verdict.ofBool, Bool.and_eq_true, optional_passes_iff]
    constructor
    · rintro ⟨ho, ht⟩
      exact .present ho ht
    · rintro ⟨ho, ht⟩
      exact ⟨ho, ht⟩

theorem holds_shape_iff {a b : Shape Ty} :
    (shape below a b).holds = true ↔
      ∀ g ∈ b.fields, Serves (Holds below) g (a.field? g.name) := by
  rw [shape_eq, Verdict.holds_all, List.all_eq_true]
  exact forall₂_congr fun g _ => holds_fieldServed_iff

theorem holds_application_iff {m n : String} {ss ts : List Ty} :
    (application below m n ss ts).holds = true ↔
      m = n ∧ List.Forall₂ (fun s t => Holds below s t ∧ Holds below t s) ss ts := by
  rw [application, Verdict.holds_and, Verdict.holds_all, List.forall₂_iff_zip]
  simp only [Verdict.ofBool, Bool.and_eq_true, beq_iff_eq, List.all_eq_true, holds_both_iff,
    Prod.forall, and_assoc]

theorem isIntrinsic_iff {t : Ty} {kind : Intrinsic} :
    t.isIntrinsic kind = true ↔ t = .intrinsic kind := by
  cases t <;> simp [Ty.isIntrinsic, Ty.intrinsic?]

theorem rule_of_holds_step {o : Options} {s t : Ty} (h : (step o below s t).holds = true) :
    Rule o (Holds below) s t := by
  unfold step at h
  split at h
  case isTrue ht =>
    rw [Bool.or_eq_true, isIntrinsic_iff, isIntrinsic_iff] at ht
    rcases ht with rfl | rfl
    · exact .top s (.inl rfl)
    · exact .top s (.inr rfl)
  split at h
  case isTrue hs =>
    rw [Bool.or_eq_true, isIntrinsic_iff, isIntrinsic_iff] at hs
    rcases hs with rfl | rfl
    · exact .any t
    · exact .never t
  split at h
  case isTrue hs =>
    rw [Bool.and_eq_true, Bool.not_eq_true', Bool.or_eq_true, isIntrinsic_iff,
      isIntrinsic_iff] at hs
    rcases hs with ⟨loose, rfl | rfl⟩
    · exact .nullish loose (.inl rfl) t
    · exact .nullish loose (.inr rfl) t
  split at h
  case isTrue hst =>
    rw [Bool.and_eq_true, isIntrinsic_iff, isIntrinsic_iff] at hst
    obtain ⟨rfl, rfl⟩ := hst
    exact .void
  split at h
  case h_1 =>
    rw [Verdict.holds_all, List.all_eq_true] at h
    exact .unionLeft h
  case h_2 hs _ _ =>
    rw [Verdict.holds_any, List.any_eq_true] at h
    obtain ⟨m, hm, hsm⟩ := h
    refine .unionRight ?_ hm hsm
    cases s with
    | union ss => exact absurd rfl (hs ss)
    | _ => rfl
  case h_3 => rw [← eq_of_beq h]; exact .literal _
  case h_4 => exact .shape (holds_shape_iff.mp h)
  case h_5 => exact .function (holds_signature_iff.mp h)
  case h_6 => exact .array h
  case h_7 =>
    obtain ⟨rfl, ha⟩ := holds_application_iff.mp h
    exact .application _ ha
  case h_8 => cases h

theorem holds_step_of_rule {o : Options} {s t : Ty} (h : Rule o (Holds below) s t) :
    (step o below s t).holds = true := by
  cases h with
  | top s h => rcases h with rfl | rfl <;> simp [step, isIntrinsic_iff, Verdict.ofBool]
  | any t => simp [step, isIntrinsic_iff, Verdict.ofBool]
  | never t => simp [step, isIntrinsic_iff, Verdict.ofBool]
  | nullish loose h t =>
    rcases h with rfl | rfl <;> simp [step, isIntrinsic_iff, Verdict.ofBool, loose]
  | void => simp [step, isIntrinsic_iff, Verdict.ofBool]
  | @unionLeft ss t members =>
    unfold step
    split
    · rfl
    · have hall : (Verdict.all (fun s => below s t) ss).holds = true := by
        rw [Verdict.holds_all, List.all_eq_true]
        exact members
      simpa [isIntrinsic_iff] using hall
  | @unionRight s t ts hs ht h =>
    have hany : (Verdict.any (fun t => below s t) ts).holds = true := by
      rw [Verdict.holds_any, List.any_eq_true]
      exact ⟨t, ht, h⟩
    -- A rule on the source alone may come first, and then the answer is yes as well.
    unfold step
    repeat (split; · rfl)
    cases s with
    | union ss => cases hs
    | _ => exact hany
  | literal value => cases value <;> simp [step, isIntrinsic_iff, Verdict.ofBool, Literal.widened]
  | shape fields => simpa [step, isIntrinsic_iff] using holds_shape_iff.mpr fields
  | function h => simpa [step, isIntrinsic_iff] using holds_signature_iff.mpr h
  | array h => simpa [step, isIntrinsic_iff, Holds] using h
  | application name arguments =>
    simpa [step, isIntrinsic_iff] using holds_application_iff.mpr ⟨rfl, arguments⟩

theorem holds_step_iff {o : Options} {s t : Ty} :
    (step o below s t).holds = true ↔ Rule o (Holds below) s t :=
  ⟨rule_of_holds_step, holds_step_of_rule⟩

end

/-- The limit that the options set is for the outermost walk only. -/
theorem walk_maxDepth (o : Options) (d n : Nat) : walk { o with maxDepth := d } n = walk o n := by
  induction n with
  | zero =>
    funext s t
    rw [walk_zero, walk_zero]
  | succ n ih =>
    funext s t
    rw [walk_succ, walk_succ, ih]
    rfl

theorem holds_walk_zero_iff {o : Options} {s t : Ty} : Holds (walk o 0) s t ↔ s.Equal t := by
  unfold Holds Ty.Equal
  rw [walk_zero]
  split <;> simp_all [Verdict.ofBool, Verdict.undecided]

theorem holds_walk_succ_iff {o : Options} {n : Nat} {s t : Ty} :
    Holds (walk o (n + 1)) s t ↔ s.Equal t ∨ Rule o (Holds (walk o n)) s t := by
  rw [← holds_step_iff]
  unfold Holds Ty.Equal
  rw [walk_succ]
  split <;> simp_all [Verdict.ofBool]

/-! ## More below and looser options, more by rule -/

section
variable {below above : Ty → Ty → Prop}

theorem Serves.imp (h : ∀ s t, below s t → above s t) {g : Field Ty} {f? : Option (Field Ty)}
    (hs : Serves below g f?) : Serves above g f? := by
  cases hs with
  | present optional type => exact .present optional (h _ _ type)
  | absent optional => exact .absent optional

theorem ParamsBelow.mono {variance variance' : Variance}
    (hv : variance.looseness ≤ variance'.looseness) {s t s' t' : Ty}
    (h : below s t → above s' t') (h' : below t s → above t' s')
    (hp : ParamsBelow variance below s t) : ParamsBelow variance' above s' t' := by
  cases variance with
  | equivalent =>
    cases variance' with
    | equivalent => exact ⟨h hp.1, h' hp.2⟩
    | contravariant => exact h' hp.2
    | bivariant => exact .inl (h' hp.2)
  | contravariant =>
    cases variance' with
    | equivalent => exact absurd hv (by decide)
    | contravariant => exact h' hp
    | bivariant => exact .inl (h' hp)
  | bivariant =>
    cases variance' with
    | equivalent => exact absurd hv (by decide)
    | contravariant => exact absurd hv (by decide)
    | bivariant => exact hp.imp h' h

theorem ResultsBelow.imp {relation : ResultRelation} {s t s' t' : Ty}
    (h : below s t → above s' t') (h' : below t s → above t' s')
    (hr : ResultsBelow relation below s t) : ResultsBelow relation above s' t' := by
  cases relation with
  | covariant => exact h hr
  | either => exact Or.imp h h' hr

theorem SignatureBelow.mono {variance variance' : Variance} {relation : ResultRelation}
    (hv : variance.looseness ≤ variance'.looseness) (h : ∀ s t, below s t → above s t)
    {c r : Signature Ty} (hs : SignatureBelow variance relation below c r) :
    SignatureBelow variance' relation above c r :=
  ⟨hs.count, fun pq hpq => (hs.params pq hpq).mono hv (h _ _) (h _ _), hs.covered,
    hs.result.imp (h _ _) (h _ _)⟩

theorem Rule.mono {o o' : Options} (ho : o.AtMost o') (h : ∀ s t, below s t → above s t)
    {s t : Ty} (hr : Rule o below s t) : Rule o' above s t := by
  cases hr with
  | top s hk => exact .top s hk
  | any t => exact .any t
  | never t => exact .never t
  | nullish loose hk t => exact .nullish (ho.looseNulls loose) hk t
  | void => exact .void
  | unionLeft members => exact .unionLeft fun s hs => h _ _ (members s hs)
  | unionRight hs ht hst => exact .unionRight hs ht (h _ _ hst)
  | literal value => exact .literal value
  | shape fields => exact .shape fun g hg => (fields g hg).imp h
  | function hs => exact .function (hs.mono ho.parameterVariance h)
  | array hst => exact .array (h _ _ hst)
  | application name arguments =>
    refine .application name (arguments.imp fun s t hst => ?_)
    exact ⟨h _ _ hst.1, h _ _ hst.2⟩

end

theorem holds_walk_of_equal {o : Options} {n : Nat} {s t : Ty} (h : s.Equal t) :
    Holds (walk o n) s t := by
  cases n with
  | zero => exact holds_walk_zero_iff.mpr h
  | succ n => exact holds_walk_succ_iff.mpr (.inl h)

theorem holds_walk_mono {o o' : Options} (ho : o.AtMost o') {n m : Nat} (hn : n ≤ m) {s t : Ty}
    (h : Holds (walk o n) s t) : Holds (walk o' m) s t := by
  induction n generalizing m s t with
  | zero => exact holds_walk_of_equal (holds_walk_zero_iff.mp h)
  | succ n ih =>
    obtain ⟨m, rfl⟩ : ∃ k, m = k + 1 := ⟨m - 1, by omega⟩
    rcases holds_walk_succ_iff.mp h with heq | hrule
    · exact holds_walk_of_equal heq
    · refine holds_walk_succ_iff.mpr (.inr (hrule.mono ho fun a b hab => ?_))
      exact ih (by omega) hab

end ShapeTyping.Assignability
