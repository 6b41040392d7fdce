import ShapeTyping.Conformance.Walk
import ShapeTyping.Proofs.Options.Order
import ShapeTyping.Proofs.Outcome
import ShapeTyping.Proofs.Ty.Same
import ShapeTyping.Proofs.Value.WellFormed
/-! Which values a check accepts, apart from what it reports about the others. -/
namespace ShapeTyping.Conformance

def Accepts (o : Options) (b : Budget) (v : Value) (t : Ty) : Prop := check o b v t = .ok ()

/-- What an object may have under the name of a field. -/
inductive FieldAccepts (o : Options) (b : Budget) (f : Field Ty) : Option Value → Prop
  | absent (optional : f.optional = true) : FieldAccepts o b f none
  | undefined (optional : f.optional = true) (loose : o.exactOptionalPropertyTypes = false) :
      FieldAccepts o b f (some .undefined)
  | present {v : Value} (h : Accepts o b v f.type) : FieldAccepts o b f (some v)

/-- One level of acceptance, the limit and `strictNullChecks` apart. -/
inductive Fits (o : Options) (b : Budget) : Value → Ty → Prop
  | intrinsic {v : Value} {kind : Intrinsic} (h : v.hasKind kind = true) :
      Fits o b v (.intrinsic kind)
  | literal {v : Value} {value : Literal} (h : v.isLiteral value = true) :
      Fits o b v (.literal value)
  | union {v : Value} {t : Ty} {ts : List Ty} (ht : t ∈ ts) (h : Accepts o b v t) :
      Fits o b v (.union ts)
  | shape {entries : List (String × Value)} {s : Shape Ty}
      (h : ∀ f ∈ s.fields, FieldAccepts o b.next f (entries.lookup f.name)) :
      Fits o b (.object entries) (.shape s)
  | array {vs : List Value} {t : Ty} (h : ∀ v ∈ vs, Accepts o b.next v t) :
      Fits o b (.array vs) (.array t)
  | function {name? : Option String} {arity : Nat} {s : Signature Ty}
      (h : arity ≤ s.params.length) : Fits o b (.function name? arity) (.function s)
  | application {v : Value} {name : String} {ts : List Ty} (h : v.isOpaque = true) :
      Fits o b v (.application name ts)

variable {o : Options} {b : Budget} {v : Value} {t : Ty}

theorem require_eq_ok {accepted : Bool} : require accepted v t = .ok () ↔ accepted = true := by
  unfold require mismatch
  cases accepted <;> simp

theorem under_eq_ok {step : Step} {r : Except Violation Unit} :
    under step r = .ok () ↔ r = .ok () := Outcome.mapError_eq_ok

theorem items_eq_ok {f : Value → Except Violation Unit} {i : Nat} {vs : List Value} :
    items f i vs = .ok () ↔ ∀ v ∈ vs, f v = .ok () := by
  induction vs generalizing i with
  | nil => simp [items]
  | cons v vs ih => rw [items, Outcome.seq_eq_ok, under_eq_ok, ih, List.forall_mem_cons]

theorem checkAny_iff {ts : List Ty} : checkAny o b v ts = true ↔ ∃ t ∈ ts, Accepts o b v t := by
  induction ts with
  | nil => simp [checkAny]
  | cons t ts ih =>
    rw [checkAny, Bool.or_eq_true, ih, Outcome.isOk_iff, List.exists_mem_cons_iff]
    rfl

theorem checkFields_eq_ok {entries : List (String × Value)} {fs : List (Field Ty)} :
    checkFields o b entries fs = .ok () ↔
      ∀ f ∈ fs, FieldAccepts o b f (entries.lookup f.name) := by
  induction fs with
  | nil => simp [checkFields]
  | cons f fs ih =>
    rw [checkFields, Outcome.seq_eq_ok, under_eq_ok, ih, List.forall_mem_cons]
    refine and_congr_left fun _ => ?_
    cases entries.lookup f.name with
    | none =>
      constructor
      · intro h
        cases hf : f.optional with
        | true => exact .absent hf
        | false => simp [hf] at h
      · rintro ⟨hf⟩
        simp [hf]
    | some v =>
      dsimp only
      constructor
      · intro h
        split at h
        next hv =>
          simp only [Bool.and_eq_true, Bool.not_eq_true'] at hv
          cases v <;> simp [Value.isUndefined] at hv
          exact .undefined hv.1 hv.2
        next => exact .present h
      · rintro (_ | ⟨hf, hx⟩ | h)
        · simp [Value.isUndefined, hf, hx]
        · split
          · rfl
          · assumption

theorem checkShape_eq_ok {s : Shape Ty} :
    checkShape o b v s = .ok () ↔ ∃ entries, v = .object entries ∧
      ∀ f ∈ s.fields, FieldAccepts o b f (entries.lookup f.name) := by
  unfold checkShape
  cases v with
  | object entries => simp [checkFields_eq_ok]
  | _ => simp [mismatch]

theorem accepts_iff : Accepts o b v t ↔
    b.isSpent = false ∧ ((o.strictNullChecks = false ∧ v.isNullish = true) ∨ Fits o b v t) := by
  unfold Accepts
  rw [check.eq_def]
  split
  next hb => simp [hb]
  next hb =>
    rw [Bool.not_eq_true] at hb
    split
    next hn =>
      rw [Bool.and_eq_true, Bool.not_eq_true'] at hn
      simp [hb, hn.1, hn.2]
    next hn =>
      rw [Bool.and_eq_true, Bool.not_eq_true'] at hn
      simp only [hb, hn, true_and, false_or]
      cases t with
      | intrinsic kind =>
        rw [require_eq_ok]
        exact ⟨.intrinsic, fun | .intrinsic h => h⟩
      | literal value =>
        rw [require_eq_ok]
        exact ⟨.literal, fun | .literal h => h⟩
      | union ts =>
        rw [require_eq_ok, checkAny_iff]
        constructor
        · rintro ⟨t, ht, h⟩
          exact .union ht h
        · intro h
          cases h with
          | union ht h => exact ⟨_, ht, h⟩
      | shape s =>
        cases v with
        | object entries =>
          exact checkFields_eq_ok.trans ⟨.shape, fun | .shape h => h⟩
        | _ => exact ⟨nofun, nofun⟩
      | array t =>
        cases v with
        | array vs => exact items_eq_ok.trans ⟨.array, fun | .array h => h⟩
        | _ => exact ⟨nofun, nofun⟩
      | function s =>
        rw [require_eq_ok]
        cases v with
        | function name? arity =>
          rw [Value.isCallableWith, decide_eq_true_eq]
          exact ⟨.function, fun | .function h => h⟩
        | _ => exact ⟨nofun, nofun⟩
      | application name ts =>
        rw [require_eq_ok]
        exact ⟨.application, fun | .application h => h⟩

theorem Accepts.isSpent (h : Accepts o b v t) : b.isSpent = false := (accepts_iff.mp h).1

theorem accepts_of_fits (hb : b.isSpent = false) (h : Fits o b v t) : Accepts o b v t :=
  accepts_iff.mpr ⟨hb, .inr h⟩

theorem accepts_of_nullish (hb : b.isSpent = false) (loose : o.strictNullChecks = false)
    (hv : v.isNullish = true) : Accepts o b v t := accepts_iff.mpr ⟨hb, .inl ⟨loose, hv⟩⟩

/-- What is accepted for being `null` or `undefined` is accepted everywhere. -/
theorem Accepts.bind {s : Ty} (h : Accepts o b v s) (hf : Fits o b v s → Accepts o b v t) :
    Accepts o b v t := by
  obtain ⟨hb, ⟨loose, hv⟩ | h⟩ := accepts_iff.mp h
  · exact accepts_of_nullish hb loose hv
  · exact hf h

theorem Accepts.imp {s : Ty} (h : Accepts o b v s) (hf : Fits o b v s → Fits o b v t) :
    Accepts o b v t := h.bind fun hs => accepts_of_fits h.isSpent (hf hs)

theorem fieldAccepts_some_iff {f : Field Ty} :
    FieldAccepts o b f (some v) ↔
      Accepts o b v f.type ∨
        (v = .undefined ∧ f.optional = true ∧ o.exactOptionalPropertyTypes = false) := by
  constructor
  · intro h
    cases h with
    | undefined optional loose => exact .inr ⟨rfl, optional, loose⟩
    | present h => exact .inl h
  · rintro (h | ⟨rfl, optional, loose⟩)
    · exact .present h
    · exact .undefined optional loose

theorem FieldAccepts.mono {o' : Options} {b' : Budget} {f g : Field Ty} {v? : Option Value}
    (ho : o.AtMost o') (h : FieldAccepts o b f v?) (hfg : f.optional = true → g.optional = true)
    (ht : ∀ v, v? = some v → Accepts o b v f.type → Accepts o' b' v g.type) :
    FieldAccepts o' b' g v? := by
  cases h with
  | absent optional => exact .absent (hfg optional)
  | undefined optional loose => exact .undefined (hfg optional) (ho.looseOptionals loose)
  | present h => exact .present (ht _ rfl h)

/-! ## Equal types accept the same values -/

theorem isLiteral_of_same {a b : Literal} (h : v.isLiteral a = true) (hab : a.same b = true) :
    v.isLiteral b = true := by
  cases v <;> cases a <;> simp only [Value.isLiteral, Bool.false_eq_true] at h <;>
    cases b <;> simp only [Literal.same, Bool.false_eq_true] at hab
  · rw [← eq_of_beq hab]; exact h
  · exact Number.same_trans h hab
  · rw [← eq_of_beq hab]; exact h

theorem Accepts.of_equal {s : Ty} (hs : s.WellFormed) (hst : s.Equal t) (h : Accepts o b v s) :
    Accepts o b v t := by
  induction s generalizing t b v with
  | intrinsic kind => cases Ty.equal_iff.mp hst; exact h
  | literal value =>
    cases Ty.equal_iff.mp hst with
    | literal hab =>
      refine h.imp fun hf => ?_
      cases hf with
      | literal hv => exact .literal (isLiteral_of_same hv hab)
  | shape a ih =>
    have halike := Ty.equal_iff.mp hst
    cases ha : halike with
    | @shape _ c length fields =>
      refine h.imp fun hf => ?_
      cases hf with
      | shape hv =>
        refine .shape fun g hg => ?_
        obtain ⟨f, hf, hfg⟩ := halike.exists_field hs.proper hg
        obtain ⟨hfm, hfn⟩ := Shape.mem_of_field? hf
        rw [← hfn]
        refine (hv f hfm).mono (.refl o) (fun ho => hfg.optional ▸ ho) fun w _ hw => ?_
        exact ih f hfm (hs.part (Ty.field_mem_parts hfm)) hfg.type hw
  | union ss ih =>
    cases Ty.equal_iff.mp hst with
    | union members =>
      refine h.imp fun hf => ?_
      cases hf with
      | union hm hv =>
        obtain ⟨m', hm', hmm'⟩ := Ty.forall₂_exists members hm
        exact .union hm' (ih _ hm (hs.part (Ty.member_mem_parts hm)) hmm' hv)
  | function c ihp ihr =>
    cases Ty.equal_iff.mp hst with
    | function params result =>
      refine h.imp fun hf => ?_
      cases hf with
      | function hv => exact .function (params.length_eq ▸ hv)
  | array element ih =>
    cases Ty.equal_iff.mp hst with
    | array he =>
      refine h.imp fun hf => ?_
      cases hf with
      | array hv =>
        exact .array fun w hw => ih (hs.part (Ty.element_mem_parts _)) he (hv w hw)
  | application name ss ih =>
    cases Ty.equal_iff.mp hst with
    | application _ arguments =>
      refine h.imp fun hf => ?_
      cases hf with
      | application hv => exact .application hv

end ShapeTyping.Conformance
