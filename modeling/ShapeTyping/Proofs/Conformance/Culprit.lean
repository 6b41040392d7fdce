import Mathlib.Data.List.Induction
import ShapeTyping.Proofs.Conformance.Budget
import ShapeTyping.Proofs.Conformance.Walker
/-! What a violation points at. Its path can be followed through the value and the type
together, and the part of the value at its end is at fault all by itself, with the levels
that are left there. -/
namespace ShapeTyping

/-! ## Paths -/

namespace Step

/-- How the text of a path is made up, step by step from the outermost one. -/
inductive Rendered : List Step → String → Prop
  | nil : Rendered [] ""
  | index {path : List Step} {text : String} (h : Rendered path text) (i : Nat) :
      Rendered (path ++ [.index i]) (text ++ "[" ++ toString i ++ "]")
  | first {path : List Step} (h : Rendered path "") (name : String) :
      Rendered (path ++ [.field name]) name
  | field {path : List Step} {text : String} (h : Rendered path text) (started : text ≠ "")
      (name : String) : Rendered (path ++ [.field name]) (text ++ "." ++ name)

theorem render_append (path : List Step) (step : Step) :
    render (path ++ [step]) = append (render path) step := by
  simp [render]

theorem rendered_render (path : List Step) : Rendered path (render path) := by
  induction path using List.reverseRecOn with
  | nil => exact .nil
  | append_singleton path step ih =>
    rw [render_append]
    cases step with
    | index i => exact .index ih i
    | field name =>
      by_cases hempty : render path = ""
      · rw [hempty] at ih ⊢
        exact .first ih name
      · simp only [append, hempty, if_false]
        exact .field ih hempty name

theorem Rendered.eq_render {path : List Step} {text : String} (h : Rendered path text) :
    text = render path := by
  induction h with
  | nil => rfl
  | index h i ih => rw [render_append, ← ih, append]
  | first h name ih => rw [render_append, ← ih, append, if_pos rfl]
  | field h started name ih => rw [render_append, ← ih, append, if_neg started]

/-- One step into a value and its type together. It goes from a shape to the type of a
field and from an array to its element, and never into a union. -/
def into? : Step → Value → Ty → Option (Value × Ty)
  | .field name, .object entries, .shape s => do
    let w ← entries.lookup name
    let f ← s.field? name
    return (w, f.type)
  | .index i, .array vs, .array element => vs[i]?.map fun w => (w, element)
  | _, _, _ => none

/-- Where a path leads. -/
def follow? : List Step → Value → Ty → Option (Value × Ty)
  | [], v, t => some (v, t)
  | step :: path, v, t => do
    let (w, u) ← step.into? v t
    follow? path w u

theorem follow?_cons_of_into? {step : Step} {v w : Value} {t u : Ty}
    (h : step.into? v t = some (w, u)) (path : List Step) :
    follow? (step :: path) v t = follow? path w u := by
  simp [follow?, h]

theorem into?_field {entries : List (String × Value)} {s : Shape Ty} {f : Field Ty} {w : Value}
    (hs : (Ty.shape s).WellFormed) (hf : f ∈ s.fields) (hw : entries.lookup f.name = some w) :
    (Step.field f.name).into? (.object entries) (.shape s) = some (w, f.type) := by
  have hfield : s.field? f.name = some f := Shape.field?_of_mem hs.proper hf
  simp [into?, hw, hfield]

end Step

namespace Conformance

open Step (follow?)

/-- What a violation says when the value was checked against the type with so many levels
left. -/
inductive Blames (o : Options) (levels : Nat) (v : Value) (t : Ty) : Violation → Prop
  | mismatch {path : List Step} {w : Value} {expected : Ty}
      (reached : follow? path v t = some (w, expected))
      (alone : check o (.levels (levels - path.length)) w expected =
        .error ⟨[], .typeMismatch expected w.kindName⟩) :
      Blames o levels v t ⟨path, .typeMismatch expected w.kindName⟩
  | missing {path : List Step} {entries : List (String × Value)} {s : Shape Ty} {f : Field Ty}
      (reached : follow? path v t = some (.object entries, .shape s))
      (absent : entries.lookup f.name = none) (declared : s.field? f.name = some f)
      (required : f.optional = false) :
      Blames o levels v t ⟨path ++ [.field f.name], .missingField⟩
  | tooDeep {path : List Step} {w : Value} {u : Ty} (reached : follow? path v t = some (w, u))
      (spent : path.length = levels) : Blames o levels v t ⟨path, .depthExceeded⟩

variable {o : Options} {b : Budget} {v w : Value} {t u : Ty} {violation : Violation}

/-- What is blamed one level further down is blamed from here. -/
theorem Blames.under {levels : Nat} {step : Step} (h : Blames o levels w u violation)
    (hstep : step.into? v t = some (w, u)) :
    Blames o (levels + 1) v t (violation.under step) := by
  have hfollow := Step.follow?_cons_of_into? hstep
  cases h with
  | @mismatch path x expected reached alone =>
    apply Blames.mismatch
    · rw [hfollow, reached]
    · rw [List.length_cons, Nat.add_sub_add_right]
      exact alone
  | @missing path entries s f reached absent declared required =>
    have hreached : follow? (step :: path) v t = some (.object entries, .shape s) := by
      rw [hfollow, reached]
    exact .missing hreached absent declared required
  | @tooDeep path x y reached spent =>
    apply Blames.tooDeep
    · rw [hfollow, reached]
    · rw [List.length_cons, spent]

/-! ## One level of a failed check -/

theorem require_eq_error {accepted : Bool} (h : require accepted v t = .error violation) :
    violation = ⟨[], .typeMismatch t v.kindName⟩ := by
  cases accepted with
  | true => cases h
  | false =>
    cases h
    rfl

theorem under_eq_error {step : Step} {r : Except Violation Unit}
    (h : under step r = .error violation) :
    ∃ inner, r = .error inner ∧ violation = inner.under step := by
  obtain ⟨inner, hr, hinner⟩ := Outcome.mapError_eq_error.mp h
  exact ⟨inner, hr, hinner.symm⟩

theorem items_eq_error {f : Value → Except Violation Unit} {i : Nat} {vs : List Value}
    (h : items f i vs = .error violation) :
    ∃ (k : Nat) (w : Value) (inner : Violation), vs[k]? = some w ∧ f w = .error inner ∧
      violation = inner.under (.index (i + k)) := by
  induction vs generalizing i with
  | nil => cases h
  | cons v vs ih =>
    rw [items] at h
    rcases Outcome.seq_eq_error.mp h with hv | ⟨-, hvs⟩
    · obtain ⟨inner, hinner, hunder⟩ := under_eq_error hv
      exact ⟨0, v, inner, rfl, hinner, hunder⟩
    · obtain ⟨k, w, inner, hw, hinner, hunder⟩ := ih hvs
      have hindex : i + 1 + k = i + (k + 1) := by omega
      rw [hindex] at hunder
      exact ⟨k + 1, w, inner, hw, hinner, hunder⟩

theorem checkFields_eq_error {entries : List (String × Value)} {fs : List (Field Ty)}
    (h : checkFields o b entries fs = .error violation) :
    ∃ f ∈ fs,
      (entries.lookup f.name = none ∧ f.optional = false ∧
        violation = ⟨[.field f.name], .missingField⟩) ∨
      ∃ w inner, entries.lookup f.name = some w ∧ check o b w f.type = .error inner ∧
        violation = inner.under (.field f.name) := by
  induction fs with
  | nil => cases h
  | cons f fs ih =>
    rw [checkFields] at h
    rcases Outcome.seq_eq_error.mp h with hf | ⟨-, hfs⟩
    · obtain ⟨inner, hinner, hunder⟩ := under_eq_error hf
      refine ⟨f, List.mem_cons_self .., ?_⟩
      cases hw : entries.lookup f.name with
      | none =>
        rw [hw] at hinner
        cases ho : f.optional with
        | true => simp [ho] at hinner
        | false =>
          simp only [ho, Bool.false_eq_true, if_false, Except.error.injEq] at hinner
          subst hinner
          exact .inl ⟨rfl, rfl, hunder⟩
      | some w =>
        simp only [hw] at hinner
        split at hinner
        · cases hinner
        · exact .inr ⟨w, inner, rfl, hinner, hunder⟩
    · obtain ⟨g, hg, hblame⟩ := ih hfs
      exact ⟨g, List.mem_cons_of_mem _ hg, hblame⟩

/-! ## The whole walk -/

theorem blames_of_check {levels : Nat} (ht : t.WellFormed)
    (h : check o (.levels levels) v t = .error violation) :
    Blames o levels v t violation := by
  induction t using Nested.induction_on generalizing levels v violation with
  | h t ih =>
    -- Whatever is wrong with the value itself is said of it and of the type as a whole.
    have hitself : violation = ⟨[], .typeMismatch t v.kindName⟩ →
        Blames o levels v t violation := by
      rintro rfl
      exact .mismatch rfl h
    cases levels with
    | zero =>
      rw [check.eq_def] at h
      cases h
      exact .tooDeep rfl rfl
    | succ levels =>
      have hcheck := h
      rw [check.eq_def] at hcheck
      simp only [Budget.isSpent, Budget.next, Nat.add_one_ne_zero, beq_iff_eq, if_false,
        Nat.add_sub_cancel] at hcheck
      split at hcheck
      next => cases hcheck
      next =>
        cases t with
        | intrinsic kind => exact hitself (require_eq_error hcheck)
        | literal value => exact hitself (require_eq_error hcheck)
        | union members => exact hitself (require_eq_error hcheck)
        | function s => exact hitself (require_eq_error hcheck)
        | application name arguments => exact hitself (require_eq_error hcheck)
        | shape s =>
          cases v with
          | object entries =>
            obtain ⟨f, hf, hblame⟩ := checkFields_eq_error hcheck
            rcases hblame with ⟨habsent, hrequired, rfl⟩ | ⟨w, inner, hw, hinner, rfl⟩
            · have hdeclared := Shape.field?_of_mem ht.proper hf
              have hhere : follow? [] (.object entries) (.shape s) =
                  some (.object entries, .shape s) := rfl
              exact .missing hhere habsent hdeclared hrequired
            · have hpart := Ty.field_mem_parts hf
              exact (ih f.type hpart (ht.part hpart) hinner).under (Step.into?_field ht hf hw)
          | _ => cases hcheck; exact hitself rfl
        | array element =>
          cases v with
          | array vs =>
            obtain ⟨k, w, inner, hw, hinner, rfl⟩ := items_eq_error hcheck
            have hpart := Ty.element_mem_parts element
            have hstep : (Step.index (0 + k)).into? (.array vs) (.array element) =
                some (w, element) := by
              simp [Step.into?, hw]
            exact (ih element hpart (ht.part hpart) hinner).under hstep
          | _ => cases hcheck; exact hitself rfl

end Conformance

/-- A departure has the text of a path and the kind of a fault that is there. A part of another type
than expected is so when it is checked alone. A missing field is required by the shape and
not in the object that the path before it leads to. Nothing is nested too deeply but what
is as many steps in as there are levels. The path is the one that the check without a text finds,
and from any text and any depth on a walker tells of what the check finds with the levels left
there, comes back to its depth, and to its text unless it stops. -/
theorem Value.violation_at_culprit (o : Options) {v : Value} {t : Ty} {departure : Departure}
    (ht : t.WellFormed) (h : v.examine t o = .error departure) :
    let limit := min o.maxDepth 64
    (∃ path, Step.Rendered path departure.path ∧
      v.conforms t o = .error ⟨path, departure.problem⟩ ∧
      match departure.problem with
      | .typeMismatch expected found =>
        ∃ w, Step.follow? path v t = some (w, expected) ∧ found = w.kindName ∧
          w.examine expected { o with maxDepth := limit - path.length } =
            .error ⟨"", .typeMismatch expected found⟩
      | .missingField =>
        ∃ before entries s f, path = before ++ [.field f.name] ∧
          Step.follow? before v t = some (.object entries, .shape s) ∧
          entries.lookup f.name = none ∧ s.field? f.name = some f ∧ f.optional = false
      | .depthExceeded =>
        (∃ w u, Step.follow? path v t = some (w, u)) ∧ path.length = limit) ∧
    ∀ text depth,
      let start : Walker := ⟨o, text, depth⟩
      (Walker.check v t).run.run start =
        start.outcome (Conformance.check o (.levels (limit - depth)) v t) := by
  intro limit
  have hlimit : o.conformanceLimit = limit := o.conformanceLimit_eq
  constructor
  · rw [Value.examine_eq] at h
    obtain ⟨⟨path, problem⟩, hviolation, rfl⟩ := Outcome.mapError_eq_error.mp h
    refine ⟨path, Step.rendered_render path, hviolation, ?_⟩
    have hblames := Conformance.blames_of_check ht hviolation
    rw [hlimit] at hblames
    cases hblames with
    | @mismatch path w expected reached alone =>
      refine ⟨w, reached, rfl, ?_⟩
      have hagain : ({ o with maxDepth := limit - path.length } : Options).conformanceLimit =
          limit - path.length := by
        rw [Options.conformanceLimit_eq]
        show min (limit - path.length) 64 = limit - path.length
        omega
      have hchecked : w.conforms expected { o with maxDepth := limit - path.length } =
          .error ⟨[], .typeMismatch expected w.kindName⟩ := by
        unfold Value.conforms
        rw [hagain, ← alone]
        exact Conformance.check_options ⟨rfl, rfl⟩
      rw [Value.examine_eq, hchecked]
      rfl
    | missing reached absent declared required =>
      exact ⟨_, _, _, _, rfl, reached, absent, declared, required⟩
    | tooDeep reached spent => exact ⟨⟨_, _, reached⟩, spent⟩
  · intro text depth start
    rw [← hlimit]
    exact Walker.follows_check start v t

/-- The last tag is of no member of the union, and one of them fails further down. -/
theorem Value.violation_at_culprit_tag :
    let tag : Ty := .union [.intrinsic .string, .array (.intrinsic .number)]
    let order : Shape Ty := ⟨[⟨"paid", false, false, .intrinsic .boolean⟩,
      ⟨"tags", true, false, .array tag⟩]⟩
    let orders : Value := .array [.object [("tags", .array [.string "new", .array [.null]]),
      ("paid", .bool true)]]
    let path : List Step := [.index 0, .field "tags", .index 1]
    orders.examine (.array (.shape order)) { maxDepth := 4 } =
        .error ⟨"[0].tags[1]", .typeMismatch tag "array"⟩ ∧
      Step.Rendered path "[0].tags[1]" ∧
      Step.follow? path orders (.array (.shape order)) = some (.array [.null], tag) ∧
      (Value.array [.null]).examine tag { maxDepth := 1 } =
        .error ⟨"", .typeMismatch tag "array"⟩ := by
  intro tag order orders path
  have h : orders.examine (.array (.shape order)) { maxDepth := 4 } =
      .error ⟨"[0].tags[1]", .typeMismatch tag "array"⟩ := rfl
  have hconforms : orders.conforms (.array (.shape order)) { maxDepth := 4 } =
      .error ⟨path, .typeMismatch tag "array"⟩ := rfl
  obtain ⟨⟨path', hrendered, hpath, w, hw, -, halone⟩, -⟩ :=
    Value.violation_at_culprit { maxDepth := 4 } (by decide) h
  cases hconforms.symm.trans hpath
  have hreached : Step.follow? path orders (.array (.shape order)) =
      some (.array [.null], tag) := rfl
  cases hreached.symm.trans hw
  exact ⟨h, hrendered, hreached, halone⟩

end ShapeTyping
