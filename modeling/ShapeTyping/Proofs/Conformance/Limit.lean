import ShapeTyping.Proofs.Conformance.Culprit
/-! The limit on the depth of a check. It takes values away and never adds one, and it shows
only on values that are as high as the limit: on lower ones the outcome is that of the check
without a limit, which finds nothing too deep. A check that starts inside a shape has the
outcome of one that starts at the shape with one level more. -/
namespace ShapeTyping

namespace Step

theorem mem_parts_of_into? {step : Step} {v w : Value} {t u : Ty}
    (h : step.into? v t = some (w, u)) : w ∈ Nested.parts v := by
  unfold into? at h
  split at h
  next name entries s =>
    obtain ⟨x, hx, h⟩ := Option.bind_eq_some_iff.mp h
    obtain ⟨f, -, h⟩ := Option.bind_eq_some_iff.mp h
    cases h
    exact Value.entry_mem_parts hx
  next i vs element =>
    obtain ⟨x, hx, h⟩ := Option.map_eq_some_iff.mp h
    cases h
    exact Value.item_mem_parts (List.mem_of_getElem? hx)
  next => cases h

/-- Every step of a path leads to a lower value. -/
theorem length_add_height_le {path : List Step} {v w : Value} {t u : Ty}
    (h : follow? path v t = some (w, u)) : path.length + w.height ≤ v.height := by
  induction path generalizing v t with
  | nil =>
    cases h
    simp
  | cons step path ih =>
    obtain ⟨⟨x, s⟩, hstep, hrest⟩ := Option.bind_eq_some_iff.mp h
    have hlower := Value.height_part_lt (mem_parts_of_into? hstep)
    have hpath := ih hrest
    rw [List.length_cons]
    omega

end Step

/-- A value lower than the levels left is not too deep, and the check without a limit is the
check with as many levels as the value takes. -/
theorem Conformance.problem_ne_depthExceeded {o : Options} {v : Value} {t : Ty}
    {violation : Violation} (ht : t.WellFormed)
    (h : check o .unlimited v t = .error violation) : violation.problem ≠ .depthExceeded := by
  have hlevels : check o (.levels (v.height + 1)) v t = .error violation := by
    rw [check_levels (Nat.lt_succ_self _), h]
  cases blames_of_check ht hlevels with
  | mismatch => exact nofun
  | missing => exact nofun
  | tooDeep reached spent =>
    have hlength := Step.length_add_height_le reached
    omega

/-- What conforms within the limit conforms without it, and a value that is lower than the
limit is checked to the same outcome, with the same path and problem. -/
theorem Value.conforms_within_limit (o : Options) (v : Value) (t : Ty) :
    (v.conforms t o = .ok () → Conformance.check o .unlimited v t = .ok ()) ∧
    (v.height < min o.maxDepth 64 → v.conforms t o = Conformance.check o .unlimited v t) ∧
    (t.WellFormed → ∀ violation, Conformance.check o .unlimited v t = .error violation →
      violation.problem ≠ .depthExceeded) := by
  refine ⟨Conformance.Accepts.unlimited, fun h => ?_, fun ht violation => ?_⟩
  · rw [← o.conformanceLimit_eq] at h
    exact Conformance.check_levels h
  · exact Conformance.problem_ne_depthExceeded ht

/-- With one level less, the same value is too deep. -/
theorem Value.conforms_within_limit_grid :
    let grid : Value := .array [.array [.string "a"], .array [.string "b", .null]]
    let t : Ty := .array (.array (.intrinsic .string))
    let path : List Step := [.index 1, .index 1]
    let violation : Violation := ⟨path, .typeMismatch (.intrinsic .string) "null"⟩
    grid.conforms t { maxDepth := 3 } = .error violation ∧
      Conformance.check { maxDepth := 3 } .unlimited grid t = .error violation ∧
      grid.conforms t { maxDepth := 2 } = .error ⟨[.index 0, .index 0], .depthExceeded⟩ := by
  intro grid t path violation
  obtain ⟨-, hlow, -⟩ := Value.conforms_within_limit { maxDepth := 3 } grid t
  have hlimited : grid.conforms t { maxDepth := 3 } = .error violation := rfl
  exact ⟨hlimited, (hlow (by decide)).symm.trans hlimited, rfl⟩

/-! ## Starting inside a shape -/

/-- To enter a shape takes one level, unless a `null` or an `undefined` is let in as it is. -/
theorem Conformance.check_shape_eq {o : Options} {b : Budget} {v : Value} {s : Shape Ty}
    (hb : b.isSpent = false) (hv : o.strictNullChecks = true ∨ v.isNullish = false) :
    check o b v (.shape s) = checkShape o b.next v s := by
  have hnull : (!o.strictNullChecks && v.isNullish) = false := by
    rcases hv with strict | hv
    · rw [strict]
      rfl
    · rw [hv, Bool.and_false]
  rw [check.eq_def, hb, hnull]
  cases v <;> rfl

theorem Conformance.checkShape_of_isNullish {o : Options} {b : Budget} {v : Value} {s : Shape Ty}
    (hv : v.isNullish = true) : checkShape o b v s ≠ .ok () := by
  intro h
  obtain ⟨entries, rfl, -⟩ := checkShape_eq_ok.mp h
  cases hv

/-- Within the cap on levels, the check that starts inside a shape has the same outcome, down
to the path and the problem, as the check of the shape as a type with one level more. Only a
`null` or an `undefined` can tell them apart, and does so just if `strictNullChecks` is off. -/
theorem Value.conformsToShape_eq_conforms_iff (o : Options) (hd : o.maxDepth ≤ 63) (v : Value)
    (s : Shape Ty) :
    v.conformsToShape s o = v.conforms (.shape s) { o with maxDepth := o.maxDepth + 1 } ↔
      (o.strictNullChecks = true ∨ v.isNullish = false) := by
  let deeper : Options := { o with maxDepth := o.maxDepth + 1 }
  have hlimit : o.conformanceLimit = o.maxDepth := by
    rw [o.conformanceLimit_eq]
    omega
  have hdeeper : deeper.conformanceLimit = o.maxDepth + 1 := by
    rw [deeper.conformanceLimit_eq]
    show min (o.maxDepth + 1) 64 = o.maxDepth + 1
    omega
  show Conformance.checkShape o (.levels o.conformanceLimit) v s =
    Conformance.check deeper (.levels deeper.conformanceLimit) v (.shape s) ↔ _
  rw [hlimit, hdeeper]
  constructor
  · intro h
    by_contra hv
    rw [not_or, Bool.not_eq_true, Bool.not_eq_false] at hv
    obtain ⟨loose, hnull⟩ := hv
    have hok : Conformance.Accepts deeper (.levels (o.maxDepth + 1)) v (.shape s) :=
      Conformance.accepts_of_nullish rfl loose hnull
    exact Conformance.checkShape_of_isNullish hnull (h.trans hok)
  · intro hv
    have hinside : Conformance.check deeper (.levels (o.maxDepth + 1)) v (.shape s) =
        Conformance.checkShape deeper (.levels o.maxDepth) v s :=
      Conformance.check_shape_eq rfl hv
    have hlike : o.ChecksLike deeper := ⟨rfl, rfl⟩
    rw [hinside]
    exact Conformance.checkShape_options hlike

/-- The members of the union are too deep for the levels left, and so the union is blamed from
inside the shape as it is from outside. -/
theorem Value.conformsToShape_eq_conforms_iff_branch :
    let leaf : Shape Ty := ⟨[⟨"size", false, false, .intrinsic .number⟩]⟩
    let t : Ty := .union [.shape leaf, .intrinsic .null]
    let s : Shape Ty := ⟨[⟨"leaf", false, false, t⟩]⟩
    let v : Value := .object [("leaf", .object [("size", .number (.zero false))])]
    let violation : Violation := ⟨[.field "leaf"], .typeMismatch t "object"⟩
    v.conformsToShape s { maxDepth := 1 } = .error violation ∧
      v.conforms (.shape s) { maxDepth := 2 } = .error violation ∧
      v.conforms (.shape s) { maxDepth := 3 } = .ok () := by
  intro leaf t s v violation
  have hinside : v.conformsToShape s { maxDepth := 1 } = .error violation := rfl
  have hsame := (Value.conformsToShape_eq_conforms_iff { maxDepth := 1 } (by decide) v s).mpr
    (.inl rfl)
  exact ⟨hinside, hsame.symm.trans hinside, rfl⟩

end ShapeTyping
