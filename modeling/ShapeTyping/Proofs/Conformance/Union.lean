import ShapeTyping.Proofs.Conformance.Acceptance
import ShapeTyping.Proofs.Ty.Union
/-! What a union means. Flattening and leaving out equal types do not change which values
belong to it: they are those of the types it was built from. -/
namespace ShapeTyping

namespace Conformance

variable {o : Options} {b : Budget} {v : Value} {t : Ty} {ts : List Ty}

/-- Where `null` and `undefined` belong to every type they belong to every member, and
there is one. -/
theorem accepts_union_iff (hts : ts ≠ []) :
    Accepts o b v (.union ts) ↔ ∃ t ∈ ts, Accepts o b v t := by
  constructor
  · intro h
    obtain ⟨hb, ⟨loose, hn⟩ | hf⟩ := accepts_iff.mp h
    · obtain ⟨t, ht⟩ := List.exists_mem_of_ne_nil ts hts
      exact ⟨t, ht, accepts_of_nullish hb loose hn⟩
    · cases hf with
      | union ht h => exact ⟨_, ht, h⟩
  · rintro ⟨t, ht, h⟩
    exact accepts_of_fits h.isSpent (.union ht h)

theorem accepts_iff_alternatives (ht : t.WellFormed) :
    Accepts o b v t ↔ ∃ a ∈ t.alternatives, Accepts o b v a := by
  obtain ⟨members, rfl⟩ | htu := t.eq_union_or
  · obtain ⟨hlength, -, -⟩ := ht.proper
    exact accepts_union_iff (List.ne_nil_of_length_pos (by omega))
  · simp [Ty.alternatives_eq htu]

theorem accepts_merge_iff (hts : ∀ t ∈ ts, t.WellFormed) :
    (∃ m ∈ Ty.merge ts, Accepts o b v m) ↔ ∃ t ∈ ts, Accepts o b v t := by
  constructor
  · rintro ⟨m, hm, h⟩
    obtain ⟨t, ht, hmt⟩ := Ty.mem_of_mem_merge hm
    exact ⟨t, ht, (accepts_iff_alternatives (hts t ht)).mpr ⟨m, hmt, h⟩⟩
  · rintro ⟨t, ht, h⟩
    obtain ⟨a, ha, h⟩ := (accepts_iff_alternatives (hts t ht)).mp h
    obtain ⟨m, hm, rfl | hma⟩ := Ty.exists_mem_merge ht ha
    · exact ⟨m, hm, h⟩
    · have hwf := (Ty.WellFormed.of_mem_merge hts hm).1
      have haw := ((hts t ht).of_mem_alternatives ha).1
      exact ⟨m, hm, h.of_equal haw (Ty.Equal.symm hwf hma)⟩

theorem accepts_unionOf_iff (hts : ∀ t ∈ ts, t.WellFormed) (h : Ty.unionOf ts = .ok t) :
    Accepts o b v t ↔ ∃ s ∈ ts, Accepts o b v s := by
  obtain ⟨hlength, rfl⟩ := Ty.unionOf_eq_ok_iff.mp h
  rw [accepts_union_iff (List.ne_nil_of_length_pos (by omega)), accepts_merge_iff hts]

/-- Without any types to join there is `never`, and with `strictNullChecks` off `null` and
`undefined` belong even to it. -/
theorem accepts_join_iff (hts : ∀ t ∈ ts, t.WellFormed) (hne : Ty.merge ts ≠ []) :
    Accepts o b v (Ty.join ts) ↔ ∃ t ∈ ts, Accepts o b v t := by
  rw [← accepts_merge_iff hts]
  obtain ⟨hm, -⟩ | hm | ⟨-, hj⟩ := Ty.join_cases ts
  · exact absurd hm hne
  · rw [hm]
    simp
  · rw [hj, accepts_union_iff hne]

/-- Where `null` belongs to every type, it was in the type already. -/
theorem accepts_or_undefined_iff (ht : t.WellFormed) (hb : b.isSpent = false) :
    Accepts o b v (Ty.join [t, .intrinsic .undefined]) ↔
      v = .undefined ∨ Accepts o b v t := by
  have hpair : ∀ s ∈ [t, .intrinsic .undefined], s.WellFormed := by
    intro s hs
    rcases List.mem_pair.mp hs with rfl | rfl
    · exact ht
    · exact .of_intrinsic _
  have hne : Ty.merge [t, .intrinsic .undefined] ≠ [] :=
    Ty.merge_ne_nil (List.mem_cons_of_mem _ (List.mem_singleton_self _)) (List.mem_singleton_self _)
  rw [accepts_join_iff hpair hne]
  simp only [List.mem_cons, List.not_mem_nil, or_false, exists_eq_or_imp, exists_eq_left]
  constructor
  · rintro (h | h)
    · exact .inr h
    · obtain ⟨-, ⟨loose, hn⟩ | hf⟩ := accepts_iff.mp h
      · exact .inr (accepts_of_nullish hb loose hn)
      · cases hf with
        | intrinsic hv =>
          left
          cases v with
          | undefined => rfl
          | _ => cases hv
  · rintro (rfl | h)
    · exact .inr (accepts_of_fits hb (.intrinsic rfl))
    · exact .inl h

end Conformance

/-- A value belongs to a union just if it belongs to one of the types that were united, and
to the type of an array access just if it is `undefined` or belongs to the element. -/
theorem Value.conforms_union_iff (o : Options) (v : Value) :
    (∀ (ts : List Ty) (t : Ty), (∀ s ∈ ts, s.WellFormed) → Ty.unionOf ts = .ok t →
      (v.conforms t o = .ok () ↔ ∃ s ∈ ts, v.conforms s o = .ok ())) ∧
    ∀ element : Ty, (Ty.array element).WellFormed → o.noUncheckedIndexedAccess = true →
      1 ≤ o.maxDepth → ∃ t, (Ty.array element).elementAccess? o = some t ∧
        (v.conforms t o = .ok () ↔ v = .undefined ∨ v.conforms element o = .ok ()) := by
  refine ⟨fun ts t hts ht => Conformance.accepts_unionOf_iff hts ht, ?_⟩
  intro element hwf hunchecked hdepth
  have hb : (Budget.levels o.conformanceLimit).isSpent = false := by
    have hlimit : o.conformanceLimit ≠ 0 := by
      unfold Options.conformanceLimit Options.conformanceCap
      split <;> omega
    simpa [Budget.isSpent] using hlimit
  refine ⟨Ty.join [element, .intrinsic .undefined], by rw [Ty.elementAccess?, if_pos hunchecked], ?_⟩
  exact Conformance.accepts_or_undefined_iff (hwf.part (Ty.element_mem_parts element)) hb

/-- The second shape is left out, for it has the fields of the first in another order. -/
theorem Value.conforms_union_iff_point :
    let o : Options := { noUncheckedIndexedAccess := true, maxDepth := 2 }
    let x : Field Ty := ⟨"x", false, false, .intrinsic .number⟩
    let y : Field Ty := ⟨"y", true, false, .intrinsic .string⟩
    let ts : List Ty := [.shape ⟨[x, y]⟩, .union [.shape ⟨[y, x]⟩, .intrinsic .boolean]]
    let t : Ty := .union [.shape ⟨[x, y]⟩, .intrinsic .boolean]
    let point : Value := .object [("x", .number (.zero false))]
    Ty.unionOf ts = .ok t ∧ (∃ s ∈ ts, point.conforms s o = .ok ()) ∧
      ∃ u, (Ty.array t).elementAccess? o = some u ∧ point.conforms u o = .ok () := by
  intro o x y ts t point
  obtain ⟨hunion, haccess⟩ := Value.conforms_union_iff o point
  have ht : Ty.unionOf ts = .ok t := rfl
  have hpoint : point.conforms t o = .ok () := rfl
  obtain ⟨u, hu, hiff⟩ := haccess t (by decide) rfl (by decide)
  exact ⟨ht, (hunion ts t (by decide) ht).mp hpoint, u, hu, hiff.mpr (.inr hpoint)⟩

end ShapeTyping
