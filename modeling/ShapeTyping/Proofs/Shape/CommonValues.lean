import ShapeTyping.Proofs.Conformance.Acceptance
import ShapeTyping.Proofs.Shape.Intersection
/-! The values that two shapes have in common. The intersection takes them all, whichever of
the two types of a field it takes and whether or not the field stays optional. The one thing
it may turn away is an explicit `undefined` in a field of both: a field that is optional on one
side lets it in without a look at the type, and the intersection may require the field and
take that type. -/
namespace ShapeTyping

open Conformance (Accepts FieldAccepts)

variable {o : Options} {b : Budget}

/-! ## One field -/

/-- The only value that a field lets in without a look at its type is `undefined`. -/
theorem Conformance.FieldAccepts.accepts {f : Field Ty} {v : Value}
    (h : FieldAccepts o b f (some v))
    (hv : o.exactOptionalPropertyTypes = true ∨ v ≠ .undefined) : Accepts o b v f.type := by
  rcases fieldAccepts_some_iff.mp h with h | ⟨hu, -, loose⟩
  · exact h
  · rcases hv with hexact | hne
    · rw [loose] at hexact
      cases hexact
    · exact absurd hu hne

theorem Field.IsMeet.fieldAccepts {l r f : Field Ty} {v? : Option Value} (h : l.IsMeet o r f)
    (hv : o.exactOptionalPropertyTypes = true ∨ v? ≠ some .undefined)
    (hl : FieldAccepts o b l v?) (hr : FieldAccepts o b r v?) : FieldAccepts o b f v? := by
  cases v? with
  | none =>
    -- What is absent is optional on both sides, and so it is in the intersection.
    cases hl with
    | absent hlo =>
      cases hr with
      | absent hro =>
        apply FieldAccepts.absent
        rw [h.optional, hlo, hro]
        rfl
  | some v =>
    have hv : o.exactOptionalPropertyTypes = true ∨ v ≠ .undefined :=
      hv.imp_right fun hne heq => hne (heq ▸ rfl)
    apply FieldAccepts.present
    rcases h.type with ⟨htype, -⟩ | ⟨htype, -⟩
    · rw [htype]
      exact hr.accepts hv
    · rw [htype]
      exact hl.accepts hv

theorem MeetAt.fieldAccepts {l? r? : Option (Field Ty)} {f : Field Ty} {v? : Option Value}
    (h : MeetAt o l? r? (some f))
    (hv : ∀ l r, l? = some l → r? = some r →
      o.exactOptionalPropertyTypes = true ∨ v? ≠ some .undefined)
    (hl : ∀ l, l? = some l → FieldAccepts o b l v?)
    (hr : ∀ r, r? = some r → FieldAccepts o b r v?) : FieldAccepts o b f v? := by
  cases h with
  | left => exact hl f rfl
  | right => exact hr f rfl
  | both h => exact h.fieldAccepts (hv _ _ rfl rfl) (hl _ rfl) (hr _ rfl)

/-! ## Whole objects -/

namespace Shape

theorem fieldAccepts_of_field? {a : Shape Ty} {entries : List (String × Value)}
    (h : ∀ f ∈ a.fields, FieldAccepts o b f (entries.lookup f.name)) {name : String}
    {f : Field Ty} (hf : a.field? name = some f) : FieldAccepts o b f (entries.lookup name) := by
  obtain ⟨hmem, rfl⟩ := mem_of_field? hf
  exact h f hmem

/-- The intersection of two shapes accepts what both of them accept, if optional fields are
exact or no field of both holds an explicit `undefined`. -/
theorem conformsToShape_intersect (o : Options) {a b c : Shape Ty}
    (ha : (a.fields.map (·.name)).Nodup) (hb : (b.fields.map (·.name)).Nodup)
    (hc : a.intersect b o = .ok c) (v : Value)
    (hva : v.conformsToShape a o = .ok ()) (hvb : v.conformsToShape b o = .ok ())
    (hv : o.exactOptionalPropertyTypes = true ∨
      ∀ l ∈ a.fields, ∀ r ∈ b.fields, l.name = r.name → v.get? l.name ≠ some .undefined) :
    v.conformsToShape c o = .ok () := by
  obtain ⟨hd, hmeet⟩ := intersect_eq_ok ha hb hc
  obtain ⟨entries, rfl, hfa⟩ := Conformance.checkShape_eq_ok.mp hva
  obtain ⟨_, ⟨⟩, hfb⟩ := Conformance.checkShape_eq_ok.mp hvb
  refine Conformance.checkShape_eq_ok.mpr ⟨entries, rfl, fun f hf => ?_⟩
  have hm := hmeet f.name
  rw [field?_of_mem hd hf] at hm
  refine hm.fieldAccepts (fun l r hl hr => ?_) (fun l hl => ?_) fun r hr => ?_
  · obtain ⟨hlm, hln⟩ := mem_of_field? hl
    obtain ⟨hrm, hrn⟩ := mem_of_field? hr
    rw [← hln]
    exact hv.imp_right fun hne => hne l hlm r hrm (hln.trans hrn.symm)
  · exact fieldAccepts_of_field? hfa hl
  · exact fieldAccepts_of_field? hfb hr

/-- The label is required by one side and typed by the other, the weight is absent and the
note, in one shape only, holds an `undefined`. -/
theorem conformsToShape_intersect_parcel :
    let a : Shape Ty := ⟨[⟨"label", true, false, .literal (.string "fragile")⟩,
      ⟨"weight", true, false, .intrinsic .number⟩, ⟨"note", true, false, .intrinsic .string⟩]⟩
    let b : Shape Ty := ⟨[⟨"weight", true, true, .union [.intrinsic .number, .intrinsic .null]⟩,
      ⟨"label", false, false, .intrinsic .string⟩]⟩
    let c : Shape Ty := ⟨[⟨"label", false, false, .literal (.string "fragile")⟩,
      ⟨"weight", true, true, .intrinsic .number⟩, ⟨"note", true, false, .intrinsic .string⟩]⟩
    let v : Value := .object [("label", .string "fragile"), ("note", .undefined)]
    a.intersect b {} = .ok c ∧ v.conformsToShape a {} = .ok () ∧
      v.conformsToShape b {} = .ok () ∧ v.conformsToShape c {} = .ok () := by
  intro a b c v
  have hc : a.intersect b {} = .ok c := rfl
  have hva : v.conformsToShape a {} = .ok () := rfl
  have hvb : v.conformsToShape b {} = .ok () := rfl
  have hshared : ∀ l ∈ a.fields, ∀ r ∈ b.fields, l.name = r.name →
      v.get? l.name ≠ some .undefined := by
    simp [a, b, v, Value.get?, Value.entries?, List.lookup_cons]
  exact ⟨hc, hva, hvb,
    conformsToShape_intersect {} (by decide) (by decide) hc v hva hvb (.inr hshared)⟩

-- With an explicit `undefined` in a field of both shapes, this fails unless optional fields
-- are exact, and then the first shape does not accept it either.
example :
    let a : Shape Ty := ⟨[⟨"n", true, false, .intrinsic .string⟩]⟩
    let b : Shape Ty := ⟨[⟨"n", false, false, .union [.intrinsic .string, .intrinsic .undefined]⟩]⟩
    let c : Shape Ty := ⟨[⟨"n", false, false, .intrinsic .string⟩]⟩
    let v : Value := .object [("n", .undefined)]
    a.intersect b {} = .ok c ∧ v.conformsToShape a {} = .ok () ∧
      v.conformsToShape b {} = .ok () ∧ (v.conformsToShape c {}).isOk = false ∧
      (v.conformsToShape a { exactOptionalPropertyTypes := true }).isOk = false :=
  ⟨rfl, rfl, rfl, rfl, rfl⟩

end Shape
end ShapeTyping
