import ShapeTyping.Proofs.Assignability.Checker
import ShapeTyping.Proofs.Assignability.Inversion
import ShapeTyping.Proofs.Conformance.Budget
/-! The type of one value. A value conforms to a type just if its own type is
assignable to it, so that the check of values and the comparison of types are two
readings of one relation. -/
namespace ShapeTyping

namespace Value

mutual
/-- The type that says all that can be seen of a value. A function shows nothing
of its types. -/
def typeOf : Value → Ty
  | .undefined => .intrinsic .undefined
  | .null => .intrinsic .null
  | .bool b => .literal (.boolean b)
  | .number x => .literal (.number x)
  | .string text => .literal (.string text)
  | .array items => .array (Ty.join (itemTypes items))
  | .object entries => .shape ⟨entryFields entries⟩
  | .function _ _ => .intrinsic .unknown
termination_by structural v => v
def itemTypes : List Value → List Ty
  | [] => []
  | v :: vs => v.typeOf :: itemTypes vs
termination_by structural vs => vs
/-- One required field for each key. -/
def entryFields : List (String × Value) → List (Field Ty)
  | [] => []
  | (key, v) :: es => ⟨key, false, false, v.typeOf⟩ :: entryFields es
termination_by structural es => es
end

theorem itemTypes_eq (vs : List Value) : itemTypes vs = vs.map typeOf := by
  induction vs with
  | nil => rfl
  | cons v vs ih => rw [itemTypes, ih, List.map_cons]

theorem entryFields_eq (es : List (String × Value)) :
    entryFields es = es.map fun e => ⟨e.1, false, false, e.2.typeOf⟩ := by
  induction es with
  | nil => rfl
  | cons e es ih => rw [entryFields, ih, List.map_cons]

theorem names_entryFields (es : List (String × Value)) :
    (entryFields es).map (·.name) = es.map (·.1) := by
  rw [entryFields_eq, List.map_map]
  rfl

/-- The field under a name is as the value under that key. -/
theorem field?_entryFields (es : List (String × Value)) (key : String) :
    (Shape.mk (entryFields es)).field? key =
      (es.lookup key).map fun v => ⟨key, false, false, v.typeOf⟩ := by
  unfold Shape.field?
  induction es with
  | nil => rfl
  | cons e es ih =>
    obtain ⟨k, v⟩ := e
    rw [entryFields, List.find?_cons, List.lookup_cons]
    by_cases h : k = key
    · subst h
      simp
    · have hk : (k == key) = false := beq_eq_false_iff_ne.mpr h
      have hk' : (key == k) = false := beq_eq_false_iff_ne.mpr (Ne.symm h)
      simpa only [hk, hk'] using ih

theorem isUnion_typeOf (v : Value) : v.typeOf.isUnion = false := by cases v <;> rfl

theorem wellFormed_typeOf {v : Value} (h : v.WellFormed) : v.typeOf.WellFormed := by
  induction v with
  | array vs ih =>
    refine Nested.everywhere_iff.mpr ⟨trivial, fun t ht => ?_⟩
    rw [List.mem_singleton.mp ht, itemTypes_eq]
    refine Ty.WellFormed.join fun t ht => ?_
    obtain ⟨w, hw, rfl⟩ := List.mem_map.mp ht
    exact ih w hw (h.part (item_mem_parts hw))
  | object es ih =>
    refine Nested.everywhere_iff.mpr ⟨?_, fun t ht => ?_⟩
    · show ((entryFields es).map (·.name)).Nodup
      rw [names_entryFields]
      exact h.proper
    · obtain ⟨f, hf, rfl⟩ := List.mem_map.mp ht
      rw [entryFields_eq] at hf
      obtain ⟨e, he, rfl⟩ := List.mem_map.mp hf
      exact ih e he (h.part (List.mem_map_of_mem he))
  | _ => exact Nested.everywhere_iff.mpr ⟨trivial, nofun⟩

end Value

namespace Conformance

open Nested (Free)
open Assignability (Related Serves related_iff related_literal_iff related_shape_iff
  related_array_iff related_join_iff related_union_right_iff)

variable {o : Options} {v : Value} {t : Ty}

/-- Whether a value has the form of a type. Intrinsic types and unions have none of
their own. -/
def hasForm : Value → Ty → Bool
  | _, .intrinsic _ | _, .union _ => true
  | .bool _, .literal _ | .number _, .literal _ | .string _, .literal _ => true
  | .object _, .shape _ => true
  | .array _, .array _ => true
  | _, _ => false

/-- Where `null` and `undefined` belong to every type both sides hold, so that only
the rest has to be compared. -/
theorem accepts_iff_related_of_fits
    (h : ¬ (o.strictNullChecks = false ∧ v.isNullish = true) →
      (Fits o .unlimited v t ↔ Related o v.typeOf t)) :
    Accepts o .unlimited v t ↔ Related o v.typeOf t := by
  rw [accepts_iff]
  by_cases hn : o.strictNullChecks = false ∧ v.isNullish = true
  · refine iff_of_true ⟨rfl, .inl hn⟩ ?_
    obtain ⟨loose, hv⟩ := hn
    cases v with
    | undefined => exact .of_rule (.nullish loose (.inr rfl) t)
    | null => exact .of_rule (.nullish loose (.inl rfl) t)
    | _ => cases hv
  · rw [← h hn]
    exact ⟨fun hf => hf.2.resolve_left hn, fun hf => ⟨rfl, .inr hf⟩⟩

theorem isNullish_of_typeOf {kind : Intrinsic} (hk : kind = .null ∨ kind = .undefined)
    (h : v.typeOf = .intrinsic kind) : v.isNullish = true := by
  rcases hk with rfl | rfl <;> cases v <;> cases h <;> rfl

section
variable (hn : ¬ (o.strictNullChecks = false ∧ v.isNullish = true))
include hn

theorem hasKind_iff_related {kind : Intrinsic} :
    v.hasKind kind = true ↔ Related o v.typeOf (.intrinsic kind) := by
  constructor
  · intro h
    cases kind with
    | any => exact .of_rule (.top _ (.inl rfl))
    | unknown => exact .of_rule (.top _ (.inr rfl))
    | _ =>
      cases v <;> first
        | (cases h; done)
        | exact .of_equal rfl
        | exact .of_rule .void
        | exact .of_rule (.literal _)
  · intro h
    generalize hs : v.typeOf = s at h
    rcases related_iff.mp h with heq | hrule
    · cases Ty.equal_iff.mp heq
      cases v <;> cases hs <;> rfl
    · cases hrule with
      | top _ hk => rcases hk with rfl | rfl <;> cases v <;> rfl
      | any _ => cases v <;> cases hs
      | never _ => cases v <;> cases hs
      | nullish loose hk _ => exact absurd ⟨loose, isNullish_of_typeOf hk hs⟩ hn
      | void => cases v <;> cases hs; rfl
      | unionLeft _ => cases v <;> cases hs
      | literal value => cases v <;> cases hs <;> rfl

theorem hasForm_of_related (h : Related o v.typeOf t) : hasForm v t = true := by
  generalize hs : v.typeOf = s at h
  rcases related_iff.mp h with heq | hrule
  · cases Ty.equal_iff.mp heq <;> cases v <;> cases hs <;> rfl
  · cases hrule with
    | nullish loose hk _ => exact absurd ⟨loose, isNullish_of_typeOf hk hs⟩ hn
    | _ => cases v <;> cases hs <;> rfl

theorem isLiteral_iff_related {value : Literal} :
    v.isLiteral value = true ↔ Related o v.typeOf (.literal value) := by
  cases v with
  | bool b => rw [Value.typeOf, related_literal_iff]; cases value <;> rfl
  | number x => rw [Value.typeOf, related_literal_iff]; cases value <;> rfl
  | string text => rw [Value.typeOf, related_literal_iff]; cases value <;> rfl
  | _ => exact iff_of_false nofun fun h => nomatch hasForm_of_related hn h

end

/-- The entries of an object are its required fields. -/
theorem fieldAccepts_iff_serves (hexact : o.exactOptionalPropertyTypes = true) {f : Field Ty}
    {v? : Option Value}
    (h : ∀ v, v? = some v → (Accepts o .unlimited v f.type ↔ Related o v.typeOf f.type)) :
    FieldAccepts o .unlimited f v? ↔
      Serves (Related o) f (v?.map fun v => ⟨f.name, false, false, v.typeOf⟩) := by
  cases v? with
  | none => exact ⟨fun | .absent ho => .absent ho, fun | .absent ho => .absent ho⟩
  | some v =>
    constructor
    · intro hf
      cases hf with
      | undefined _ loose => rw [hexact] at loose; cases loose
      | present hv => exact .present nofun ((h v rfl).mp hv)
    · intro hs
      cases hs with
      | present _ type => exact .present ((h v rfl).mpr type)

theorem fits_iff_related (hexact : o.exactOptionalPropertyTypes = true) (hv : v.WellFormed)
    (hfun : Free Value.isFunction v) (ht : t.WellFormed) (happ : Free Ty.isApplication t)
    (hn : ¬ (o.strictNullChecks = false ∧ v.isNullish = true))
    (ih : ∀ u ∈ Nested.parts t, ∀ w : Value, w.WellFormed → Free Value.isFunction w →
      (Accepts o .unlimited w u ↔ Related o w.typeOf u)) :
    Fits o .unlimited v t ↔ Related o v.typeOf t := by
  cases t with
  | intrinsic kind =>
    rw [← hasKind_iff_related hn]
    exact ⟨fun | .intrinsic h => h, .intrinsic⟩
  | literal value =>
    rw [← isLiteral_iff_related hn]
    exact ⟨fun | .literal h => h, .literal⟩
  | union ts =>
    rw [related_union_right_iff v.isUnion_typeOf ht]
    constructor
    · intro h
      cases h with
      | union hm h => exact ⟨_, hm, (ih _ (Ty.member_mem_parts hm) v hv hfun).mp h⟩
    · rintro ⟨m, hm, h⟩
      exact .union hm ((ih m (Ty.member_mem_parts hm) v hv hfun).mpr h)
  | shape s =>
    cases v with
    | object es =>
      have hfields : ∀ f ∈ s.fields, (FieldAccepts o .unlimited f (es.lookup f.name) ↔
          Serves (Related o) f ((Shape.mk (Value.entryFields es)).field? f.name)) := by
        intro f hf
        rw [Value.field?_entryFields]
        refine fieldAccepts_iff_serves hexact fun w hw => ?_
        have hwp := Value.entry_mem_parts hw
        exact ih _ (Ty.field_mem_parts hf) w (hv.part hwp) (hfun.part hwp)
      rw [Value.typeOf, related_shape_iff (Value.wellFormed_typeOf hv), ← forall₂_congr hfields]
      exact ⟨fun | .shape h => h, fun h => .shape h⟩
    | _ => exact iff_of_false nofun fun h => nomatch hasForm_of_related hn h
  | array u =>
    cases v with
    | array vs =>
      have hitems : ∀ w ∈ vs, (Accepts o .unlimited w u ↔ Related o w.typeOf u) := by
        intro w hw
        have hwp := Value.item_mem_parts hw
        exact ih u (Ty.element_mem_parts u) w (hv.part hwp) (hfun.part hwp)
      have hwf : ∀ s ∈ vs.map Value.typeOf, s.WellFormed := by
        intro s hs
        obtain ⟨w, hw, rfl⟩ := List.mem_map.mp hs
        exact Value.wellFormed_typeOf (hv.part (Value.item_mem_parts hw))
      rw [Value.typeOf, related_array_iff, Value.itemTypes_eq, related_join_iff hwf,
        List.forall_mem_map, ← forall₂_congr hitems]
      exact ⟨fun | .array h => h, fun h => .array h⟩
    | _ => exact iff_of_false nofun fun h => nomatch hasForm_of_related hn h
  | function s =>
    refine iff_of_false (fun h => ?_) fun h => ?_
    · cases h; cases hfun.here
    · cases v <;> cases hasForm_of_related hn h
  | application name ts => cases happ.here

/-- Both sides are the same one-level condition on their parts. -/
theorem accepts_iff_related (hexact : o.exactOptionalPropertyTypes = true) (hv : v.WellFormed)
    (hfun : Free Value.isFunction v) (ht : t.WellFormed) (happ : Free Ty.isApplication t) :
    Accepts o .unlimited v t ↔ Related o v.typeOf t := by
  induction t using Nested.induction_on generalizing v with
  | h t ih =>
    refine accepts_iff_related_of_fits fun hn => fits_iff_related hexact hv hfun ht happ hn ?_
    exact fun u hu w hw hwf => ih u hu hw hwf (ht.part hu) (happ.part hu)

end Conformance

/-- A value conforms to a type just if its own type is assignable to it, as long as
neither walk is cut short. -/
theorem Value.conforms_iff_isAssignable_typeOf (o : Options)
    (hexact : o.exactOptionalPropertyTypes = true) {v : Value} (hv : v.WellFormed)
    (hfun : Nested.Free Value.isFunction v) {t : Ty} (ht : t.WellFormed)
    (happ : Nested.Free Ty.isApplication t)
    (hheight : v.height < min o.maxDepth Options.conformanceCap)
    (hdepth : ((Checker.fresh o).assignable v.typeOf t).2.gaveUp = false) :
    v.conforms t o = .ok () ↔ v.typeOf.isAssignable t o = true := by
  have hlimit : v.height < o.conformanceLimit := by
    unfold Options.conformanceLimit
    split <;> omega
  rw [Checker.assignable_fresh] at hdepth
  have hwalk := Assignability.walk_approximates o o.maxDepth v.typeOf t
  calc v.conforms t o = .ok ()
    _ ↔ Conformance.Accepts o .unlimited v t := Conformance.accepts_levels_iff hlimit
    _ ↔ Assignability.Related o v.typeOf t :=
      Conformance.accepts_iff_related hexact hv hfun ht happ
    _ ↔ v.typeOf.isAssignable t o = true := by
      constructor
      · intro h
        refine (hwalk.complete h).resolve_right fun hg => ?_
        exact absurd (hg.symm.trans hdepth) (by decide)
      · exact hwalk.sound

/-- A record with a NaN, and items of which two have one type. -/
def Value.reading : Value :=
  .object [("tags", .array [.string "a", .null, .string "a"]), ("value", .number .nan)]

def Ty.reading : Ty :=
  .shape ⟨[⟨"value", false, false, .union [.literal (.number .nan), .intrinsic .number]⟩,
    ⟨"note", true, false, .intrinsic .string⟩,
    ⟨"tags", false, true, .array (.union [.intrinsic .null, .intrinsic .string])⟩]⟩

theorem Value.conforms_iff_isAssignable_typeOf_reading :
    Value.reading.typeOf.isAssignable Ty.reading { exactOptionalPropertyTypes := true } = true ∧
      Value.reading.conforms Ty.reading { exactOptionalPropertyTypes := true } = .ok () := by
  have h := Value.conforms_iff_isAssignable_typeOf { exactOptionalPropertyTypes := true } rfl
    (v := Value.reading) (by decide) (by decide) (t := Ty.reading) (by decide) (by decide)
    (by decide) (by rw [Checker.assignable_fresh]; decide)
  have hst : Value.reading.typeOf.isAssignable Ty.reading { exactOptionalPropertyTypes := true } =
      true := by decide
  exact ⟨hst, h.mpr hst⟩

end ShapeTyping
