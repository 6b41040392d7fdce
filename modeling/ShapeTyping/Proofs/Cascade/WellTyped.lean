import ShapeTyping.Proofs.Cascade.Addition
import ShapeTyping.Proofs.Cascade.Resolution
import ShapeTyping.Proofs.Conformance.Budget
/-! What a cascade resolves to has the cascade's shape. Every default was checked
when it was added, and what is supplied is checked as far as no default is nested
under it. -/
namespace ShapeTyping.Cascade

open Conformance (Accepts FieldAccepts)

/-- Built up under the options, as all cascades nested in it, each of which has the
shape of the field it is attached to. -/
inductive BuiltUnder (o : Options) : Cascade → Prop
  | empty {s : Shape Ty} (hs : (Ty.shape s).WellFormed) : BuiltUnder o (empty s o)
  | objectDefault {c c' : Cascade} {v : Value} (hc : BuiltUnder o c)
      (h : c.add (.objectDefault v) = .ok c') : BuiltUnder o c'
  | fieldDefault {c c' : Cascade} {name : String} {v : Value} (hc : BuiltUnder o c)
      (h : c.add (.fieldDefault name v) = .ok c') : BuiltUnder o c'
  | nested {c c' inner : Cascade} {identity : inner.shape.Identity} {name : String} {f : Field Ty}
      {s : Shape Ty} (hc : BuiltUnder o c) (hinner : BuiltUnder o inner)
      (hf : c.shape.field? name = some f) (hs : f.type = .shape s)
      (hsame : s.same inner.shape = true) (h : c.add (.nested name inner identity) = .ok c') :
      BuiltUnder o c'

/-- An argument that leaves out what it likes, but is well typed in what it has. -/
inductive Partial (o : Options) : Cascade → Option Value → Prop
  | absent (c : Cascade) : Partial o c none
  | undefined (c : Cascade) : Partial o c (some .undefined)
  | object {c : Cascade} {entries : List (String × Value)}
      (plain : ∀ f ∈ c.shape.fields, ∀ v, present? (entries.lookup f.name) = some v →
        (∀ inner, c.default? f.name ≠ some (.nested inner)) →
        Conformance.check o .unlimited v f.type = .ok ())
      (nested : ∀ f ∈ c.shape.fields, ∀ v, present? (entries.lookup f.name) = some v →
        ∀ inner, c.default? f.name = some (.nested inner) → Partial o inner (some v)) :
      Partial o c (some (.object entries))

/-! ## What building ensures -/

/-- The defaults of one level are well typed. -/
structure Checked (o : Options) (c : Cascade) : Prop where
  options : c.options = o
  shape : (Ty.shape c.shape).WellFormed
  objectDefault : ∀ entries, c.objectDefault? = some (.object entries) →
    ∀ e ∈ entries, ∀ f, c.shape.field? e.1 = some f → accepts o f e.2 = true
  value : ∀ name v, c.default? name = some (.value v) →
    ∀ f, c.shape.field? name = some f → accepts o f v = true
  nested : ∀ name inner, c.default? name = some (.nested inner) →
    ∀ f, c.shape.field? name = some f → ∃ s, f.type = .shape s ∧ s.same inner.shape = true

inductive Sound (o : Options) : Cascade → Prop
  | mk {c : Cascade} (checked : Checked o c)
      (nested : ∀ name inner, c.default? name = some (.nested inner) → Sound o inner) : Sound o c

variable {o : Options} {c c' : Cascade}

theorem Sound.checked (h : Sound o c) : Checked o c := by
  cases h with
  | mk checked _ => exact checked

theorem Sound.inner {name : String} {inner : Cascade} (h : Sound o c)
    (hi : c.default? name = some (.nested inner)) : Sound o inner := by
  cases h with
  | mk _ nested => exact nested name inner hi

theorem Sound.add_objectDefault {v : Value} (hc : Sound o c)
    (h : c.add (.objectDefault v) = .ok c') : Sound o c' := by
  obtain ⟨entries, rfl, hentries, rfl⟩ := add_objectDefault_eq_ok.mp h
  obtain ⟨hoptions, hshape, -, hvalue, hnested⟩ := hc.checked
  rw [hoptions] at hentries
  refine ⟨⟨hoptions, hshape, ?_, hvalue, hnested⟩, fun name inner hi => hc.inner hi⟩
  rintro _ ⟨⟩
  exact hentries

/-- A default joins the others if it is well typed itself. -/
theorem Sound.append {name : String} {f : Field Ty} {d : Default Cascade} (hc : Sound o c)
    (hf : c.shape.field? name = some f) (hvacant : c.default? name = none)
    (hvalue : ∀ v, d = .value v → accepts o f v = true)
    (hnested : ∀ inner, d = .nested inner →
      Sound o inner ∧ ∃ s, f.type = .shape s ∧ s.same inner.shape = true) :
    Sound o { c with defaults := c.defaults ++ [(name, d)] } := by
  have checked := hc.checked
  refine ⟨⟨checked.options, checked.shape, checked.objectDefault, fun key v hv g hg => ?_,
    fun key inner hi g hg => ?_⟩, fun key inner hi => ?_⟩
  · rw [default?_append hvacant] at hv
    split at hv
    next hk =>
      obtain rfl : f = g := Option.some.inj (hf.symm.trans (hk ▸ hg))
      exact hvalue v (Option.some.inj hv)
    next => exact checked.value key v hv g hg
  · rw [default?_append hvacant] at hi
    split at hi
    next hk =>
      obtain rfl : f = g := Option.some.inj (hf.symm.trans (hk ▸ hg))
      exact (hnested inner (Option.some.inj hi)).2
    next => exact checked.nested key inner hi g hg
  · rw [default?_append hvacant] at hi
    split at hi
    next => exact (hnested inner (Option.some.inj hi)).1
    next => exact hc.inner hi

theorem Sound.add_fieldDefault {name : String} {v : Value} (hc : Sound o c)
    (h : c.add (.fieldDefault name v) = .ok c') : Sound o c' := by
  obtain ⟨f, hf, hvacant, hv, rfl⟩ := add_fieldDefault_eq_ok.mp h
  rw [hc.checked.options] at hv
  refine hc.append hf hvacant ?_ nofun
  rintro _ ⟨⟩
  exact hv

theorem Sound.add_nested {inner : Cascade} {identity : inner.shape.Identity} {name : String}
    {f : Field Ty} {s : Shape Ty} (hc : Sound o c) (hinner : Sound o inner)
    (hf : c.shape.field? name = some f) (hs : f.type = .shape s)
    (hsame : s.same inner.shape = true) (h : c.add (.nested name inner identity) = .ok c') :
    Sound o c' := by
  obtain ⟨-, -, hvacant, -, rfl⟩ := add_nested_eq_ok.mp h
  refine hc.append hf hvacant nofun ?_
  rintro _ ⟨⟩
  exact ⟨hinner, s, hs, hsame⟩

theorem BuiltUnder.sound (h : BuiltUnder o c) : Sound o c := by
  induction h with
  | empty hs => exact ⟨⟨rfl, hs, nofun, nofun, nofun⟩, nofun⟩
  | objectDefault _ h ih => exact ih.add_objectDefault h
  | fieldDefault _ h ih => exact ih.add_fieldDefault h
  | nested _ _ hf hs hsame h ih ihinner => exact ih.add_nested ihinner hf hs hsame h

/-! ## What is supplied -/

/-- A partial argument, or a value that already has the cascade's shape. The second
is what the default of an object around may hold. -/
def Admissible (o : Options) (c : Cascade) (v? : Option Value) : Prop :=
  Partial o c v? ∨ ∃ v, v? = some v ∧ Accepts o .unlimited v (.shape c.shape)

/-- Entries that resolution may start from. -/
structure Ready (o : Options) (c : Cascade) (entries : List (String × Value)) : Prop where
  plain : ∀ f ∈ c.shape.fields, ∀ v, present? (entries.lookup f.name) = some v →
    (∀ inner, c.default? f.name ≠ some (.nested inner)) → Accepts o .unlimited v f.type
  nested : ∀ f ∈ c.shape.fields, ∀ v, present? (entries.lookup f.name) = some v →
    ∀ inner, c.default? f.name = some (.nested inner) → Admissible o inner (some v)

theorem fieldAccepts_of_accepts {f : Field Ty} {v : Value} (h : accepts o f v = true) :
    FieldAccepts o .unlimited f (some v) := by
  rw [accepts, Bool.or_eq_true] at h
  rcases h with h | h
  · simp only [Bool.and_eq_true, Bool.not_eq_true'] at h
    obtain ⟨⟨hv, ho⟩, loose⟩ := h
    cases v with
    | undefined => exact .undefined ho loose
    | _ => cases hv
  · have hv : Accepts o (.levels o.conformanceLimit) v f.type := Outcome.isOk_iff.mp h
    exact .present hv.unlimited

theorem accepts_of_fieldAccepts {b : Budget} {f : Field Ty} {v? : Option Value} {v : Value}
    (h : FieldAccepts o b f v?) (hv : present? v? = some v) : Accepts o b v f.type := by
  obtain ⟨rfl, hdef⟩ := present?_eq_some.mp hv
  cases h with
  | undefined _ _ => cases hdef
  | present h => exact h

/-- A nested cascade has the shape of its field, so that the two take the same
values. -/
theorem Sound.accepts_nested_iff {f : Field Ty} {inner : Cascade} (hc : Sound o c)
    (hf : f ∈ c.shape.fields) (hi : c.default? f.name = some (.nested inner)) {v : Value} :
    Accepts o .unlimited v f.type ↔ Accepts o .unlimited v (.shape inner.shape) := by
  have hwf := hc.checked.shape
  obtain ⟨s, hs, hsame⟩ := hc.checked.nested f.name inner hi f (Shape.field?_of_mem hwf.proper hf)
  have hswf : (Ty.shape s).WellFormed := hs ▸ hwf.part (Ty.field_mem_parts hf)
  rw [hs]
  constructor
  · exact fun h => h.of_equal hswf hsame
  · exact fun h => h.of_equal (hc.inner hi).checked.shape (Ty.Equal.symm hswf hsame)

theorem Sound.ready {entries : List (String × Value)} (hc : Sound o c)
    (h : ∀ f ∈ c.shape.fields, ∀ v, present? (entries.lookup f.name) = some v →
      Accepts o .unlimited v f.type) : Ready o c entries := by
  refine ⟨fun f hf v hv _ => h f hf v hv, fun f hf v hv inner hi => ?_⟩
  exact .inr ⟨v, rfl, (hc.accepts_nested_iff hf hi).mp (h f hf v hv)⟩

theorem Sound.ready_base {supplied? : Option Value} {entries : List (String × Value)}
    (hc : Sound o c) (hs : Admissible o c supplied?)
    (h : base c.objectDefault? supplied? = .ok entries) : Ready o c entries := by
  obtain hobj | ⟨-, hdefault | rfl⟩ := base_eq_ok h
  · obtain ⟨rfl, -⟩ := present?_eq_some.mp hobj
    obtain hpartial | ⟨_, ⟨⟩, hv⟩ := hs
    · cases hpartial with
      | object plain nested =>
        exact ⟨plain, fun f hf v hv inner hi => .inl (nested f hf v hv inner hi)⟩
    · refine hc.ready fun f hf v hp => ?_
      obtain ⟨-, ⟨-, hnull⟩ | hfits⟩ := Conformance.accepts_iff.mp hv
      · cases hnull
      · cases hfits with
        | shape hfields => exact accepts_of_fieldAccepts (hfields f hf) hp
  · refine hc.ready fun f hf v hp => ?_
    have hlookup := (present?_eq_some.mp hp).1
    have haccepts := hc.checked.objectDefault entries hdefault _ (Entries.mem_of_lookup hlookup) f
      (Shape.field?_of_mem hc.checked.shape.proper hf)
    rw [hlookup] at hp
    exact accepts_of_fieldAccepts (fieldAccepts_of_accepts haccepts) hp
  · exact hc.ready nofun

/-! ## What comes out -/

/-- A value that is there stays, and an optional field may stay without one. -/
theorem fieldAccepts_kept (loose : o.exactOptionalPropertyTypes = false) {f : Field Ty}
    {v? : Option Value} (h : ∀ v, present? v? = some v → Accepts o .unlimited v f.type)
    (ho : present? v? = none → f.optional = true) : FieldAccepts o .unlimited f v? := by
  cases hv : present? v? with
  | some v =>
    obtain ⟨rfl, -⟩ := present?_eq_some.mp hv
    exact .present (h v hv)
  | none =>
    obtain rfl | rfl := present?_eq_none.mp hv
    · exact .absent (ho hv)
    · exact .undefined (ho hv) loose

section
variable {entries : List (String × Value)} {f : Field Ty} {filled? : Option Value}

/-- A field without a nested cascade keeps its value or takes its default. -/
theorem Sound.fieldAccepts_plain (loose : o.exactOptionalPropertyTypes = false) (hc : Sound o c)
    (hr : Ready o c entries) (hf : f ∈ c.shape.fields)
    (hd : ∀ inner, c.default? f.name ≠ some (.nested inner)) {limit levels : Nat}
    (h : resolveField limit levels f (present? (entries.lookup f.name)) c.defaults = .ok filled?) :
    FieldAccepts o .unlimited f (filled?.or (entries.lookup f.name)) := by
  have hkept := fieldAccepts_kept loose fun v hv => hr.plain f hf v hv hd
  rw [resolveField_eq] at h
  split at h
  next =>
    split at h
    next ho =>
      cases h
      refine hkept fun hv => ?_
      rw [hv] at ho
      simpa using ho
    next => cases h
  next v hv =>
    cases hp : present? (entries.lookup f.name) with
    | some w =>
      rw [hp] at h
      cases h
      exact hkept fun hv => nomatch hp.symm.trans hv
    | none =>
      rw [hp] at h
      cases h
      have hfield := Shape.field?_of_mem hc.checked.shape.proper hf
      exact fieldAccepts_of_accepts (hc.checked.value f.name v hv f hfield)
  next inner hi => exact absurd hi (hd inner)

theorem Sound.fieldAccepts_nested (loose : o.exactOptionalPropertyTypes = false) (hc : Sound o c)
    (hr : Ready o c entries) (hf : f ∈ c.shape.fields) {inner : Cascade}
    (hd : c.default? f.name = some (.nested inner)) {limit levels : Nat}
    (ih : ∀ levels v? out, Admissible o inner v? → resolveFrom limit levels v? inner = .ok out →
      Accepts o .unlimited out (.shape inner.shape))
    (h : resolveField limit levels f (present? (entries.lookup f.name)) c.defaults = .ok filled?) :
    FieldAccepts o .unlimited f (filled?.or (entries.lookup f.name)) := by
  simp only [resolveField_eq, hd] at h
  split at h
  next =>
    cases levels with
    | zero => cases h
    | succ levels =>
      obtain ⟨out, hout, rfl⟩ := Outcome.map_eq_ok.mp h
      have hsupplied : Admissible o inner (present? (entries.lookup f.name)) := by
        cases hp : present? (entries.lookup f.name) with
        | some v => exact hr.nested f hf v hp inner hd
        | none => exact .inl (.absent inner)
      have hshape := ih levels _ out hsupplied (Outcome.mapError_eq_ok.mp hout)
      exact .present ((hc.accepts_nested_iff hf hd).mpr hshape)
  next ho =>
    cases h
    simp only [Bool.or_eq_true, not_or, Bool.not_eq_true, Option.isSome_eq_false_iff,
      Option.isNone_iff_eq_none, Bool.not_eq_false'] at ho
    obtain ⟨⟨hp, -⟩, ho⟩ := ho
    refine fieldAccepts_kept loose (fun v hv => ?_) fun _ => ho
    cases hp.symm.trans hv

end

theorem accepts_of_checkShape {v : Value} {s : Shape Ty}
    (h : Conformance.checkShape o .unlimited v s = .ok ()) :
    Accepts o .unlimited v (.shape s) := by
  cases v with
  | object entries =>
    exact Conformance.accepts_of_fits rfl (.shape (Conformance.checkFields_eq_ok.mp h))
  | _ => cases h

theorem Sound.checkShape_resolveFrom (loose : o.exactOptionalPropertyTypes = false)
    (hc : Sound o c) {limit levels : Nat} {supplied? : Option Value} {out : Value}
    (hs : Admissible o c supplied?) (h : resolveFrom limit levels supplied? c = .ok out) :
    Conformance.checkShape o .unlimited out c.shape = .ok () := by
  -- By induction on the nested cascades. Within one level each field is on its own.
  induction hc generalizing levels supplied? out with
  | @mk c checked nested ih =>
    have hc : Sound o c := ⟨checked, nested⟩
    obtain ⟨entries, filled, hbase, hfill, rfl⟩ := resolveFrom_eq_ok.mp h
    refine Conformance.checkFields_eq_ok.mpr fun f hf => ?_
    obtain ⟨filled?, hfilled, hlookup⟩ := lookup_fillFields checked.shape.proper hfill hf
    rw [hlookup]
    have hr := hc.ready_base hs hbase
    by_cases hd : ∃ inner, c.default? f.name = some (.nested inner)
    · obtain ⟨inner, hi⟩ := hd
      refine hc.fieldAccepts_nested loose hr hf hi (fun levels v? out hv hout => ?_) hfilled
      exact accepts_of_checkShape (ih f.name inner hi hv hout)
    · exact hc.fieldAccepts_plain loose hr hf (not_exists.mp hd) hfilled

/-- What a partial argument resolves to conforms to the cascade's shape, however
deep it is. -/
theorem checkShape_resolve (o : Options) (loose : o.exactOptionalPropertyTypes = false)
    {c : Cascade} (hc : BuiltUnder o c) {supplied? : Option Value} (hs : Partial o c supplied?)
    {out : Value} (h : c.resolve supplied? o = .ok out) :
    Conformance.checkShape o .unlimited out c.shape = .ok () :=
  hc.sound.checkShape_resolveFrom loose (.inl hs) h

/-! ## A cascade in a cascade -/

def lengthShape : Shape Ty :=
  ⟨[⟨"value", false, false, .intrinsic .number⟩, ⟨"unit", true, false, .intrinsic .string⟩]⟩

def parcelShape : Shape Ty :=
  ⟨[⟨"to", false, false, .intrinsic .string⟩, ⟨"length", false, false, .shape lengthShape⟩,
    ⟨"note", true, true, .literal (.string "fragile")⟩]⟩

def lengthCascade : Cascade := ⟨lengthShape, none, [("value", .value (.number (.zero false)))], {}⟩

def parcelCascade : Cascade :=
  ⟨parcelShape, some (.object [("length", .object [("value", .number .nan)])]),
    [("to", .value (.string "home")), ("length", .nested lengthCascade)], {}⟩

theorem builtUnder_parcel : BuiltUnder {} parcelCascade := by
  have hvalue : (empty lengthShape {}).add (.fieldDefault "value" (.number (.zero false))) =
      .ok lengthCascade := rfl
  have hlength : BuiltUnder {} lengthCascade := .fieldDefault (.empty (by decide)) hvalue
  have hto : (empty parcelShape {}).add (.fieldDefault "to" (.string "home")) =
      .ok ⟨parcelShape, none, [("to", .value (.string "home"))], {}⟩ := rfl
  have hnested : add ⟨parcelShape, none, [("to", .value (.string "home"))], {}⟩
      (.nested "length" lengthCascade) =
      .ok ⟨parcelShape, none, [("to", .value (.string "home")), ("length", .nested lengthCascade)],
        {}⟩ := rfl
  refine .objectDefault (v := .object [("length", .object [("value", .number .nan)])])
    (.nested (.fieldDefault (.empty (by decide)) hto) hlength rfl rfl (by decide) hnested) rfl

/-- Nothing is there to be checked: the one entry holds `undefined`. -/
theorem partial_length : Partial {} lengthCascade (some (.object [("value", .undefined)])) := by
  have habsent : ∀ f ∈ lengthShape.fields,
      present? (List.lookup f.name [("value", Value.undefined)]) = none := by decide
  refine .object (fun f hf v hv => ?_) fun f hf v hv => ?_
  · exact nomatch (habsent f hf).symm.trans hv
  · exact nomatch (habsent f hf).symm.trans hv

theorem partial_parcel : Partial {} parcelCascade
    (some (.object [("length", .object [("value", .undefined)]), ("note", .string "fragile")])) := by
  refine .object (fun f hf v hv hplain => ?_) fun f hf v hv inner hi => ?_
  · simp only [parcelCascade, parcelShape, List.mem_cons, List.not_mem_nil, or_false] at hf
    rcases hf with rfl | rfl | rfl
    · cases hv
    · exact absurd rfl (hplain lengthCascade)
    · cases hv
      rfl
  · simp only [parcelCascade, parcelShape, List.mem_cons, List.not_mem_nil, or_false] at hf
    rcases hf with rfl | rfl | rfl
    · cases hv
    · cases hv
      cases hi
      exact partial_length
    · cases hi

theorem checkShape_resolve_parcel :
    let supplied : Value :=
      .object [("length", .object [("value", .undefined)]), ("note", .string "fragile")]
    let out : Value := .object [("length", .object [("value", .number (.zero false))]),
      ("note", .string "fragile"), ("to", .string "home")]
    BuiltUnder {} parcelCascade ∧ Partial {} parcelCascade (some supplied) ∧
      parcelCascade.resolve (some supplied) {} = .ok out ∧
      Conformance.checkShape {} .unlimited out parcelShape = .ok () :=
  ⟨builtUnder_parcel, partial_parcel, rfl,
    checkShape_resolve {} rfl builtUnder_parcel partial_parcel rfl⟩

end ShapeTyping.Cascade
