import ShapeTyping.Proofs.Assignability.Inversion
import ShapeTyping.Proofs.Cascade.Addition
import ShapeTyping.Proofs.Cascade.Resolution
import ShapeTyping.Proofs.Cascade.Telling
/-! Nothing required is missing from what a cascade resolves to, at any level. A nested
cascade may describe its field in other words than the field's type does, but two shapes
each assignable to the other require the same fields. A shape that is one with the field's needs
no comparison, and could not stand one with a literal that is not a number. -/
namespace ShapeTyping

/-- The value is an object with a key for every field that the shape requires. -/
def HasRequired (s : Shape Ty) (v : Value) : Prop :=
  ∃ entries, v = .object entries ∧ ∀ f ∈ s.required, f.name ∈ entries.map (·.1)

theorem Shape.mem_required {s : Shape Ty} {f : Field Ty} :
    f ∈ s.required ↔ f ∈ s.fields ∧ f.optional = false := by
  rw [required, List.mem_filter, Bool.not_eq_true']

/-- A field that a shape requires is required by every shape assignable to it. -/
theorem HasRequired.of_related {o : Options} {a b : Shape Ty} (ha : (Ty.shape a).WellFormed)
    (h : Assignability.Related o (.shape a) (.shape b)) {v : Value} (hv : HasRequired a v) :
    HasRequired b v := by
  obtain ⟨entries, rfl, hkeys⟩ := hv
  refine ⟨entries, rfl, fun g hg => ?_⟩
  obtain ⟨hg, hrequired⟩ := Shape.mem_required.mp hg
  have hserves := (Assignability.related_shape_iff ha).mp h g hg
  cases hf : a.field? g.name with
  | none =>
    rw [hf] at hserves
    cases hserves with
    | absent optional => exact nomatch hrequired.symm.trans optional
  | some f =>
    rw [hf] at hserves
    obtain ⟨hmem, hname⟩ := Shape.mem_of_field? hf
    cases hserves with
    | present optional _ =>
      have hf : f.optional = false := by
        cases ho : f.optional with
        | false => rfl
        | true => exact nomatch hrequired.symm.trans (optional ho)
      rw [← hname]
      exact hkeys f (Shape.mem_required.mpr ⟨hmem, hf⟩)

theorem Ty.WellFormed.of_mem_shapes {t : Ty} (ht : t.WellFormed) {s : Shape Ty}
    (hs : s ∈ t.shapes) : (Ty.shape s).WellFormed := by
  cases t with
  | shape a =>
    rw [List.mem_singleton.mp hs]
    exact ht
  | union members =>
    obtain ⟨m, hm, hms⟩ := List.mem_filterMap.mp hs
    cases m with
    | shape a =>
      cases hms
      exact ht.part (member_mem_parts hm)
    | _ => cases hms
  | _ => cases hs

namespace Cascade

theorem hasRequired_of_describesSame {o : Options} {nested candidate : Shape Ty}
    {identity : nested.Identity} (hn : (Ty.shape nested).WellFormed)
    (hc : (Ty.shape candidate).WellFormed) (h : describesSame o nested identity candidate = true)
    {v : Value} (hv : HasRequired nested v) : HasRequired candidate v := by
  rw [describesSame, Bool.or_eq_true, Bool.or_eq_true, Bool.and_eq_true] at h
  rcases h with (hone | hequal) | ⟨hassignable, -⟩
  · rwa [identity.eq_of_isOne candidate hone]
  · exact hv.of_related (o := o) hn (.of_equal (Ty.Equal.symm hc hequal))
  · exact hv.of_related hn (Ty.related_of_isAssignable hassignable)

/-- The value has what the cascade's shape requires. Where a cascade is nested and its field
has a value, the value has what one of the shapes in the field's type requires, and is
complete for the nested cascade. -/
inductive Complete : Cascade → Value → Prop
  | mk {c : Cascade} {v : Value} (required : HasRequired c.shape v)
      (declared : ∀ f ∈ c.shape.fields, ∀ inner, c.default? f.name = some (.nested inner) →
        ∀ w, v.getDefined? f.name = some w → ∃ s ∈ f.type.shapes, HasRequired s w)
      (nested : ∀ f ∈ c.shape.fields, ∀ inner, c.default? f.name = some (.nested inner) →
        ∀ w, v.getDefined? f.name = some w → Complete inner w) : Complete c v

theorem Complete.required {c : Cascade} {v : Value} (h : Complete c v) :
    HasRequired c.shape v := by
  cases h with
  | mk required _ _ => exact required

/-! ## One field -/

section
variable {limit levels : Nat} {c : Cascade} {f : Field Ty} {v? filled? : Option Value}

theorem Fills.exists_value (h : Fills limit c f levels (present? v?) filled?)
    (hf : f.optional = false) : ∃ v, filled?.or v? = some v := by
  generalize hp : present? v? = p? at h
  cases h with
  | kept v _ => exact ⟨v, (present?_eq_some.mp hp).1⟩
  | default _ => exact ⟨_, rfl⟩
  | nested _ _ _ => exact ⟨_, rfl⟩
  | omitted optional _ => exact nomatch hf.symm.trans optional

/-- Under a nested cascade there is nothing or what the cascade resolved to. -/
theorem Fills.exists_resolved {inner : Cascade} (hd : c.default? f.name = some (.nested inner))
    (h : Fills limit c f levels (present? v?) filled?) {w : Value}
    (hw : present? (filled?.or v?) = some w) :
    ∃ n < levels, ∃ u?, resolveFrom limit n u? inner = .ok w := by
  rcases h.of_nested hd with ⟨-, n, hn, out, hresolved, rfl⟩ | ⟨-, hnone, rfl⟩
  · obtain ⟨hout, -⟩ := present?_eq_some.mp hw
    cases hout
    exact ⟨n, hn, v?, hresolved⟩
  · exact nomatch hnone.symm.trans hw

end

/-! ## All levels -/

/-- What the shape of a nested cascade requires includes what some shape in the type of its
field requires. -/
theorem Built.exists_declared {c inner : Cascade} (hc : Built c) {f : Field Ty}
    (hf : f ∈ c.shape.fields) (hd : c.default? f.name = some (.nested inner)) {w : Value}
    (hw : HasRequired inner.shape w) : ∃ s ∈ f.type.shapes, HasRequired s w := by
  obtain ⟨hinner, identity, g, hg, hsame⟩ := hc.nested hd
  rw [Shape.field?_of_mem hc.wellFormed.proper hf] at hg
  cases hg
  obtain ⟨s, hs, hdescribes⟩ := List.any_eq_true.mp hsame
  have hwf := (hc.wellFormed.part (Ty.field_mem_parts hf)).of_mem_shapes hs
  exact ⟨s, hs, hasRequired_of_describesSame hinner.wellFormed hwf hdescribes hw⟩

theorem Built.complete_resolveFrom {limit levels : Nat} {c : Cascade} (hc : Built c)
    {supplied? : Option Value} {out : Value}
    (h : resolveFrom limit levels supplied? c = .ok out) : Complete c out := by
  -- Every cascade nested in another is entered with fewer levels left.
  induction levels using Nat.strongRecOn generalizing c supplied? out with
  | ind levels ih =>
    obtain ⟨entries, filled, -, hfill, rfl⟩ := resolveFrom_eq_ok.mp h
    have hnested : ∀ f ∈ c.shape.fields, ∀ inner, c.default? f.name = some (.nested inner) →
        ∀ w, (Value.object filled).getDefined? f.name = some w → Complete inner w := by
      intro f hf inner hd w hw
      obtain ⟨filled?, hfills, hlookup⟩ := exists_fills hc.wellFormed.proper hfill hf
      have hw : present? (filled.lookup f.name) = some w := hw
      rw [hlookup] at hw
      obtain ⟨n, hn, u?, hresolved⟩ := hfills.exists_resolved hd hw
      exact ih n hn (hc.nested hd).1 hresolved
    refine .mk ⟨filled, rfl, fun f hf => ?_⟩ (fun f hf inner hd w hw => ?_) hnested
    · obtain ⟨hf, hrequired⟩ := Shape.mem_required.mp hf
      obtain ⟨filled?, hfills, hlookup⟩ := exists_fills hc.wellFormed.proper hfill hf
      obtain ⟨v, hv⟩ := hfills.exists_value hrequired
      exact List.mem_map_of_mem (Entries.mem_of_lookup (hlookup.trans hv))
    · exact hc.exists_declared hf hd (hnested f hf inner hd w hw).required

/-- What a cascade resolves to lacks nothing that is required, at any level. -/
theorem complete_resolve {c : Cascade} (hc : Built c) (o : Options) (supplied? : Option Value)
    {out : Value} (h : c.apply supplied? o = .ok out) : Complete c out :=
  hc.complete_resolveFrom (apply_eq_ok_iff.mp h)

section
open Classical

/-- A shape that is used wherever the same one is met. -/
noncomputable def sharedIdentity (s : Shape Ty) : s.Identity :=
  ⟨fun t => decide (t = s), fun _ => of_decide_eq_true⟩

end

/-- A shape that neither equals itself nor is assignable to itself. -/
def tokenShape : Shape Ty := ⟨[⟨"id", false, false, .literal (.number .nan)⟩]⟩

/-- The socket is nested in other words than its field lists, under other options. The token is
nested by the shape that its field has, which else is refused. -/
theorem complete_resolve_socket :
    let socket : Cascade := ⟨⟨[⟨"port", false, false, .intrinsic .any⟩]⟩, none,
      [("port", .value (.string "https"))], { strictNullChecks := false }⟩
    let token : Cascade := empty tokenShape {}
    let shape : Shape Ty := ⟨serverShape.fields ++ [⟨"token", true, false, .shape tokenShape⟩]⟩
    let server : Cascade := ⟨shape, none, [("socket", .nested socket)], { maxDepth := 8 }⟩
    let whole : Cascade :=
      { server with defaults := [("socket", .nested socket), ("token", .nested token)] }
    let supplied : Value := .object [("mode", .null), ("socket", .object []),
      ("token", .object [("id", .null)])]
    let out : Value := .object [("mode", .null), ("socket", .object [("port", .string "https")]),
      ("token", .object [("id", .null)])]
    server.add (.nested "token" token) = .error (.nestedCascadeShapeMismatch "token") ∧
      Built whole ∧ whole.apply (some supplied) {} = .ok out ∧ Complete whole out := by
  intro socket token shape server whole supplied out
  have hsocket : Built socket :=
    .of_build socket.shape { strictNullChecks := false } [.fieldDefault "port" (.string "https")]
      (by decide) (by simp [Addition.inner?]) rfl
  have hserver : Built server :=
    .of_build shape { maxDepth := 8 } [.nested "socket" socket] (by decide)
      (by simpa [Addition.inner?] using hsocket) rfl
  have hshared : server.add (.nested "token" token (sharedIdentity tokenShape)) = .ok whole := by
    refine add_nested_eq_ok.mpr ⟨_, rfl, rfl, ?_, rfl⟩
    simp [Ty.shapes, describesSame, sharedIdentity, token, empty]
  have htoken : Built token := .empty (by decide) {}
  have hwhole : Built whole := .add hserver (by simpa [Addition.inner?] using htoken) hshared
  have h : whole.apply (some supplied) {} = .ok out := rfl
  exact ⟨rfl, hwhole, h, complete_resolve hwhole {} _ h⟩

end Cascade
end ShapeTyping
