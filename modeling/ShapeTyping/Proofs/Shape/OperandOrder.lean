import Mathlib.Data.List.TakeWhile
import ShapeTyping.Proofs.Conformance.Soundness
import ShapeTyping.Proofs.Shape.Intersection
/-! The order of the shapes in an intersection. It shows where a field of both has two types
each of which is assignable to the other: then neither is the narrower one, and the type of
the second shape is taken. The same values conform in both orders just if two such types
always have the same values. They have if nothing is left open by them, as it is by `any`, by
optional fields and by optional parameters. -/
namespace ShapeTyping

open Assignability (Related)
open Conformance (Accepts FieldAccepts)

/-! ## Types that leave nothing open -/

def Ty.hasOptionalParam : Ty → Bool
  | .function s => s.params.any (·.optional)
  | _ => false

/-- A type that leaves nothing open, as far as a value shows. -/
inductive Ty.Definite : Ty → Prop
  | intro {t : Ty} (any : t.isAny = false) (fields : t.hasOptionalField = false)
      (params : t.hasOptionalParam = false) (visible : ∀ u ∈ t.visible, Definite u) : Definite t

namespace Ty.Definite

variable {t u : Ty}

theorem any (h : t.Definite) : t.isAny = false := by
  cases h
  assumption

theorem fields (h : t.Definite) : t.hasOptionalField = false := by
  cases h
  assumption

theorem of_mem (h : t.Definite) (hu : u ∈ t :: t.visible) : u.Definite := by
  rcases List.mem_cons.mp hu with rfl | hu
  · exact h
  · cases h with
    | intro _ _ _ visible => exact visible u hu

/-- A function without optional parameters asks for all of them. -/
theorem length_le_requiredCount {c : Signature Ty} (h : (Ty.function c).Definite) :
    c.params.length ≤ c.requiredCount := by
  cases h with
  | intro _ _ params _ =>
    have hrequired : c.params.takeWhile (fun p => !p.optional) = c.params := by
      refine List.takeWhile_eq_self_iff.mpr fun p hp => ?_
      simpa using List.any_eq_false.mp params p hp
    unfold Signature.requiredCount
    rw [hrequired]

end Ty.Definite

namespace Conformance

variable {o : Options} {s t : Ty}

/-- Among definite types assignability says all about values, functions included. -/
theorem accepts_of_related_definite (h : Related o s t) (hs : s.WellFormed) (hsd : s.Definite)
    (htd : t.Definite) : ∀ b v, Accepts o b v s → Accepts o b v t := by
  refine h.induction (P := fun s t => s.WellFormed → s.Definite → t.Definite →
    ∀ b v, Accepts o b v s → Accepts o b v t) (fun s t heq => ?_) (fun s t hrule => ?_) hs hsd htd
  · intro hs _ _ b v hv
    exact hv.of_equal hs heq
  · intro hs hsd htd b v hv
    refine hv.of_rule hrule hsd.any htd.fields (fun c hc _ => ?_) fun s' hs' t' ht' hst b' w _ => ?_
    · subst hc
      exact hsd.length_le_requiredCount
    · exact hst (hs.of_mem (Ty.mem_cons_parts hs')) (hsd.of_mem hs') (htd.of_mem ht') b' w

end Conformance

/-! ## The two orders field by field -/

/-- A field may have either type and let in the same values. An `undefined` is let in without
a look at the type if the field is optional. -/
def Ty.Interchangeable (o : Options) (optional : Bool) (s t : Ty) : Prop :=
  ∀ v : Value, (v.conforms s o).isOk = (v.conforms t o).isOk ∨
    (v = .undefined ∧ optional = true ∧ o.exactOptionalPropertyTypes = false)

namespace Ty.Interchangeable

variable {o : Options} {optional : Bool} {s t : Ty}

theorem refl (t : Ty) : Interchangeable o optional t t := fun _ => .inl rfl

theorem symm (h : Interchangeable o optional s t) : Interchangeable o optional t s :=
  fun v => (h v).imp_left Eq.symm

theorem of_accepts (h : ∀ b v, Accepts o b v s → Accepts o b v t)
    (h' : ∀ b v, Accepts o b v t → Accepts o b v s) : Interchangeable o optional s t := by
  intro v
  rw [Bool.eq_iff_iff, Outcome.isOk_iff, Outcome.isOk_iff]
  exact .inl ⟨h _ v, h' _ v⟩

theorem of_equal (hs : s.WellFormed) (ht : t.WellFormed) (h : s.Equal t) :
    Interchangeable o optional s t :=
  of_accepts (fun _ _ hv => hv.of_equal hs h) fun _ _ hv => hv.of_equal ht (h.symm hs)

theorem of_definite (hs : s.WellFormed) (ht : t.WellFormed) (hsd : s.Definite)
    (htd : t.Definite) (hst : s.isAssignable t o = true) (hts : t.isAssignable s o = true) :
    Interchangeable o optional s t :=
  of_accepts (Conformance.accepts_of_related_definite (related_of_isAssignable hst) hs hsd htd)
    (Conformance.accepts_of_related_definite (related_of_isAssignable hts) ht htd hsd)

theorem accepts_iff {f g : Field Ty} (hopt : f.optional = g.optional) :
    Interchangeable o f.optional f.type g.type ↔
      ∀ v, FieldAccepts o (.levels o.conformanceLimit) f (some v) ↔
        FieldAccepts o (.levels o.conformanceLimit) g (some v) := by
  refine forall_congr' fun v => ?_
  rw [Bool.eq_iff_iff, Outcome.isOk_iff, Outcome.isOk_iff, Conformance.fieldAccepts_some_iff,
    Conformance.fieldAccepts_some_iff, ← hopt]
  by_cases hu : v = .undefined ∧ f.optional = true ∧ o.exactOptionalPropertyTypes = false
  · exact ⟨fun _ => iff_of_true (.inr hu) (.inr hu), fun _ => .inr hu⟩
  · rw [or_iff_left hu, or_iff_left hu, or_iff_left hu]
    rfl

end Ty.Interchangeable

namespace Field

variable {o : Options} {l r f g : Field Ty}

/-- Two fields with the same modifiers, of one type or of two types each assignable to the
other. -/
structure Tied (o : Options) (f g : Field Ty) : Prop where
  optional : f.optional = g.optional
  readonly : f.readonly = g.readonly
  type : f.type = g.type ∨
    (f.type.isAssignable g.type o = true ∧ g.type.isAssignable f.type o = true)

/-- The same values may stand under the name of either field. -/
structure Interchangeable (o : Options) (f g : Field Ty) : Prop where
  optional : f.optional = g.optional
  type : f.type.Interchangeable o f.optional g.type

theorem Interchangeable.accepts (h : f.Interchangeable o g) {v? : Option Value}
    (hf : FieldAccepts o (.levels o.conformanceLimit) f v?) :
    FieldAccepts o (.levels o.conformanceLimit) g v? := by
  cases v? with
  | none =>
    cases hf with
    | absent optional => exact .absent (h.optional ▸ optional)
  | some v => exact ((Ty.Interchangeable.accepts_iff h.optional).mp h.type v).mp hf

theorem IsMeet.optional_eq (h : l.IsMeet o r f) (h' : r.IsMeet o l g) :
    f.optional = g.optional := by
  rw [h.optional, h'.optional, Bool.and_comm]

/-- When the narrower field is sought in the two orders, its type is the same, or the two
types are tied and it is one of them here and the other there. -/
theorem IsMeet.type_rel {R : Ty → Ty → Prop} (h : l.IsMeet o r f) (h' : r.IsMeet o l g)
    (hrefl : ∀ t, R t t)
    (htie : l.type.isAssignable r.type o = true → r.type.isAssignable l.type o = true →
      R l.type r.type ∧ R r.type l.type) : R f.type g.type := by
  rcases h.type with ⟨hf, hrl⟩ | ⟨hf, hlr⟩
  · rcases h'.type with ⟨hg, hlr⟩ | ⟨hg, -⟩
    · rw [hf, hg]
      exact (htie hlr hrl).2
    · rw [hf, hg]
      exact hrefl r.type
  · rcases h'.type with ⟨hg, -⟩ | ⟨hg, hrl⟩
    · rw [hf, hg]
      exact hrefl l.type
    · rw [hf, hg]
      exact (htie hlr hrl).1

theorem IsMeet.tied (h : l.IsMeet o r f) (h' : r.IsMeet o l g) : f.Tied o g where
  optional := h.optional_eq h'
  readonly := by rw [h.readonly, h'.readonly, Bool.or_comm]
  type := by
    refine h.type_rel h' (R := fun s t => s = t ∨
      (s.isAssignable t o = true ∧ t.isAssignable s o = true)) (fun _ => .inl rfl) ?_
    exact fun hlr hrl => ⟨.inr ⟨hlr, hrl⟩, .inr ⟨hrl, hlr⟩⟩

theorem IsMeet.interchangeable (h : l.IsMeet o r f) (h' : r.IsMeet o l g)
    (htie : l.type.isAssignable r.type o = true → r.type.isAssignable l.type o = true →
      l.type.Interchangeable o (l.optional && r.optional) r.type) : f.Interchangeable o g where
  optional := h.optional_eq h'
  type := by
    rw [h.optional]
    exact h.type_rel h' .refl fun hlr hrl => ⟨htie hlr hrl, (htie hlr hrl).symm⟩

end Field

/-- What the intersections in the two orders have under a name is related if the narrower
fields are, since every other field is taken as it is. -/
theorem MeetAt.rel {o : Options} {R : Field Ty → Field Ty → Prop}
    {l? r? f? g? : Option (Field Ty)} (hrefl : ∀ f, R f f)
    (hboth : ∀ l r f g, l? = some l → r? = some r → l.IsMeet o r f → r.IsMeet o l g → R f g)
    (h : MeetAt o l? r? f?) (h' : MeetAt o r? l? g?) : Option.Rel R f? g? := by
  cases h with
  | neither =>
    cases h'
    exact .none
  | left l =>
    cases h'
    exact .some (hrefl l)
  | right r =>
    cases h'
    exact .some (hrefl r)
  | both h =>
    cases h' with
    | both h' => exact .some (hboth _ _ _ _ rfl rfl h h')

namespace Shape

variable {o : Options} {a b c c' : Shape Ty}

/-- Wherever a field of both shapes has two types each assignable to the other, either type
lets in the same values. -/
def TiesAgree (o : Options) (a b : Shape Ty) : Prop :=
  ∀ l ∈ a.fields, ∀ r ∈ b.fields, l.name = r.name → l.type.isAssignable r.type o = true →
    r.type.isAssignable l.type o = true →
    l.type.Interchangeable o (l.optional && r.optional) r.type

/-- Wherever a field of both shapes has two types each assignable to the other, these are
equal or leave nothing open. -/
def TiesSettled (o : Options) (a b : Shape Ty) : Prop :=
  ∀ l ∈ a.fields, ∀ r ∈ b.fields, l.name = r.name → l.type.isAssignable r.type o = true →
    r.type.isAssignable l.type o = true →
    l.type.Equal r.type ∨ (l.type.Definite ∧ r.type.Definite)

theorem TiesAgree.symm (h : TiesAgree o a b) : TiesAgree o b a := by
  intro r hr l hl hn hrl hlr
  rw [Bool.and_comm]
  exact (h l hl r hr hn.symm hlr hrl).symm

theorem TiesSettled.agree (h : TiesSettled o a b) (ha : (Ty.shape a).WellFormed)
    (hb : (Ty.shape b).WellFormed) : TiesAgree o a b := by
  intro l hl r hr hn hlr hrl
  have hlw := ha.part (Ty.field_mem_parts hl)
  have hrw := hb.part (Ty.field_mem_parts hr)
  rcases h l hl r hr hn hlr hrl with heq | ⟨hld, hrd⟩
  · exact .of_equal hlw hrw heq
  · exact .of_definite hlw hrw hld hrd hlr hrl

/-! ## Values of the two intersections -/

theorem conformsToShape_of_interchangeable {v : Value} (hd : (c'.fields.map (·.name)).Nodup)
    (h : ∀ name, Option.Rel (Field.Interchangeable o) (c.field? name) (c'.field? name))
    (hv : v.conformsToShape c o = .ok ()) : v.conformsToShape c' o = .ok () := by
  obtain ⟨entries, rfl, hfields⟩ := Conformance.checkShape_eq_ok.mp hv
  refine Conformance.checkShape_eq_ok.mpr ⟨entries, rfl, fun g hg => ?_⟩
  have hname := h g.name
  rw [field?_of_mem hd hg] at hname
  cases hf : c.field? g.name with
  | none =>
    rw [hf] at hname
    cases hname
  | some f =>
    rw [hf] at hname
    obtain ⟨hfm, hfn⟩ := mem_of_field? hf
    cases hname with
    | some hfg =>
      rw [← hfn]
      exact hfg.accepts (hfields f hfm)

/-- What the shape of one order accepts, the shape of the other does. -/
theorem TiesAgree.conformsToShape {v : Value} (h : TiesAgree o a b)
    (ha : (a.fields.map (·.name)).Nodup) (hb : (b.fields.map (·.name)).Nodup)
    (hc : a.intersect b o = .ok c) (hc' : b.intersect a o = .ok c')
    (hv : v.conformsToShape c o = .ok ()) : v.conformsToShape c' o = .ok () := by
  obtain ⟨-, hmeet⟩ := intersect_eq_ok ha hb hc
  obtain ⟨hd, hmeet'⟩ := intersect_eq_ok hb ha hc'
  refine conformsToShape_of_interchangeable hd (fun name => ?_) hv
  refine (hmeet name).rel (fun f => ⟨rfl, .refl f.type⟩) (fun l r f g hl hr hf hg => ?_)
    (hmeet' name)
  obtain ⟨hlm, hln⟩ := mem_of_field? hl
  obtain ⟨hrm, hrn⟩ := mem_of_field? hr
  exact hf.interchangeable hg (h l hlm r hrm (hln.trans hrn.symm))

/-- An object that conforms may have another value under the name of a field. -/
theorem conformsToShape_cons_iff {name : String} {f : Field Ty} {w : Value}
    {entries : List (String × Value)} (hd : (c.fields.map (·.name)).Nodup)
    (hf : c.field? name = some f)
    (h : (Value.object entries).conformsToShape c o = .ok ()) :
    (Value.object ((name, w) :: entries)).conformsToShape c o = .ok () ↔
      FieldAccepts o (.levels o.conformanceLimit) f (some w) := by
  obtain ⟨hfm, rfl⟩ := mem_of_field? hf
  obtain ⟨_, ⟨⟩, hfields⟩ := Conformance.checkShape_eq_ok.mp h
  constructor
  · intro hv
    obtain ⟨_, ⟨⟩, hfields'⟩ := Conformance.checkShape_eq_ok.mp hv
    have hw := hfields' f hfm
    rwa [List.lookup_cons_self] at hw
  · intro hw
    refine Conformance.checkShape_eq_ok.mpr ⟨_, rfl, fun g hg => ?_⟩
    by_cases hn : g.name = f.name
    · obtain rfl := List.inj_on_of_nodup_map hd hg hfm hn
      rwa [List.lookup_cons_self]
    · rw [List.lookup_cons, beq_false_of_ne hn]
      exact hfields g hg

/-- Shapes that accept the same values, and some at all, let in the same under a name. -/
theorem fieldAccepts_iff_of_conformsToShape {name : String} {f g : Field Ty} {v : Value}
    (hd : (c.fields.map (·.name)).Nodup) (hd' : (c'.fields.map (·.name)).Nodup)
    (hf : c.field? name = some f) (hg : c'.field? name = some g)
    (hv : v.conformsToShape c o = .ok ())
    (h : ∀ v : Value, v.conformsToShape c o = .ok () ↔ v.conformsToShape c' o = .ok ())
    (w : Value) :
    FieldAccepts o (.levels o.conformanceLimit) f (some w) ↔
      FieldAccepts o (.levels o.conformanceLimit) g (some w) := by
  obtain ⟨entries, rfl, -⟩ := Conformance.checkShape_eq_ok.mp hv
  rw [← conformsToShape_cons_iff hd hf hv, ← conformsToShape_cons_iff hd' hg ((h _).mp hv)]
  exact h _

/-- In a tie the field has the second type in either order, and so both types show. -/
theorem tiesAgree_of_conformsToShape {v : Value} (ha : (a.fields.map (·.name)).Nodup)
    (hb : (b.fields.map (·.name)).Nodup) (hc : a.intersect b o = .ok c)
    (hc' : b.intersect a o = .ok c') (hv : v.conformsToShape c o = .ok ())
    (h : ∀ v : Value, v.conformsToShape c o = .ok () ↔ v.conformsToShape c' o = .ok ()) :
    TiesAgree o a b := by
  intro l hl r hr hn hlr hrl
  have hl? : a.field? r.name = some l := hn ▸ field?_of_mem ha hl
  have hr? : b.field? r.name = some r := field?_of_mem hb hr
  obtain ⟨f, hf, hft⟩ := type_of_intersect ha hb hc hr hl? hrl
  obtain ⟨g, hg, hgt⟩ := type_of_intersect hb ha hc' hl (hn ▸ hr?) hlr
  rw [hn] at hg
  obtain ⟨hd, hmeet⟩ := intersect_eq_ok ha hb hc
  obtain ⟨hd', hmeet'⟩ := intersect_eq_ok hb ha hc'
  have hfm := hmeet r.name
  have hgm := hmeet' r.name
  rw [hl?, hr?, hf] at hfm
  rw [hl?, hr?, hg] at hgm
  cases hfm with
  | both hfm =>
    cases hgm with
    | both hgm =>
      have hsame := (Ty.Interchangeable.accepts_iff (hfm.optional_eq hgm)).mpr
        (fieldAccepts_iff_of_conformsToShape hd hd' hf hg hv h)
      rw [hfm.optional, hft, hgt] at hsame
      exact hsame.symm

/-- Two shapes in either order give the same fields up to ties. The same values conform in
either order if tied types let in the same values, and else only if none conform at all.
Types that leave nothing open do let in the same values when they are tied. -/
theorem intersect_operand_order (o : Options) {a b c c' : Shape Ty}
    (ha : (Ty.shape a).WellFormed) (hb : (Ty.shape b).WellFormed)
    (hc : a.intersect b o = .ok c) (hc' : b.intersect a o = .ok c') :
    (∀ name, Option.Rel (Field.Tied o) (c.field? name) (c'.field? name)) ∧
    ((∀ v : Value, (v.conformsToShape c o).isOk = (v.conformsToShape c' o).isOk) ↔
      TiesAgree o a b ∨ ∀ v : Value,
        (v.conformsToShape c o).isOk = false ∧ (v.conformsToShape c' o).isOk = false) ∧
    (TiesSettled o a b → TiesAgree o a b) := by
  refine ⟨fun name => ?_, ⟨fun h => ?_, ?_⟩, fun hties => hties.agree ha hb⟩
  · obtain ⟨-, hmeet⟩ := intersect_eq_ok ha.proper hb.proper hc
    obtain ⟨-, hmeet'⟩ := intersect_eq_ok hb.proper ha.proper hc'
    exact (hmeet name).rel (fun f => ⟨rfl, rfl, .inl rfl⟩) (fun _ _ _ _ _ _ h h' => h.tied h')
      (hmeet' name)
  · by_cases hv : ∃ v : Value, v.conformsToShape c o = .ok ()
    · obtain ⟨v, hv⟩ := hv
      refine .inl (tiesAgree_of_conformsToShape ha.proper hb.proper hc hc' hv fun w => ?_)
      rw [← Outcome.isOk_iff, ← Outcome.isOk_iff, h w]
    · refine .inr fun v => ?_
      have hfail : (v.conformsToShape c o).isOk = false :=
        Bool.eq_false_iff.mpr fun hok => hv ⟨v, Outcome.isOk_iff.mp hok⟩
      exact ⟨hfail, h v ▸ hfail⟩
  · rintro (hties | hnone) v
    · rw [Bool.eq_iff_iff, Outcome.isOk_iff, Outcome.isOk_iff]
      constructor
      · exact hties.conformsToShape ha.proper hb.proper hc hc'
      · exact hties.symm.conformsToShape hb.proper ha.proper hc' hc
    · rw [(hnone v).1, (hnone v).2]

/-- The union of `"carp"` and `string` is tied with `string`, so that in both orders the
second shape is the intersection. A string other than `"carp"` conforms to either. -/
theorem intersect_operand_order_kind :
    let kind (t : Ty) : Shape Ty := ⟨[⟨"kind", false, false, t⟩]⟩
    let a := kind (.union [.literal (.string "carp"), .intrinsic .string])
    let b := kind (.intrinsic .string)
    let v : Value := .object [("kind", .string "pike")]
    a.intersect b {} = .ok b ∧ b.intersect a {} = .ok a ∧ TiesSettled {} a b ∧
      Option.Rel (Field.Tied {}) (b.field? "kind") (a.field? "kind") ∧
      (v.conformsToShape b {}).isOk = (v.conformsToShape a {}).isOk := by
  intro kind a b v
  have hab : a.intersect b {} = .ok b := rfl
  have hba : b.intersect a {} = .ok a := rfl
  have hstring : (Ty.intrinsic .string).Definite := ⟨rfl, rfl, rfl, by simp [Ty.visible]⟩
  have hcarp : (Ty.literal (.string "carp")).Definite := ⟨rfl, rfl, rfl, by simp [Ty.visible]⟩
  have hties : TiesSettled {} a b := by
    intro l hl r hr _ _ _
    rw [List.mem_singleton.mp hl, List.mem_singleton.mp hr]
    exact .inr ⟨⟨rfl, rfl, rfl, by simp [Ty.visible, hcarp, hstring]⟩, hstring⟩
  obtain ⟨hfields, hvalues, hagree⟩ :=
    intersect_operand_order {} (a := a) (b := b) (by decide) (by decide) hab hba
  exact ⟨hab, hba, hties, hfields "kind", hvalues.mpr (.inl (hagree hties)) v⟩

/-- Each of `any` and `string` is assignable to the other, and the second shape decides
which of them a field of the intersection has. -/
theorem intersect_order_shows_in_values :
    ¬ ∀ (o : Options) (a b c c' : Shape Ty) (v : Value), (Ty.shape a).WellFormed →
      (Ty.shape b).WellFormed → a.intersect b o = .ok c → b.intersect a o = .ok c' →
      (v.conformsToShape c o).isOk = (v.conformsToShape c' o).isOk := by
  intro h
  let pair (s t : Ty) : Shape Ty := ⟨[⟨"p", false, false, s⟩, ⟨"q", false, false, t⟩]⟩
  let a := pair (.intrinsic .string) (.intrinsic .any)
  let b := pair (.intrinsic .any) (.intrinsic .string)
  let v : Value := .object [("p", .null), ("q", .string "x")]
  have hab : a.intersect b {} = .ok b := rfl
  have hba : b.intersect a {} = .ok a := rfl
  have hb : (v.conformsToShape b {}).isOk = true := rfl
  have ha : (v.conformsToShape a {}).isOk = false := rfl
  have hsame := h {} a b b a v (by decide) (by decide) hab hba
  rw [hb, ha] at hsame
  cases hsame

-- An optional field that the other type does not have ties them as well.
example :
    let a : Shape Ty := ⟨[⟨"f", false, false, .shape ⟨[]⟩⟩]⟩
    let b : Shape Ty :=
      ⟨[⟨"f", false, false, .shape ⟨[⟨"n", true, false, .intrinsic .number⟩]⟩⟩]⟩
    let v : Value := .object [("f", .object [("n", .string "x")])]
    a.intersect b {} = .ok b ∧ b.intersect a {} = .ok a ∧
      (v.conformsToShape a {}).isOk = true ∧ (v.conformsToShape b {}).isOk = false :=
  ⟨rfl, rfl, rfl, rfl⟩

-- So does an optional parameter.
example :
    let a : Shape Ty := ⟨[⟨"f", false, false, .function ⟨[], .intrinsic .number⟩⟩]⟩
    let b : Shape Ty := ⟨[⟨"f", false, false,
      .function ⟨[⟨0, true, .intrinsic .string⟩], .intrinsic .number⟩⟩]⟩
    let v : Value := .object [("f", .function none 1)]
    a.intersect b {} = .ok b ∧ b.intersect a {} = .ok a ∧
      (v.conformsToShape a {}).isOk = false ∧ (v.conformsToShape b {}).isOk = true :=
  ⟨rfl, rfl, rfl, rfl⟩

end Shape
end ShapeTyping
