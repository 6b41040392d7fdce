import Mathlib.Data.List.Forall2
import Mathlib.Data.List.Perm.Subperm
import ShapeTyping.Proofs.Ty.WellFormed
/-! Structural equality of types is symmetric and transitive. It is reflexive on the
types without a NaN literal, which equals nothing. -/
namespace ShapeTyping.Ty

/-- Equality of types, as a relation. -/
def Equal (s t : Ty) : Prop := s.same t = true

structure FieldAlike (eq : Ty → Ty → Prop) (f g : Field Ty) : Prop where
  optional : f.optional = g.optional
  readonly : f.readonly = g.readonly
  type : eq f.type g.type

structure ParamAlike (eq : Ty → Ty → Prop) (p q : Param Ty) : Prop where
  position : p.position = q.position
  optional : p.optional = q.optional
  type : eq p.type q.type

/-- One level of equality, where `eq` compares the parts. -/
inductive Alike (eq : Ty → Ty → Prop) : Ty → Ty → Prop
  | intrinsic (kind : Intrinsic) : Alike eq (.intrinsic kind) (.intrinsic kind)
  | literal {a b : Literal} (h : a.same b = true) : Alike eq (.literal a) (.literal b)
  | shape {a b : Shape Ty} (length : a.fields.length = b.fields.length)
      (fields : ∀ f ∈ a.fields, ∃ g, b.field? f.name = some g ∧ FieldAlike eq f g) :
      Alike eq (.shape a) (.shape b)
  | union {ss ts : List Ty} (members : List.Forall₂ eq ss ts) : Alike eq (.union ss) (.union ts)
  | function {c d : Signature Ty} (params : List.Forall₂ (ParamAlike eq) c.params d.params)
      (result : eq c.result d.result) : Alike eq (.function c) (.function d)
  | array {s t : Ty} (element : eq s t) : Alike eq (.array s) (.array t)
  | application (name : String) {ss ts : List Ty} (arguments : List.Forall₂ eq ss ts) :
      Alike eq (.application name ss) (.application name ts)

theorem sameList_iff (ss ts : List Ty) :
    sameList ss ts = true ↔ List.Forall₂ Equal ss ts := by
  induction ss generalizing ts with
  | nil => cases ts <;> simp [sameList]
  | cons s ss ih => cases ts <;> simp [sameList, ih, Equal]

theorem sameFields_iff (fs gs : List (Field Ty)) :
    sameFields fs gs = true ↔
      ∀ f ∈ fs, ∃ g, (Shape.mk gs).field? f.name = some g ∧ FieldAlike Equal f g := by
  induction fs with
  | nil => simp [sameFields]
  | cons f fs ih =>
    rw [sameFields, Bool.and_eq_true, ih, List.forall_mem_cons]
    refine and_congr_left fun _ => ?_
    unfold Shape.field?
    cases gs.find? fun g => g.name == f.name with
    | none => simp
    | some g =>
      simp only [Bool.and_eq_true, beq_iff_eq, Option.some.injEq, exists_eq_left']
      constructor
      · rintro ⟨⟨ho, hr⟩, ht⟩
        exact ⟨ho, hr, ht⟩
      · rintro ⟨ho, hr, ht⟩
        exact ⟨⟨ho, hr⟩, ht⟩

theorem sameParams_iff (ps qs : List (Param Ty)) :
    sameParams ps qs = true ↔ List.Forall₂ (ParamAlike Equal) ps qs := by
  induction ps generalizing qs with
  | nil => cases qs <;> simp [sameParams]
  | cons p ps ih =>
    cases qs with
    | nil => simp [sameParams]
    | cons q qs =>
      rw [sameParams, Bool.and_eq_true, ih, List.forall₂_cons]
      refine and_congr_left fun _ => ?_
      simp only [Bool.and_eq_true, beq_iff_eq]
      constructor
      · rintro ⟨⟨hp, ho⟩, ht⟩
        exact ⟨hp, ho, ht⟩
      · rintro ⟨hp, ho, ht⟩
        exact ⟨⟨hp, ho⟩, ht⟩

theorem equal_iff {s t : Ty} : s.Equal t ↔ Alike Equal s t := by
  unfold Equal
  constructor
  · intro h
    cases s <;> cases t <;> simp only [same, Bool.false_eq_true] at h
    case intrinsic.intrinsic j k => rw [eq_of_beq h]; exact .intrinsic k
    case literal.literal => exact .literal h
    case shape.shape a b =>
      simp only [Bool.and_eq_true, beq_iff_eq] at h
      exact .shape h.1 ((sameFields_iff _ _).mp h.2)
    case union.union => exact .union ((sameList_iff _ _).mp h)
    case function.function =>
      simp only [Bool.and_eq_true] at h
      exact .function ((sameParams_iff _ _).mp h.1) h.2
    case array.array => exact .array h
    case application.application m ss n ts =>
      simp only [Bool.and_eq_true, beq_iff_eq] at h
      rw [h.1]
      exact .application n ((sameList_iff _ _).mp h.2)
  · intro h
    cases h with
    | intrinsic kind => simp [same]
    | literal h => exact h
    | shape length fields => simp [same, length, (sameFields_iff _ _).mpr fields]
    | union members => exact (sameList_iff _ _).mpr members
    | function params result =>
      simp only [same, Bool.and_eq_true]
      exact ⟨(sameParams_iff _ _).mpr params, result⟩
    | array element => exact element
    | application name arguments => simp [same, (sameList_iff _ _).mpr arguments]

/-! ## Shapes by name -/

section
variable {eq : Ty → Ty → Prop} {a b : Shape Ty}

/-- Since the names of the one shape are distinct and found in the other, of the
same length, neither shape has a name that the other lacks. -/
theorem Alike.names_perm (hd : (a.fields.map (·.name)).Nodup)
    (h : Alike eq (.shape a) (.shape b)) :
    (a.fields.map (·.name)).Perm (b.fields.map (·.name)) := by
  cases h with
  | shape length fields =>
    have hsub : a.fields.map (·.name) ⊆ b.fields.map (·.name) := by
      intro name hn
      obtain ⟨f, hf, rfl⟩ := List.mem_map.mp hn
      obtain ⟨g, hg, -⟩ := fields f hf
      obtain ⟨hm, hn⟩ := Shape.mem_of_field? hg
      exact hn ▸ List.mem_map_of_mem hm
    apply (List.subperm_of_subset hd hsub).perm_of_length_le
    simp only [List.length_map]
    omega

theorem Alike.names_nodup (hd : (a.fields.map (·.name)).Nodup)
    (h : Alike eq (.shape a) (.shape b)) : (b.fields.map (·.name)).Nodup :=
  (h.names_perm hd).nodup_iff.mp hd

/-- Equal shapes have alike fields under every name, or none. -/
theorem Alike.field? (hd : (a.fields.map (·.name)).Nodup)
    (h : Alike eq (.shape a) (.shape b)) (name : String) :
    Option.Rel (FieldAlike eq) (a.field? name) (b.field? name) := by
  cases ha : a.field? name with
  | none =>
    have hb : b.field? name = none := by
      rw [Shape.field?_eq_none_iff] at ha ⊢
      intro g hg hn
      have hm : name ∈ a.fields.map (·.name) :=
        (h.names_perm hd).mem_iff.mpr (hn ▸ List.mem_map_of_mem hg)
      obtain ⟨f, hf, hfn⟩ := List.mem_map.mp hm
      exact ha f hf hfn
    rw [hb]
    exact .none
  | some f =>
    obtain ⟨hf, rfl⟩ := Shape.mem_of_field? ha
    cases h with
    | shape length fields =>
      obtain ⟨g, hg, hfg⟩ := fields f hf
      rw [hg]
      exact .some hfg

theorem Alike.exists_field (hd : (a.fields.map (·.name)).Nodup)
    (h : Alike eq (.shape a) (.shape b)) {g : Field Ty} (hg : g ∈ b.fields) :
    ∃ f, a.field? g.name = some f ∧ FieldAlike eq f g := by
  have hrel := h.field? hd g.name
  rw [Shape.field?_of_mem (h.names_nodup hd) hg] at hrel
  cases hf : a.field? g.name with
  | none => rw [hf] at hrel; cases hrel
  | some f =>
    rw [hf] at hrel
    cases hrel with
    | some hfg => exact ⟨f, rfl, hfg⟩

theorem isSome_eq_of_rel {α β : Type} {R : α → β → Prop} {x? : Option α} {y? : Option β}
    (h : Option.Rel R x? y?) : x?.isSome = y?.isSome := by
  cases h <;> rfl

/-- Shapes are equal if they have alike fields under every name. -/
theorem Alike.of_field? (ha : (a.fields.map (·.name)).Nodup) (hb : (b.fields.map (·.name)).Nodup)
    (h : ∀ name, Option.Rel (FieldAlike eq) (a.field? name) (b.field? name)) :
    Alike eq (.shape a) (.shape b) := by
  have hnames : ∀ name, name ∈ a.fields.map (·.name) ↔ name ∈ b.fields.map (·.name) := by
    intro name
    rw [← Shape.isSome_field?_iff, ← Shape.isSome_field?_iff, isSome_eq_of_rel (h name)]
  refine .shape ?_ fun f hf => ?_
  · simpa using ((List.perm_ext_iff_of_nodup ha hb).mpr hnames).length_eq
  · have hrel := h f.name
    rw [Shape.field?_of_mem ha hf] at hrel
    cases hg : b.field? f.name with
    | none => rw [hg] at hrel; cases hrel
    | some g =>
      rw [hg] at hrel
      cases hrel with
      | some hfg => exact ⟨g, rfl, hfg⟩

end

/-! ## Symmetry and transitivity -/

theorem forall₂_exists {α β : Type} {R : α → β → Prop} {xs : List α} {ys : List β} {x : α}
    (h : List.Forall₂ R xs ys) (hx : x ∈ xs) : ∃ y ∈ ys, R x y := by
  induction h with
  | nil => cases hx
  | cons hxy _ ih =>
    rcases List.mem_cons.mp hx with rfl | hx
    · exact ⟨_, List.mem_cons_self .., hxy⟩
    · obtain ⟨y, hy, hxy⟩ := ih hx
      exact ⟨y, List.mem_cons_of_mem _ hy, hxy⟩

theorem forall₂_flip {α : Type} {R S : α → α → Prop} {xs ys : List α}
    (h : ∀ x ∈ xs, ∀ y, R x y → S y x) (hr : List.Forall₂ R xs ys) : List.Forall₂ S ys xs := by
  induction hr with
  | nil => exact .nil
  | cons hxy _ ih =>
    exact .cons (h _ (List.mem_cons_self ..) _ hxy)
      (ih fun x hx y => h x (List.mem_cons_of_mem _ hx) y)

theorem forall₂_comp {α : Type} {R S T : α → α → Prop} {xs ys zs : List α}
    (h : ∀ x ∈ xs, ∀ y ∈ ys, ∀ z ∈ zs, R x y → S y z → T x z) (hr : List.Forall₂ R xs ys)
    (hs : List.Forall₂ S ys zs) : List.Forall₂ T xs zs := by
  induction hr generalizing zs with
  | nil => cases hs; exact .nil
  | cons hxy _ ih =>
    cases hs with
    | cons hyz hs =>
      refine .cons (h _ (List.mem_cons_self ..) _ (List.mem_cons_self ..) _
        (List.mem_cons_self ..) hxy hyz) (ih (fun x hx y hy z hz => ?_) hs)
      exact h x (List.mem_cons_of_mem _ hx) y (List.mem_cons_of_mem _ hy) z
        (List.mem_cons_of_mem _ hz)

theorem Equal.symm {s t : Ty} (hs : s.WellFormed) (h : s.Equal t) : t.Equal s := by
  induction s generalizing t with
  | intrinsic kind => cases equal_iff.mp h; exact h
  | literal value =>
    cases equal_iff.mp h with
    | literal h => exact equal_iff.mpr (.literal (by rw [Literal.same_comm]; exact h))
  | shape a ih =>
    cases ha : equal_iff.mp h with
    | @shape _ b length fields =>
      refine equal_iff.mpr (.shape length.symm fun g hg => ?_)
      obtain ⟨f, hf, hfg⟩ := (equal_iff.mp h).exists_field hs.proper hg
      have hm := (Shape.mem_of_field? hf).1
      exact ⟨f, hf, hfg.optional.symm, hfg.readonly.symm,
        ih f hm (hs.part (field_mem_parts hm)) hfg.type⟩
  | union ss ih =>
    cases equal_iff.mp h with
    | union members =>
      refine equal_iff.mpr (.union (forall₂_flip (fun s hm t hst => ?_) members))
      exact ih s hm (hs.part (member_mem_parts hm)) hst
  | function c ihp ihr =>
    cases equal_iff.mp h with
    | function params result =>
      refine equal_iff.mpr (.function (forall₂_flip (fun p hm q hpq => ?_) params) ?_)
      · exact ⟨hpq.position.symm, hpq.optional.symm,
          ihp p hm (hs.part (param_mem_parts hm)) hpq.type⟩
      · exact ihr (hs.part (result_mem_parts c)) result
  | array element ih =>
    cases equal_iff.mp h with
    | array h => exact equal_iff.mpr (.array (ih (hs.part (element_mem_parts _)) h))
  | application name ss ih =>
    cases equal_iff.mp h with
    | application _ arguments =>
      refine equal_iff.mpr (.application name (forall₂_flip (fun s hm t hst => ?_) arguments))
      exact ih s hm (hs.part (argument_mem_parts name hm)) hst

theorem Equal.trans {s t u : Ty} (hst : s.Equal t) (htu : t.Equal u) : s.Equal u := by
  induction s generalizing t u with
  | intrinsic kind => cases equal_iff.mp hst; exact htu
  | literal value =>
    cases equal_iff.mp hst with
    | literal h =>
      cases equal_iff.mp htu with
      | literal k => exact equal_iff.mpr (.literal (Literal.same_trans h k))
  | shape a ih =>
    cases equal_iff.mp hst with
    | shape length fields =>
      cases equal_iff.mp htu with
      | shape length' fields' =>
        refine equal_iff.mpr (.shape (length.trans length') fun f hf => ?_)
        obtain ⟨g, hg, hfg⟩ := fields f hf
        obtain ⟨hgm, hgn⟩ := Shape.mem_of_field? hg
        obtain ⟨k, hk, hgk⟩ := fields' g hgm
        exact ⟨k, hgn ▸ hk, hfg.optional.trans hgk.optional, hfg.readonly.trans hgk.readonly,
          ih f hf hfg.type hgk.type⟩
  | union ss ih =>
    cases equal_iff.mp hst with
    | union members =>
      cases equal_iff.mp htu with
      | union members' =>
        refine equal_iff.mpr (.union (forall₂_comp (fun s hm t _ u _ hst htu => ?_)
          members members'))
        exact ih s hm hst htu
  | function c ihp ihr =>
    cases equal_iff.mp hst with
    | function params result =>
      cases equal_iff.mp htu with
      | function params' result' =>
        refine equal_iff.mpr (.function (forall₂_comp (fun p hm q _ r _ hpq hqr => ?_)
          params params') (ihr result result'))
        exact ⟨hpq.position.trans hqr.position, hpq.optional.trans hqr.optional,
          ihp p hm hpq.type hqr.type⟩
  | array element ih =>
    cases equal_iff.mp hst with
    | array h =>
      cases equal_iff.mp htu with
      | array k => exact equal_iff.mpr (.array (ih h k))
  | application name ss ih =>
    cases equal_iff.mp hst with
    | application _ arguments =>
      cases equal_iff.mp htu with
      | application _ arguments' =>
        refine equal_iff.mpr (.application name
          (forall₂_comp (fun s hm t _ u _ hst htu => ?_) arguments arguments'))
        exact ih s hm hst htu

/-! ## Reflexivity and order -/

theorem equal_self_iff_parts {t : Ty} (ht : t.Proper) :
    t.Equal t ↔ t.isNaN = false ∧ ∀ u ∈ Nested.parts t, u.Equal u := by
  rw [equal_iff]
  cases t with
  | intrinsic kind => exact iff_of_true (.intrinsic kind) ⟨rfl, nofun⟩
  | literal value =>
    have hparts : ∀ u ∈ Nested.parts (Ty.literal value), u.Equal u := nofun
    constructor
    · intro h
      cases h with
      | literal h =>
        refine ⟨?_, hparts⟩
        cases value with
        | number x => simpa [isNaN, Literal.same, Number.same_self] using h
        | _ => rfl
    · rintro ⟨h, -⟩
      refine .literal ?_
      cases value with
      | number x => simpa [isNaN, Literal.same, Number.same_self] using h
      | _ => simp [Literal.same]
  | shape s =>
    constructor
    · intro h
      refine ⟨rfl, fun u hu => ?_⟩
      obtain ⟨f, hf, rfl⟩ := List.mem_map.mp hu
      obtain ⟨g, hg, hgf⟩ := h.exists_field ht hf
      rw [Shape.field?_of_mem ht hf] at hg
      cases hg
      exact hgf.type
    · rintro ⟨-, h⟩
      refine .shape rfl fun f hf => ⟨f, Shape.field?_of_mem ht hf, rfl, rfl, ?_⟩
      exact h _ (field_mem_parts hf)
  | union ts =>
    constructor
    · intro h
      cases h with
      | union members => exact ⟨rfl, List.forall₂_same.mp members⟩
    · exact fun h => .union (List.forall₂_same.mpr h.2)
  | function s =>
    constructor
    · intro h
      cases h with
      | function params result =>
        refine ⟨rfl, fun u hu => ?_⟩
        rcases List.mem_append.mp hu with hu | hu
        · obtain ⟨p, hp, rfl⟩ := List.mem_map.mp hu
          exact (List.forall₂_same.mp params p hp).type
        · rw [List.mem_singleton.mp hu]
          exact result
    · rintro ⟨-, h⟩
      refine .function (List.forall₂_same.mpr fun p hp => ⟨rfl, rfl, ?_⟩) (h _ (result_mem_parts s))
      exact h _ (param_mem_parts hp)
  | array u =>
    constructor
    · intro h
      cases h with
      | array h => exact ⟨rfl, List.forall_mem_singleton.mpr h⟩
    · exact fun h => .array (h.2 u (element_mem_parts u))
  | application name ts =>
    constructor
    · intro h
      cases h with
      | application _ arguments => exact ⟨rfl, List.forall₂_same.mp arguments⟩
    · exact fun h => .application name (List.forall₂_same.mpr h.2)

theorem equal_self_iff {t : Ty} (ht : t.WellFormed) : t.Equal t ↔ Nested.Free isNaN t :=
  Nested.iff_free (p := fun u => u.Equal u) (fun _ h => equal_self_iff_parts h) ht

theorem same_shape_perm {fs gs : List (Field Ty)} (h : fs.Perm gs) (t : Ty) :
    (Ty.shape ⟨fs⟩).same t = (Ty.shape ⟨gs⟩).same t := by
  cases t with
  | shape s =>
    rw [same, same, h.length_eq, Bool.eq_iff_iff, Bool.and_eq_true, Bool.and_eq_true,
      sameFields_iff, sameFields_iff]
    simp only [h.mem_iff]
  | _ => rfl

end ShapeTyping.Ty
