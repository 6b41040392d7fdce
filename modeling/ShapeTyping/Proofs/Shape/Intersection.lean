import Mathlib.Data.List.Find
import ShapeTyping.Proofs.Assignability.Inversion
import ShapeTyping.Proofs.Outcome
import ShapeTyping.Shape.Derived
/-! The intersection of two shapes, read by name. It is the greatest shape that is
assignable to both, and there is one unless some field of both has two types that
cannot be told which is the narrower. -/
namespace ShapeTyping

open Assignability (Holds Serves walk verdict holds_walk_of_equal holds_walk_mono
  holds_walk_zero_iff holds_walk_succ_iff holds_walk_shape_iff)

/-! ## Two fields of one name -/

namespace Field

/-- Neither of two types is assignable to the other. -/
def conflicts (o : Options) (l r : Field Ty) : Bool :=
  !r.type.isAssignable l.type o && !l.type.isAssignable r.type o

theorem conflicts_comm (o : Options) (l r : Field Ty) : l.conflicts o r = r.conflicts o l :=
  Bool.and_comm ..

/-- Names apart, the field `f` is the narrower of two. -/
structure IsMeet (o : Options) (l r f : Field Ty) : Prop where
  optional : f.optional = (l.optional && r.optional)
  readonly : f.readonly = (l.readonly || r.readonly)
  type : (f.type = r.type ∧ r.type.isAssignable l.type o = true) ∨
    (f.type = l.type ∧ l.type.isAssignable r.type o = true)

theorem IsMeet.symm {o : Options} {l r f : Field Ty} (h : l.IsMeet o r f) : r.IsMeet o l f :=
  ⟨h.optional.trans (Bool.and_comm ..), h.readonly.trans (Bool.or_comm ..), h.type.symm⟩

theorem meet_of_conflicts {o : Options} {l r : Field Ty} (h : l.conflicts o r = true) :
    l.meet o r = .error (.conflictingField r.name) := by
  rw [conflicts, Bool.and_eq_true, Bool.not_eq_true', Bool.not_eq_true'] at h
  simp [meet, h.1, h.2]

theorem exists_meet {o : Options} {l r : Field Ty} (h : l.conflicts o r = false) :
    ∃ f, l.meet o r = .ok f ∧ f.name = l.name ∧ l.IsMeet o r f := by
  by_cases hr : r.type.isAssignable l.type o = true
  · exact ⟨_, if_pos hr, rfl, rfl, rfl, .inl ⟨rfl, hr⟩⟩
  · have hl : l.type.isAssignable r.type o = true := by simpa [conflicts, hr] using h
    exact ⟨_, (if_neg hr).trans (if_pos hl), rfl, rfl, rfl, .inr ⟨rfl, hl⟩⟩

end Field

/-- What the intersection has under a name, from what the two shapes have there. -/
inductive MeetAt (o : Options) :
    Option (Field Ty) → Option (Field Ty) → Option (Field Ty) → Prop
  | neither : MeetAt o none none none
  | left (l : Field Ty) : MeetAt o (some l) none (some l)
  | right (r : Field Ty) : MeetAt o none (some r) (some r)
  | both {l r f : Field Ty} (h : l.IsMeet o r f) : MeetAt o (some l) (some r) (some f)

theorem MeetAt.symm {o : Options} {l? r? f? : Option (Field Ty)} (h : MeetAt o l? r? f?) :
    MeetAt o r? l? f? := by
  cases h with
  | neither => exact .neither
  | left l => exact .right l
  | right r => exact .left r
  | both h => exact .both h.symm

theorem MeetAt.eq_left {o : Options} {l? f? : Option (Field Ty)} (h : MeetAt o l? none f?) :
    f? = l? := by
  cases h <;> rfl

namespace Shape

/-- A field does not go together with the field of its name. -/
def clashes (o : Options) (s : Shape Ty) (r : Field Ty) : Bool :=
  (s.field? r.name).any fun l => l.conflicts o r

theorem field?_cons (f : Field Ty) (fs : List (Field Ty)) (name : String) :
    (Shape.mk (f :: fs)).field? name =
      if f.name = name then some f else (Shape.mk fs).field? name := by
  unfold field?
  by_cases h : f.name = name <;> simp [h]

theorem field?_eq_none_of_not_mem {s : Shape Ty} {name : String}
    (h : name ∉ s.fields.map (·.name)) : s.field? name = none :=
  field?_eq_none_iff.mpr fun _ hf hn => h (hn ▸ List.mem_map_of_mem hf)

/-! ## Bringing in one field -/

/-- The fields `fs` are the fields `ls` with `r` brought in. -/
structure BroughtIn (o : Options) (r : Field Ty) (ls fs : List (Field Ty)) : Prop where
  here : MeetAt o ((Shape.mk ls).field? r.name) (some r) ((Shape.mk fs).field? r.name)
  elsewhere : ∀ name, name ≠ r.name → (Shape.mk fs).field? name = (Shape.mk ls).field? name
  names : fs.map (·.name) =
    if r.name ∈ ls.map (·.name) then ls.map (·.name) else ls.map (·.name) ++ [r.name]

variable {o : Options} {r : Field Ty} {ls fs : List (Field Ty)}

theorem meetIn_of_clashes (h : clashes o ⟨ls⟩ r = true) :
    r.meetIn o ls = .error (.conflictingField r.name) := by
  unfold clashes at h
  induction ls with
  | nil => cases h
  | cons l ls ih =>
    rw [field?_cons] at h
    by_cases hn : l.name = r.name
    · rw [if_pos hn] at h
      simp [Field.meetIn, hn, Field.meet_of_conflicts h, bind, Except.bind]
    · rw [if_neg hn] at h
      simp [Field.meetIn, hn, ih h, bind, Except.bind]

theorem exists_meetIn (h : clashes o ⟨ls⟩ r = false) :
    ∃ fs, r.meetIn o ls = .ok fs ∧ BroughtIn o r ls fs := by
  unfold clashes at h
  induction ls with
  | nil =>
    refine ⟨[r], rfl, ?_, fun name hne => ?_, rfl⟩
    · rw [field?_cons, if_pos rfl]
      exact .right r
    · rw [field?_cons, if_neg hne.symm]
  | cons l ls ih =>
    rw [field?_cons] at h
    by_cases hn : l.name = r.name
    · rw [if_pos hn] at h
      obtain ⟨f, hf, hfl, hmeet⟩ := Field.exists_meet h
      have hfn : f.name = r.name := hfl.trans hn
      refine ⟨f :: ls, by simp [Field.meetIn, hn, hf, bind, Except.bind, pure, Except.pure],
        ?_, fun name hne => ?_, ?_⟩
      · rw [field?_cons, if_pos hn, field?_cons, if_pos hfn]
        exact .both hmeet
      · rw [field?_cons, if_neg (hfn ▸ hne.symm), field?_cons, if_neg (hn ▸ hne.symm)]
      · simp [hn, hfn]
    · rw [if_neg hn] at h
      obtain ⟨fs, hfs, hbrought⟩ := ih h
      refine ⟨l :: fs, by simp [Field.meetIn, hn, hfs, bind, Except.bind, pure, Except.pure],
        ?_, fun name hne => ?_, ?_⟩
      · rw [field?_cons, if_neg hn, field?_cons, if_neg hn]
        exact hbrought.here
      · rw [field?_cons, field?_cons, hbrought.elsewhere name hne]
      · have hne : ¬ r.name = l.name := fun h => hn h.symm
        simp only [List.map_cons, hbrought.names, List.mem_cons, hne, false_or]
        split <;> rfl

theorem broughtIn_of_meetIn (h : r.meetIn o ls = .ok fs) : BroughtIn o r ls fs := by
  have hc : clashes o ⟨ls⟩ r = false := by
    rw [Bool.eq_false_iff]
    intro hc
    rw [meetIn_of_clashes hc] at h
    cases h
  obtain ⟨fs', hfs', hbrought⟩ := exists_meetIn hc
  obtain rfl : fs' = fs := Except.ok.inj (hfs'.symm.trans h)
  exact hbrought

/-- The type that is brought in is taken whenever it is assignable to the one there. -/
theorem type_of_meetIn {l : Field Ty} (h : r.meetIn o ls = .ok fs)
    (hl : (Shape.mk ls).field? r.name = some l) (hrl : r.type.isAssignable l.type o = true) :
    ∃ f, (Shape.mk fs).field? r.name = some f ∧ f.type = r.type := by
  induction ls generalizing fs with
  | nil => cases hl
  | cons l' ls ih =>
    rw [field?_cons] at hl
    by_cases hn : l'.name = r.name
    · rw [if_pos hn] at hl
      cases hl
      rw [Field.meetIn, if_pos (beq_iff_eq.mpr hn), Field.meet, if_pos hrl] at h
      obtain rfl := Outcome.pure_eq_ok.mp h
      rw [field?_cons, if_pos hn]
      exact ⟨_, rfl, rfl⟩
    · rw [if_neg hn] at hl
      rw [Field.meetIn, if_neg (mt beq_iff_eq.mp hn)] at h
      obtain ⟨fs', hfs', hcons⟩ := Outcome.bind_eq_ok.mp h
      obtain rfl := Outcome.pure_eq_ok.mp hcons
      rw [field?_cons, if_neg hn]
      exact ih hfs' hl

theorem BroughtIn.nodup (h : BroughtIn o r ls fs) (hd : (ls.map (·.name)).Nodup) :
    (fs.map (·.name)).Nodup := by
  rw [h.names]
  split
  next => exact hd
  next hn => exact hd.append (List.nodup_singleton _) (List.disjoint_singleton.mpr hn)

/-- A field of another name clashes with what was there before or not at all. -/
theorem BroughtIn.clashes_eq (h : BroughtIn o r ls fs) {g : Field Ty} (hg : g.name ≠ r.name) :
    clashes o ⟨fs⟩ g = clashes o ⟨ls⟩ g := by
  unfold clashes
  rw [h.elsewhere g.name hg]

/-! ## Bringing in all fields -/

section
variable {rs : List (Field Ty)} (hd : (rs.map (·.name)).Nodup)
include hd

theorem foldlM_meetIn_eq_error_iff {e : SchemaError} :
    rs.foldlM (fun fields r => r.meetIn o fields) ls = .error e ↔
      ∃ r, rs.find? (clashes o ⟨ls⟩) = some r ∧ e = .conflictingField r.name := by
  induction rs generalizing ls with
  | nil => exact ⟨nofun, nofun⟩
  | cons r rs ih =>
    rw [List.map_cons, List.nodup_cons] at hd
    rw [List.foldlM_cons, List.find?_cons]
    cases hc : clashes o ⟨ls⟩ r with
    | true =>
      rw [meetIn_of_clashes hc]
      simp [bind, Except.bind, eq_comm]
    | false =>
      obtain ⟨fs, hfs, hbrought⟩ := exists_meetIn hc
      have hfind : rs.find? (clashes o ⟨fs⟩) = rs.find? (clashes o ⟨ls⟩) := by
        refine List.find?_congr fun g hg => hbrought.clashes_eq fun hn => ?_
        exact hd.1 (hn ▸ List.mem_map_of_mem hg)
      rw [hfs, ← hfind]
      exact ih hd.2

theorem foldlM_meetIn_eq_ok (hl : (ls.map (·.name)).Nodup)
    (h : rs.foldlM (fun fields r => r.meetIn o fields) ls = .ok fs) :
    (fs.map (·.name)).Nodup ∧ ∀ name,
      MeetAt o ((Shape.mk ls).field? name) ((Shape.mk rs).field? name)
        ((Shape.mk fs).field? name) := by
  induction rs generalizing ls with
  | nil =>
    obtain rfl := Outcome.pure_eq_ok.mp h
    refine ⟨hl, fun name => ?_⟩
    cases (Shape.mk fs).field? name with
    | none => exact .neither
    | some l => exact .left l
  | cons r rs ih =>
    rw [List.map_cons, List.nodup_cons] at hd
    rw [List.foldlM_cons] at h
    obtain ⟨ms, hms, hrest⟩ := Outcome.bind_eq_ok.mp h
    have hbrought := broughtIn_of_meetIn hms
    obtain ⟨hnodup, hmeet⟩ := ih hd.2 (hbrought.nodup hl) hrest
    refine ⟨hnodup, fun name => ?_⟩
    rw [field?_cons]
    by_cases hn : r.name = name
    · subst hn
      have hlast := hmeet r.name
      rw [field?_eq_none_of_not_mem hd.1] at hlast
      rw [if_pos rfl, hlast.eq_left]
      exact hbrought.here
    · rw [if_neg hn, ← hbrought.elsewhere name (Ne.symm hn)]
      exact hmeet name

theorem type_of_foldlM_meetIn (hl : (ls.map (·.name)).Nodup)
    (h : rs.foldlM (fun fields r => r.meetIn o fields) ls = .ok fs) {l : Field Ty} (hr : r ∈ rs)
    (hlr : (Shape.mk ls).field? r.name = some l) (hbelow : r.type.isAssignable l.type o = true) :
    ∃ f, (Shape.mk fs).field? r.name = some f ∧ f.type = r.type := by
  induction rs generalizing ls with
  | nil => cases hr
  | cons r' rs ih =>
    rw [List.map_cons, List.nodup_cons] at hd
    rw [List.foldlM_cons] at h
    obtain ⟨ms, hms, hrest⟩ := Outcome.bind_eq_ok.mp h
    have hbrought := broughtIn_of_meetIn hms
    rcases List.mem_cons.mp hr with rfl | hr
    · -- No later field has its name.
      have hlast := (foldlM_meetIn_eq_ok hd.2 (hbrought.nodup hl) hrest).2 r.name
      rw [field?_eq_none_of_not_mem hd.1] at hlast
      rw [hlast.eq_left]
      exact type_of_meetIn hms hlr hbelow
    · have hn : r.name ≠ r'.name := fun hn => hd.1 (hn ▸ List.mem_map_of_mem hr)
      rw [← hbrought.elsewhere r.name hn] at hlr
      exact ih hd.2 (hbrought.nodup hl) hrest hr hlr

end

theorem intersect_eq_error_iff {a b : Shape Ty} (hb : (b.fields.map (·.name)).Nodup)
    {e : SchemaError} :
    a.intersect b o = .error e ↔
      ∃ r, b.fields.find? (a.clashes o) = some r ∧ e = .conflictingField r.name := by
  rw [← foldlM_meetIn_eq_error_iff hb, intersect]
  cases b.fields.foldlM (fun fields r => r.meetIn o fields) a.fields with
  | error e' => exact ⟨fun | rfl => rfl, fun | rfl => rfl⟩
  | ok fs => exact ⟨nofun, nofun⟩

theorem intersect_eq_ok {a b c : Shape Ty} (ha : (a.fields.map (·.name)).Nodup)
    (hb : (b.fields.map (·.name)).Nodup) (h : a.intersect b o = .ok c) :
    (c.fields.map (·.name)).Nodup ∧
      ∀ name, MeetAt o (a.field? name) (b.field? name) (c.field? name) := by
  obtain ⟨fs, hfs, hc⟩ := Outcome.bind_eq_ok.mp h
  obtain rfl := Outcome.pure_eq_ok.mp hc
  exact foldlM_meetIn_eq_ok hb ha hfs

/-- Of two types the second one is taken if it is assignable to the first. -/
theorem type_of_intersect {a b c : Shape Ty} (ha : (a.fields.map (·.name)).Nodup)
    (hb : (b.fields.map (·.name)).Nodup) (h : a.intersect b o = .ok c) {l : Field Ty}
    (hr : r ∈ b.fields) (hl : a.field? r.name = some l)
    (hrl : r.type.isAssignable l.type o = true) :
    ∃ f, c.field? r.name = some f ∧ f.type = r.type := by
  obtain ⟨fs, hfs, hc⟩ := Outcome.bind_eq_ok.mp h
  obtain rfl := Outcome.pure_eq_ok.mp hc
  exact type_of_foldlM_meetIn hb ha hfs hr hl hrl

/-- Two shapes have a field of one name each whose types conflict. -/
def Conflicting (o : Options) (a b : Shape Ty) : Prop :=
  ∃ l ∈ a.fields, ∃ r ∈ b.fields, l.name = r.name ∧ l.conflicts o r = true

theorem Conflicting.symm {a b : Shape Ty} (h : Conflicting o a b) : Conflicting o b a := by
  obtain ⟨l, hl, r, hr, hn, hlr⟩ := h
  exact ⟨r, hr, l, hl, hn.symm, Field.conflicts_comm o l r ▸ hlr⟩

theorem exists_clashes_iff {a b : Shape Ty} (ha : (a.fields.map (·.name)).Nodup) :
    (∃ r ∈ b.fields, a.clashes o r = true) ↔ Conflicting o a b := by
  constructor
  · rintro ⟨r, hr, hclash⟩
    obtain ⟨l, hl, hlr⟩ := (Option.any_eq_true ..).mp hclash
    obtain ⟨hlm, hln⟩ := mem_of_field? hl
    exact ⟨l, hlm, r, hr, hln, hlr⟩
  · rintro ⟨l, hl, r, hr, hn, hlr⟩
    refine ⟨r, hr, ?_⟩
    rw [clashes, ← hn, field?_of_mem ha hl]
    exact hlr

theorem intersect_fails_iff {a b : Shape Ty} (ha : (a.fields.map (·.name)).Nodup)
    (hb : (b.fields.map (·.name)).Nodup) :
    (∃ e, a.intersect b o = .error e) ↔ Conflicting o a b := by
  rw [← exists_clashes_iff ha, ← List.find?_isSome, Option.isSome_iff_exists]
  constructor
  · rintro ⟨e, he⟩
    obtain ⟨r, hr, -⟩ := (intersect_eq_error_iff hb).mp he
    exact ⟨r, hr⟩
  · rintro ⟨r, hr⟩
    exact ⟨_, (intersect_eq_error_iff hb).mpr ⟨r, hr, rfl⟩⟩

end Shape

/-! ## A lower bound -/

section
variable {o : Options} {l? r? f? : Option (Field Ty)}

theorem MeetAt.serves_left {l : Field Ty} (hl : l.type.Equal l.type)
    (h : MeetAt o (some l) r? f?) : Serves (Holds (verdict o)) l f? := by
  cases h with
  | left => exact .present id (holds_walk_of_equal hl)
  | both h =>
    refine .present (fun ho => ?_) ?_
    · rw [h.optional, Bool.and_eq_true] at ho
      exact ho.1
    · rcases h.type with ⟨htype, hbelow⟩ | ⟨htype, -⟩
      · rw [htype]
        exact hbelow
      · rw [htype]
        exact holds_walk_of_equal hl

/-- The fields were compared with all levels, so that the shapes need one more. A field
of one shape alone is compared with itself, for which it must not have a NaN. -/
theorem Shape.isAssignable_of_meetAt {a b c : Shape Ty} (ha : (Ty.shape a).WellFormed)
    (hnan : Nested.Free Ty.isNaN (.shape a))
    (hmeet : ∀ name, MeetAt o (a.field? name) (b.field? name) (c.field? name)) :
    (Ty.shape c).isAssignable (.shape a) { o with maxDepth := o.maxDepth + 1 } = true := by
  have ho : o.AtMost { o with maxDepth := o.maxDepth + 1 } :=
    ⟨id, Nat.le_refl _, id, Nat.le_succ _⟩
  refine holds_walk_succ_iff.mpr (.inr (.shape fun g hg => ?_))
  have hpart := Ty.field_mem_parts hg
  have hself : g.type.Equal g.type := (Ty.equal_self_iff (ha.part hpart)).mpr (hnan.part hpart)
  have hm := hmeet g.name
  rw [Shape.field?_of_mem ha.proper hg] at hm
  exact (hm.serves_left hself).imp fun _ _ => holds_walk_mono ho (Nat.le_refl _)

/-! ## The greatest one -/

theorem MeetAt.serves {below : Ty → Ty → Prop} {f : Field Ty} {x? : Option (Field Ty)}
    (h : MeetAt o l? r? (some f)) (hl : ∀ l, l? = some l → Serves below l x?)
    (hr : ∀ r, r? = some r → Serves below r x?) : Serves below f x? := by
  cases h with
  | left => exact hl f rfl
  | right => exact hr f rfl
  | @both l r _ h =>
    have hl := hl l rfl
    have hr := hr r rfl
    cases hl with
    | absent hlo =>
      cases hr with
      | absent hro => exact .absent (by rw [h.optional, hlo, hro]; rfl)
    | present hlo hlt =>
      cases hr with
      | present hro hrt =>
        refine .present (fun ho => by rw [h.optional, hlo ho, hro ho]; rfl) ?_
        rcases h.type with ⟨htype, -⟩ | ⟨htype, -⟩
        · rw [htype]
          exact hrt
        · rw [htype]
          exact hlt

theorem Field.IsMeet.alike {x l r f : Field Ty} (h : l.IsMeet o r f)
    (hl : Ty.FieldAlike Ty.Equal x l) (hr : Ty.FieldAlike Ty.Equal x r) :
    Ty.FieldAlike Ty.Equal x f := by
  refine ⟨?_, ?_, ?_⟩
  · rw [h.optional, ← hl.optional, ← hr.optional, Bool.and_self]
  · rw [h.readonly, ← hl.readonly, ← hr.readonly, Bool.or_self]
  · rcases h.type with ⟨htype, -⟩ | ⟨htype, -⟩
    · rw [htype]
      exact hr.type
    · rw [htype]
      exact hl.type

theorem MeetAt.alike {x? : Option (Field Ty)} (h : MeetAt o l? r? f?)
    (hl : Option.Rel (Ty.FieldAlike Ty.Equal) x? l?)
    (hr : Option.Rel (Ty.FieldAlike Ty.Equal) x? r?) :
    Option.Rel (Ty.FieldAlike Ty.Equal) x? f? := by
  cases h with
  | neither => exact hl
  | left => cases hl; cases hr
  | right => cases hl; cases hr
  | both h =>
    cases hl with
    | some hl =>
      cases hr with
      | some hr => exact .some (h.alike hl hr)

end

namespace Shape

variable {o : Options} {a b c d : Shape Ty}

/-- With any number of levels: without one, only equal shapes are assignable. -/
theorem holds_walk_of_meetAt {n : Nat} (hc : (c.fields.map (·.name)).Nodup)
    (hmeet : ∀ name, MeetAt o (a.field? name) (b.field? name) (c.field? name))
    (hd : (Ty.shape d).WellFormed) (ha : Holds (walk o n) (.shape d) (.shape a))
    (hb : Holds (walk o n) (.shape d) (.shape b)) : Holds (walk o n) (.shape d) (.shape c) := by
  cases n with
  | zero =>
    have hda := Ty.equal_iff.mp (holds_walk_zero_iff.mp ha)
    have hdb := Ty.equal_iff.mp (holds_walk_zero_iff.mp hb)
    refine holds_walk_zero_iff.mpr (Ty.equal_iff.mpr (.of_field? hd.proper hc fun name => ?_))
    exact (hmeet name).alike (hda.field? hd.proper name) (hdb.field? hd.proper name)
  | succ n =>
    rw [holds_walk_shape_iff hd] at ha hb ⊢
    intro f hf
    have hm := hmeet f.name
    rw [field?_of_mem hc hf] at hm
    refine hm.serves (fun l hl => ?_) fun r hr => ?_
    · obtain ⟨hlm, hln⟩ := mem_of_field? hl
      exact hln ▸ ha l hlm
    · obtain ⟨hrm, hrn⟩ := mem_of_field? hr
      exact hrn ▸ hb r hrm

/-- The intersection of two shapes is their greatest lower bound. It is missing just if
a field of both has types of which neither is assignable to the other, and then the
first such field is reported. -/
theorem intersect_greatest_lower_bound (o : Options) {a b : Shape Ty}
    (ha : (Ty.shape a).WellFormed) (hb : (Ty.shape b).WellFormed) :
    ((∃ e, a.intersect b o = .error e) ↔
      ∃ l ∈ a.fields, ∃ r ∈ b.fields, l.name = r.name ∧ l.conflicts o r = true) ∧
    (∀ e, a.intersect b o = .error e →
      ∃ r, b.fields.find? (a.clashes o) = some r ∧ e = .conflictingField r.name) ∧
    ((∃ c, a.intersect b o = .ok c) ↔ ∃ c, b.intersect a o = .ok c) ∧
    ∀ c, a.intersect b o = .ok c →
      (Nested.Free Ty.isNaN (.shape a) → Nested.Free Ty.isNaN (.shape b) →
        (Ty.shape c).isAssignable (.shape a) { o with maxDepth := o.maxDepth + 1 } = true ∧
        (Ty.shape c).isAssignable (.shape b) { o with maxDepth := o.maxDepth + 1 } = true) ∧
      ∀ d, (Ty.shape d).WellFormed → (Ty.shape d).isAssignable (.shape a) o = true →
        (Ty.shape d).isAssignable (.shape b) o = true →
        (Ty.shape d).isAssignable (.shape c) o = true := by
  refine ⟨intersect_fails_iff ha.proper hb.proper,
    fun e => (intersect_eq_error_iff hb.proper).mp, ?_, fun c hc => ?_⟩
  · rw [Outcome.exists_ok_iff, Outcome.exists_ok_iff, intersect_fails_iff ha.proper hb.proper,
      intersect_fails_iff hb.proper ha.proper]
    exact not_congr ⟨.symm, .symm⟩
  · obtain ⟨hnodup, hmeet⟩ := intersect_eq_ok ha.proper hb.proper hc
    refine ⟨fun hnan hnan' => ⟨?_, ?_⟩, fun d hd hda hdb => ?_⟩
    · exact isAssignable_of_meetAt ha hnan hmeet
    · exact isAssignable_of_meetAt hb hnan' fun name => (hmeet name).symm
    · exact holds_walk_of_meetAt hnodup hmeet hd hda hdb

/-- The narrower type of one field comes from the left and that of the other from the
right, and only one of the fields stays optional. -/
theorem intersect_greatest_lower_bound_parcel :
    let a : Shape Ty := ⟨[⟨"label", true, false, .intrinsic .string⟩,
      ⟨"weight", true, false, .literal (.number (.zero false))⟩]⟩
    let b : Shape Ty := ⟨[⟨"weight", true, true, .union [.intrinsic .number, .intrinsic .null]⟩,
      ⟨"label", false, false, .literal (.string "fragile")⟩]⟩
    let c : Shape Ty := ⟨[⟨"label", false, false, .literal (.string "fragile")⟩,
      ⟨"weight", true, true, .literal (.number (.zero false))⟩]⟩
    let d : Shape Ty := ⟨[⟨"stamp", false, false, .intrinsic .boolean⟩,
      ⟨"label", false, false, .literal (.string "fragile")⟩]⟩
    a.intersect b {} = .ok c ∧
      (Ty.shape c).isAssignable (.shape a) { maxDepth := 65 } = true ∧
      (Ty.shape c).isAssignable (.shape b) { maxDepth := 65 } = true ∧
      (Ty.shape d).isAssignable (.shape c) {} = true := by
  intro a b c d
  obtain ⟨-, -, -, h⟩ :=
    intersect_greatest_lower_bound {} (a := a) (b := b) (by decide) (by decide)
  have hc : a.intersect b {} = .ok c := rfl
  obtain ⟨hlower, hgreatest⟩ := h c hc
  obtain ⟨hca, hcb⟩ := hlower (by decide) (by decide)
  exact ⟨hc, hca, hcb, hgreatest d (by decide) (by decide) (by decide)⟩

end Shape
end ShapeTyping
