import Mathlib.Data.List.Induction
import ShapeTyping.Proofs.Shape.Intersection
import ShapeTyping.Proofs.Shape.Modification
import ShapeTyping.Shape.Derived
/-! A shape taken apart by a list of names and put together again. The named fields and the rest
have every field between them, each in its own order, and their intersection in either order is
the shape they came from. -/
namespace ShapeTyping.Shape

variable {τ : Type} {s p w : Shape τ} {fs : List (Field τ)} {names : List String}
  {name : String} {e : SchemaError}

/-! ## The first field of each name -/

theorem firstOfEachName_concat (fs : List (Field τ)) (f : Field τ) :
    firstOfEachName (fs ++ [f]) =
      if f.name ∈ (firstOfEachName fs).map (·.name) then firstOfEachName fs
      else firstOfEachName fs ++ [f] := by
  have hkept : ((firstOfEachName fs).any fun k => k.name == f.name) = true ↔
      f.name ∈ (firstOfEachName fs).map (·.name) := by
    simp [List.any_eq_true, List.mem_map]
  unfold firstOfEachName at hkept ⊢
  rw [List.foldl_append, List.foldl_cons, List.foldl_nil]
  simp only [hkept]

theorem mem_of_mem_firstOfEachName {f : Field τ} (h : f ∈ firstOfEachName fs) : f ∈ fs := by
  induction fs using List.reverseRecOn with
  | nil => exact h
  | append_singleton fs g ih =>
    rw [firstOfEachName_concat] at h
    split at h
    next => exact List.mem_append_left _ (ih h)
    next =>
      rcases List.mem_append.mp h with h | h
      · exact List.mem_append_left _ (ih h)
      · exact List.mem_append_right _ h

theorem mem_names_firstOfEachName :
    name ∈ (firstOfEachName fs).map (·.name) ↔ name ∈ fs.map (·.name) := by
  induction fs using List.reverseRecOn with
  | nil => rfl
  | append_singleton fs g ih =>
    rw [firstOfEachName_concat, List.map_append, List.mem_append, ← ih]
    split
    next hg =>
      constructor
      · exact .inl
      · rintro (h | h)
        · exact h
        · rwa [List.mem_singleton.mp h]
    next => rw [List.map_append, List.mem_append]

/-- A field comes before another just if its name does. -/
theorem pairwise_firstOfEachName (fs : List (Field τ)) :
    (firstOfEachName fs).Pairwise fun f g =>
      (fs.map (·.name)).idxOf f.name < (fs.map (·.name)).idxOf g.name := by
  induction fs using List.reverseRecOn with
  | nil => exact .nil
  | append_singleton fs g ih =>
    have hmem : ∀ f ∈ firstOfEachName fs, f.name ∈ fs.map (·.name) := fun f hf =>
      mem_names_firstOfEachName.mp (List.mem_map_of_mem hf)
    -- One more name at the end leaves the earlier ones where they were.
    have hkept : (firstOfEachName fs).Pairwise fun f g' =>
        ((fs ++ [g]).map (·.name)).idxOf f.name < ((fs ++ [g]).map (·.name)).idxOf g'.name := by
      refine ih.imp_of_mem fun {f g'} hf hg' hlt => ?_
      rwa [List.map_append, List.idxOf_append_of_mem (hmem f hf),
        List.idxOf_append_of_mem (hmem g' hg')]
    rw [firstOfEachName_concat]
    split
    next => exact hkept
    next hg =>
      rw [mem_names_firstOfEachName] at hg
      refine List.pairwise_append.mpr ⟨hkept, List.pairwise_singleton .., fun f hf g' hg' => ?_⟩
      obtain rfl := List.mem_singleton.mp hg'
      rw [List.map_append, List.idxOf_append_of_mem (hmem f hf), List.idxOf_append_of_notMem hg]
      have := List.idxOf_lt_length_of_mem (hmem f hf)
      omega

/-! ## The two parts -/

theorem pick_eq_error_iff :
    s.pick names = .error e ↔ ∃ name, names.find? s.Lacks = some name ∧ e = .unknownField name := by
  rw [pick, mapM_getField_then_eq_error_iff, mapM_getField_eq_error_iff]

theorem exists_pick_error_iff :
    (∃ e, s.pick names = .error e) ↔ ∃ name ∈ names, s.Lacks name := by
  simp only [pick, mapM_getField_then_eq_error_iff, exists_mapM_getField_error_iff]

theorem without_eq_error_iff :
    s.without names = .error e ↔
      ∃ name, names.find? s.Lacks = some name ∧ e = .unknownField name := by
  rw [without, mapM_getField_then_eq_error_iff, mapM_getField_eq_error_iff]

theorem exists_without_error_iff :
    (∃ e, s.without names = .error e) ↔ ∃ name ∈ names, s.Lacks name := by
  simp only [without, mapM_getField_then_eq_error_iff, exists_mapM_getField_error_iff]

theorem mapM_getField_eq_ok (h : names.mapM s.getField = .ok fs) :
    fs.map (·.name) = names ∧ ∀ f ∈ fs, f ∈ s.fields := by
  induction names generalizing fs with
  | nil =>
    obtain rfl := Outcome.pure_eq_ok.mp h
    exact ⟨rfl, nofun⟩
  | cons name names ih =>
    rw [List.mapM_cons] at h
    obtain ⟨f, hf, h⟩ := Outcome.bind_eq_ok.mp h
    obtain ⟨gs, hgs, h⟩ := Outcome.bind_eq_ok.mp h
    obtain rfl := Outcome.pure_eq_ok.mp h
    obtain ⟨hnames, hfields⟩ := ih hgs
    have hfound : s.field? name = some f := by
      unfold getField at hf
      cases hfield : s.field? name with
      | none => rw [hfield] at hf; cases hf
      | some g => rw [hfield] at hf; cases hf; rfl
    obtain ⟨hmem, hname⟩ := mem_of_field? hfound
    refine ⟨by rw [List.map_cons, hname, hnames], fun g hg => ?_⟩
    rcases List.mem_cons.mp hg with rfl | hg
    · exact hmem
    · exact hfields g hg

/-- The shape `p` has the named fields of `s` in the order of the names, and `w` the others in
the order of `s`. -/
structure SplitInto (s : Shape τ) (names : List String) (p w : Shape τ) : Prop where
  picked : ∀ f, f ∈ p.fields ↔ f ∈ s.fields ∧ f.name ∈ names
  left : ∀ f, f ∈ w.fields ↔ f ∈ s.fields ∧ f.name ∉ names
  pickedOrder : p.fields.Pairwise fun f g => names.idxOf f.name < names.idxOf g.name
  leftOrder : w.fields.Sublist s.fields

theorem splitInto_pick_without (hd : (s.fields.map (·.name)).Nodup) (hp : s.pick names = .ok p)
    (hw : s.without names = .ok w) : s.SplitInto names p w := by
  obtain ⟨fs, hfs, hp⟩ := Outcome.bind_eq_ok.mp hp
  obtain ⟨_, -, hw⟩ := Outcome.bind_eq_ok.mp hw
  obtain rfl := Outcome.pure_eq_ok.mp hp
  obtain rfl := Outcome.pure_eq_ok.mp hw
  obtain ⟨rfl, hfields⟩ := mapM_getField_eq_ok hfs
  refine ⟨fun f => ⟨fun hf => ?_, fun ⟨hf, hn⟩ => ?_⟩, fun f => by simp [List.mem_filter],
    pairwise_firstOfEachName fs, List.filter_sublist⟩
  · have hmem := mem_of_mem_firstOfEachName hf
    exact ⟨hfields f hmem, List.mem_map_of_mem hmem⟩
  · obtain ⟨g, hg, hgn⟩ := List.mem_map.mp (mem_names_firstOfEachName.mpr hn)
    have hgs : g ∈ s.fields := hfields g (mem_of_mem_firstOfEachName hg)
    rwa [← List.inj_on_of_nodup_map hd hgs hf hgn]

namespace SplitInto

theorem xor (h : s.SplitInto names p w) {f : Field τ} (hf : f ∈ s.fields) :
    Xor (f ∈ p.fields) (f ∈ w.fields) := by
  rw [h.picked, h.left]
  by_cases hn : f.name ∈ names
  · exact .inl ⟨⟨hf, hn⟩, fun hw => hw.2 hn⟩
  · exact .inr ⟨⟨hf, hn⟩, fun hp => hn hp.2⟩

theorem nodup_picked (h : s.SplitInto names p w) : (p.fields.map (·.name)).Nodup := by
  refine List.pairwise_map.mpr (h.pickedOrder.imp fun {f g} hlt hfg => ?_)
  rw [hfg] at hlt
  exact Nat.lt_irrefl _ hlt

theorem nodup_left (h : s.SplitInto names p w) (hd : (s.fields.map (·.name)).Nodup) :
    (w.fields.map (·.name)).Nodup := hd.sublist (h.leftOrder.map _)

theorem disjoint (h : s.SplitInto names p w) :
    List.Disjoint (p.fields.map (·.name)) (w.fields.map (·.name)) := by
  intro name hp hw
  obtain ⟨f, hf, rfl⟩ := List.mem_map.mp hp
  obtain ⟨g, hg, hgn⟩ := List.mem_map.mp hw
  exact ((h.left g).mp hg).2 (hgn ▸ ((h.picked f).mp hf).2)

theorem perm (h : s.SplitInto names p w) (hd : (s.fields.map (·.name)).Nodup) :
    (p.fields ++ w.fields).Perm s.fields := by
  have hboth : ((p.fields ++ w.fields).map (·.name)).Nodup := by
    rw [List.map_append]
    exact h.nodup_picked.append (h.nodup_left hd) h.disjoint
  refine (List.perm_ext_iff_of_nodup hboth.of_map hd.of_map).mpr fun f => ?_
  rw [List.mem_append, h.picked, h.left, ← and_or_left]
  exact and_iff_left (em _)

end SplitInto

/-! ## Putting the parts together -/

/-- The fields of a shape by name do not depend on their order. -/
theorem field?_perm {t : Shape τ} (h : t.fields.Perm s.fields)
    (hd : (s.fields.map (·.name)).Nodup) (name : String) : t.field? name = s.field? name := by
  have hdt : (t.fields.map (·.name)).Nodup := (h.map _).nodup_iff.mpr hd
  apply Option.ext
  intro f
  rw [field?_eq_some_iff hdt, field?_eq_some_iff hd, h.mem_iff]

theorem meetIn_of_not_mem (o : Options) {r : Field Ty} {ls : List (Field Ty)}
    (h : r.name ∉ ls.map (·.name)) : r.meetIn o ls = .ok (ls ++ [r]) := by
  induction ls with
  | nil => rfl
  | cons l ls ih =>
    rw [List.map_cons, List.mem_cons, not_or] at h
    rw [Field.meetIn, if_neg (by simpa using Ne.symm h.1), ih h.2]
    rfl

theorem foldlM_meetIn_of_disjoint (o : Options) {ls rs : List (Field Ty)}
    (hd : (rs.map (·.name)).Nodup)
    (h : List.Disjoint (ls.map (·.name)) (rs.map (·.name))) :
    rs.foldlM (fun fields r => r.meetIn o fields) ls = .ok (ls ++ rs) := by
  induction rs generalizing ls with
  | nil =>
    rw [List.append_nil]
    rfl
  | cons r rs ih =>
    rw [List.map_cons, List.nodup_cons] at hd
    rw [List.map_cons, List.disjoint_cons_right] at h
    have hrest : List.Disjoint ((ls ++ [r]).map (·.name)) (rs.map (·.name)) := by
      rw [List.map_append, List.disjoint_append_left]
      exact ⟨h.2, List.singleton_disjoint.mpr hd.1⟩
    rw [List.foldlM_cons, meetIn_of_not_mem o h.1]
    exact (ih hd.2 hrest).trans (by rw [List.append_assoc]; rfl)

/-- Shapes without a common name are put one after the other. -/
theorem intersect_of_disjoint (o : Options) {a b : Shape Ty}
    (hb : (b.fields.map (·.name)).Nodup)
    (h : List.Disjoint (a.fields.map (·.name)) (b.fields.map (·.name))) :
    a.intersect b o = .ok ⟨a.fields ++ b.fields⟩ := by
  rw [intersect, foldlM_meetIn_of_disjoint o hb h]
  rfl

/-- The named fields and the rest of a shape are refused alike, at the first name that is none of
its fields. Otherwise they divide its fields between them, and to intersect them, in either order,
gives its fields back. -/
theorem pick_without_divide {s : Shape Ty} (hd : (s.fields.map (·.name)).Nodup)
    (names : List String) (o : Options) :
    ((∃ e, s.pick names = .error e) ↔ ∃ name ∈ names, s.Lacks name) ∧
    ((∃ e, s.without names = .error e) ↔ ∃ name ∈ names, s.Lacks name) ∧
    (∀ e, s.pick names = .error e ∨ s.without names = .error e →
      ∃ name, names.find? s.Lacks = some name ∧ e = .unknownField name) ∧
    ((∀ name ∈ names, ¬ s.Lacks name) →
      ∃ p w, s.pick names = .ok p ∧ s.without names = .ok w ∧
        s.SplitInto names p w ∧ (∀ f ∈ s.fields, Xor (f ∈ p.fields) (f ∈ w.fields)) ∧
        (∃ c, p.intersect w o = .ok c ∧ c.fields.Perm s.fields ∧
          ∀ name, c.field? name = s.field? name) ∧
        ∃ c, w.intersect p o = .ok c ∧ c.fields.Perm s.fields ∧
          ∀ name, c.field? name = s.field? name) := by
  refine ⟨exists_pick_error_iff, exists_without_error_iff, ?_, fun hnames => ?_⟩
  · rintro e (h | h)
    · exact pick_eq_error_iff.mp h
    · exact without_eq_error_iff.mp h
  · have hall : ¬ ∃ name ∈ names, s.Lacks name := fun ⟨name, hname, h⟩ => hnames name hname h
    obtain ⟨p, hp⟩ := Outcome.exists_ok_iff.mpr (mt exists_pick_error_iff.mp hall)
    obtain ⟨w, hw⟩ := Outcome.exists_ok_iff.mpr (mt exists_without_error_iff.mp hall)
    have hsplit := splitInto_pick_without hd hp hw
    have hpw : (p.fields ++ w.fields).Perm s.fields := hsplit.perm hd
    have hwp : (w.fields ++ p.fields).Perm s.fields := List.perm_append_comm.trans hpw
    refine ⟨p, w, hp, hw, hsplit, fun f hf => hsplit.xor hf, ⟨_, ?_, hpw, field?_perm hpw hd⟩,
      ⟨_, ?_, hwp, field?_perm hwp hd⟩⟩
    · exact intersect_of_disjoint o (hsplit.nodup_left hd) hsplit.disjoint
    · exact intersect_of_disjoint o hsplit.nodup_picked (List.disjoint_symm hsplit.disjoint)

/-- Names out of order and repeated, and names of which two are unknown. -/
theorem pick_without_divide_entry :
    let s : Shape Ty := ⟨[⟨"a", true, true, .intrinsic .string⟩,
      ⟨"b", true, false, .intrinsic .number⟩, ⟨"c", false, false, .intrinsic .boolean⟩]⟩
    let p : Shape Ty := ⟨[⟨"c", false, false, .intrinsic .boolean⟩,
      ⟨"a", true, true, .intrinsic .string⟩]⟩
    let w : Shape Ty := ⟨[⟨"b", true, false, .intrinsic .number⟩]⟩
    s.pick ["c", "a", "c"] = .ok p ∧ s.without ["c", "a", "c"] = .ok w ∧
      (∃ c, w.intersect p {} = .ok c ∧ c.fields.Perm s.fields) ∧
      s.pick ["b", "x", "y"] = .error (.unknownField "x") ∧
      s.without ["b", "x", "y"] = .error (.unknownField "x") := by
  intro s p w
  have hd : (s.fields.map (·.name)).Nodup := by decide
  obtain ⟨-, -, -, hdivide⟩ := pick_without_divide hd ["c", "a", "c"] {}
  obtain ⟨hpick, hwithout, hfirst, -⟩ := pick_without_divide hd ["b", "x", "y"] {}
  obtain ⟨p', w', hp, hw, -, -, -, c, hc, hperm, -⟩ := hdivide (by decide)
  obtain rfl : p' = p := Except.ok.inj (hp.symm.trans rfl)
  obtain rfl : w' = w := Except.ok.inj (hw.symm.trans rfl)
  have hx : ∃ name ∈ ["b", "x", "y"], s.Lacks name := ⟨"x", by decide, by decide⟩
  have hfind : ["b", "x", "y"].find? s.Lacks = some "x" := by decide
  obtain ⟨e, he⟩ := hpick.mpr hx
  obtain ⟨e', he'⟩ := hwithout.mpr hx
  obtain ⟨name, hname, rfl⟩ := hfirst e (.inl he)
  obtain ⟨name', hname', rfl⟩ := hfirst e' (.inr he')
  cases hfind.symm.trans hname
  cases hfind.symm.trans hname'
  exact ⟨hp, hw, ⟨c, hc, hperm⟩, he, he'⟩

end ShapeTyping.Shape
