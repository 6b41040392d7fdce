import ShapeTyping.Proofs.Signature.Arity
import ShapeTyping.Proofs.Ty.Union
import ShapeTyping.Shape.Basic
/-! The types that can be built. They are the well-formed ones, so that every union in
such a type is in normal form, and the union of some types comes out the same in whatever
way they were grouped before. -/
namespace ShapeTyping

/-! ## Building shapes -/

namespace Shape

variable {τ : Type}

theorem firstRepeat?_eq_none_iff {seen : List String} {fs : List (Field τ)} :
    firstRepeat? seen fs = none ↔ (fs.map (·.name)).Nodup ∧ ∀ f ∈ fs, f.name ∉ seen := by
  induction fs generalizing seen with
  | nil => simp [firstRepeat?]
  | cons f fs ih =>
    rw [firstRepeat?, List.map_cons, List.nodup_cons, List.forall_mem_cons]
    by_cases hf : f.name ∈ seen
    · simp [hf]
    · rw [if_neg hf, ih]
      simp only [List.mem_cons, not_or, List.mem_map, not_exists, not_and]
      constructor
      · rintro ⟨hnodup, hfresh⟩
        exact ⟨⟨fun g hg => (hfresh g hg).1, hnodup⟩, hf, fun g hg => (hfresh g hg).2⟩
      · rintro ⟨⟨hne, hnodup⟩, -, hfresh⟩
        exact ⟨hnodup, fun g hg => ⟨hne g hg, hfresh g hg⟩⟩

theorem ofFields_eq_ok_iff {fs : List (Field τ)} {s : Shape τ} :
    ofFields fs = .ok s ↔ (fs.map (·.name)).Nodup ∧ s = ⟨fs⟩ := by
  have hnone : firstRepeat? [] fs = none ↔ (fs.map (·.name)).Nodup := by
    simp [firstRepeat?_eq_none_iff]
  unfold ofFields
  rw [← hnone]
  cases firstRepeat? [] fs with
  | some name => simp
  | none => simp [eq_comm]

end Shape

namespace Ty

/-! ## Adding types to those found already -/

theorem addNew_append (found ts us : List Ty) :
    addNew found (ts ++ us) = addNew (addNew found ts) us := List.foldl_append

theorem addNew_cons_of_contains {found : List Ty} {t : Ty} (h : contains found t = true)
    (ts : List Ty) : addNew found (t :: ts) = addNew found ts := by
  simp [addNew, h]

theorem addNew_cons_of_not_contains {found : List Ty} {t : Ty} (h : contains found t = false)
    (ts : List Ty) : addNew found (t :: ts) = addNew (found ++ [t]) ts := by
  simp [addNew, h]

/-- What has an equal in a list has one as well where the list was added. -/
theorem contains_addNew (found : List Ty) {ts : List Ty} {t : Ty} (h : contains ts t = true) :
    contains (addNew found ts) t = true := by
  obtain ⟨s, hs, hst⟩ := List.any_eq_true.mp h
  obtain ⟨m, hm, rfl | hms⟩ := exists_mem_addNew found hs
  · exact List.any_eq_true.mpr ⟨m, hm, hst⟩
  · exact List.any_eq_true.mpr ⟨m, hm, Equal.trans hms hst⟩

/-- A type that is dropped for an equal one before it would have been dropped later on. For
this equality has to be transitive, and need not be reflexive. -/
theorem addNew_addNew (found ts us : List Ty) :
    addNew found (addNew ts us) = addNew (addNew found ts) us := by
  induction us generalizing ts with
  | nil => rfl
  | cons u us ih =>
    cases hu : contains ts u with
    | true =>
      rw [addNew_cons_of_contains hu, addNew_cons_of_contains (contains_addNew found hu)]
      exact ih ts
    | false =>
      calc addNew found (addNew ts (u :: us))
        _ = addNew found (addNew (ts ++ [u]) us) := by rw [addNew_cons_of_not_contains hu]
        _ = addNew (addNew found (ts ++ [u])) us := ih (ts ++ [u])
        _ = addNew (addNew (addNew found ts) [u]) us := by rw [addNew_append]
        _ = addNew (addNew found ts) (u :: us) := (addNew_append _ [u] us).symm

/-- Types of which none equals an earlier one are all new. -/
theorem addNew_eq_append {found ts : List Ty}
    (h : (found ++ ts).Pairwise fun s t => s.same t = false) : addNew found ts = found ++ ts := by
  induction ts generalizing found with
  | nil => exact (List.append_nil found).symm
  | cons t ts ih =>
    obtain ⟨-, -, hfound⟩ := List.pairwise_append.mp h
    have ht : contains found t = false := by
      refine List.any_eq_false.mpr fun s hs => ?_
      simp [hfound s hs t (List.mem_cons_self ..)]
    rw [List.append_cons] at h ⊢
    rw [addNew_cons_of_not_contains ht, ih h]

/-! ## Grouping -/

theorem merge_append (ts us : List Ty) :
    merge (ts ++ us) = addNew (merge ts) (us.flatMap alternatives) := by
  unfold merge
  rw [List.flatMap_append, addNew_append]

/-- Types may be united beforehand. -/
theorem merge_grouped (xs ys zs : List Ty) :
    merge (xs ++ [.union (merge ys)] ++ zs) = merge (xs ++ ys ++ zs) := by
  have hgroup : merge (xs ++ [.union (merge ys)]) = merge (xs ++ ys) := by
    calc merge (xs ++ [.union (merge ys)])
      _ = addNew (merge xs) (merge ys) := by
        rw [merge_append, List.flatMap_singleton]
        rfl
      _ = addNew (merge xs) (ys.flatMap alternatives) := addNew_addNew (merge xs) [] _
      _ = merge (xs ++ ys) := (merge_append xs ys).symm
  rw [merge_append, hgroup, ← merge_append]

theorem unionOf_congr {ts us : List Ty} (h : merge ts = merge us) : unionOf ts = unionOf us := by
  unfold unionOf
  rw [h]

theorem merge_members {members : List Ty} (h : (Ty.union members).Proper) :
    merge members = members := by
  obtain ⟨-, hflat, hdistinct⟩ := h
  have halternatives : members.flatMap alternatives = members := by
    rw [List.flatMap_congr fun m hm => alternatives_eq (hflat m hm), List.flatMap_singleton']
  unfold merge
  rw [halternatives]
  exact addNew_eq_append hdistinct

theorem unionOf_members {members : List Ty} (h : (Ty.union members).Proper) :
    unionOf members = .ok (.union members) :=
  unionOf_eq_ok_iff.mpr ⟨by rw [merge_members h]; exact h.1, by rw [merge_members h]⟩

/-! ## Types that can be built -/

/-- The types that can be had from the constructors. -/
inductive Constructed : Ty → Prop
  | intrinsic (kind : Intrinsic) : Constructed (.intrinsic kind)
  | literal (value : Literal) : Constructed (.literal value)
  | shape {fields : List (Field Ty)} {s : Shape Ty} (types : ∀ f ∈ fields, Constructed f.type)
      (h : Shape.ofFields fields = .ok s) : Constructed (.shape s)
  | union {ts : List Ty} {u : Ty} (members : ∀ t ∈ ts, Constructed t) (h : unionOf ts = .ok u) :
      Constructed u
  | orVoid {t u : Ty} (type : Constructed t) (h : orVoid t = .ok u) : Constructed u
  | function {params : List (Param Ty)} {result : Ty} {s : Signature Ty}
      (types : ∀ p ∈ params, Constructed p.type) (type : Constructed result)
      (h : Signature.ofParams params result = .ok s) : Constructed (.function s)
  | array {element : Ty} (type : Constructed element) : Constructed (.array element)
  | elementAccess {t u : Ty} (o : Options) (type : Constructed t)
      (h : t.elementAccess? o = some u) : Constructed u
  | application (name : String) {arguments : List Ty}
      (types : ∀ t ∈ arguments, Constructed t) : Constructed (.application name arguments)

theorem WellFormed.unionOf {ts : List Ty} {u : Ty} (h : ∀ t ∈ ts, t.WellFormed)
    (hu : unionOf ts = .ok u) : u.WellFormed := by
  obtain ⟨hl, rfl⟩ := unionOf_eq_ok_iff.mp hu
  exact WellFormed.union_merge h hl

theorem WellFormed.elementAccess {o : Options} {t u : Ty} (h : t.WellFormed)
    (hu : t.elementAccess? o = some u) : u.WellFormed := by
  cases t with
  | array element =>
    have helement : element.WellFormed := h.part (element_mem_parts element)
    rw [elementAccess?, Option.some.injEq] at hu
    subst hu
    split
    · refine WellFormed.join fun t ht => ?_
      rcases List.mem_pair.mp ht with rfl | rfl
      · exact helement
      · exact .of_intrinsic _
    · exact helement
  | _ => cases hu

theorem Constructed.wellFormed {t : Ty} (h : Constructed t) : t.WellFormed := by
  induction h with
  | intrinsic kind => exact .of_intrinsic kind
  | literal value => exact Nested.everywhere_iff.mpr ⟨trivial, nofun⟩
  | shape types h ih =>
    obtain ⟨hnodup, rfl⟩ := Shape.ofFields_eq_ok_iff.mp h
    refine Nested.everywhere_iff.mpr ⟨hnodup, fun u hu => ?_⟩
    obtain ⟨f, hf, rfl⟩ := List.mem_map.mp hu
    exact ih f hf
  | union members h ih => exact WellFormed.unionOf ih h
  | orVoid type h ih =>
    refine WellFormed.unionOf (fun t ht => ?_) h
    rcases List.mem_pair.mp ht with rfl | rfl
    · exact .of_intrinsic _
    · exact ih
  | function types type h ihp ihr =>
    obtain ⟨harranged, rfl⟩ := Signature.ofParams_eq_ok_iff.mp h
    refine Nested.everywhere_iff.mpr ⟨Signature.arranged_iff.mp harranged, fun u hu => ?_⟩
    rcases List.mem_append.mp hu with hu | hu
    · obtain ⟨p, hp, rfl⟩ := List.mem_map.mp hu
      exact ihp p hp
    · rw [List.mem_singleton.mp hu]
      exact ihr
  | array type ih =>
    refine Nested.everywhere_iff.mpr ⟨trivial, fun u hu => ?_⟩
    rw [List.mem_singleton.mp hu]
    exact ih
  | elementAccess o type h ih => exact ih.elementAccess h
  | application name types ih => exact Nested.everywhere_iff.mpr ⟨trivial, ih⟩

/-- Well-formed types can be built from their parts. -/
theorem WellFormed.constructed {t : Ty} (h : t.WellFormed) : Constructed t := by
  induction t with
  | intrinsic kind => exact .intrinsic kind
  | literal value => exact .literal value
  | shape s ih =>
    refine .shape (fun f hf => ?_) (Shape.ofFields_eq_ok_iff.mpr ⟨h.proper, rfl⟩)
    exact ih f hf (h.part (field_mem_parts hf))
  | union members ih =>
    refine .union (fun m hm => ?_) (unionOf_members h.proper)
    exact ih m hm (h.part (member_mem_parts hm))
  | function s ihp ihr =>
    refine .function (fun p hp => ?_) (ihr (h.part (result_mem_parts s)))
      (Signature.ofParams_eq_ok_iff.mpr ⟨Signature.arranged_iff.mpr h.proper, rfl⟩)
    exact ihp p hp (h.part (param_mem_parts hp))
  | array element ih => exact .array (ih (h.part (element_mem_parts element)))
  | application name arguments ih =>
    exact .application name fun t ht => ih t ht (h.part (argument_mem_parts name ht))

theorem constructed_iff {t : Ty} : Constructed t ↔ t.WellFormed :=
  ⟨Constructed.wellFormed, WellFormed.constructed⟩

theorem same_comm {s t : Ty} (hs : s.WellFormed) (ht : t.WellFormed) : s.same t = t.same s :=
  Bool.eq_iff_iff.mpr ⟨Equal.symm hs, Equal.symm ht⟩

/-- However a type was built, each union in it has two members or more, none of them a union
and none equal to an earlier one. Uniting some types beforehand makes no difference to a
union, and the members of a union give that union again. -/
theorem constructed_unions_normal :
    (∀ t, Constructed t → ∀ members, .union members ∈ Nested.nodes t →
      2 ≤ members.length ∧ (∀ m ∈ members, m.isUnion = false) ∧
        members.Pairwise fun earlier m => m.same earlier = false) ∧
    (∀ xs ys zs u, unionOf ys = .ok u → unionOf (xs ++ [u] ++ zs) = unionOf (xs ++ ys ++ zs)) ∧
    ∀ members, Constructed (.union members) → unionOf members = .ok (.union members) := by
  refine ⟨fun t ht members hmembers => ?_, fun xs ys zs u hu => ?_, fun members h => ?_⟩
  · have hunion : (Ty.union members).WellFormed := ht.wellFormed.node hmembers
    obtain ⟨hlength, hflat, hdistinct⟩ := hunion.proper
    refine ⟨hlength, hflat, hdistinct.imp_of_mem fun {s m} hs hm hsm => ?_⟩
    rw [same_comm (hunion.part (member_mem_parts hm)) (hunion.part (member_mem_parts hs))]
    exact hsm
  · obtain ⟨-, rfl⟩ := unionOf_eq_ok_iff.mp hu
    exact unionOf_congr (merge_grouped xs ys zs)
  · exact unionOf_members h.wellFormed.proper

/-- A NaN is never equal to an earlier one, so that both stay. -/
theorem constructed_unions_normal_nan :
    let nan : Ty := .literal (.number .nan)
    let ys : List Ty := [.intrinsic .string, nan]
    let members : List Ty := [nan, .intrinsic .string, nan]
    Constructed (.array (.union members)) ∧
      (members.Pairwise fun earlier m => m.same earlier = false) ∧
      unionOf ([nan] ++ [.union ys] ++ [.intrinsic .string]) =
        unionOf ([nan] ++ ys ++ [.intrinsic .string]) ∧
      unionOf members = .ok (.union members) := by
  intro nan ys members
  obtain ⟨hnormal, hgrouped, hmembers⟩ := constructed_unions_normal
  have harray : Constructed (.array (.union members)) := constructed_iff.mpr (by decide)
  have hunion : Constructed (.union members) := constructed_iff.mpr (by decide)
  obtain ⟨-, -, hdistinct⟩ := hnormal _ harray members (List.mem_cons_of_mem _ (List.mem_cons_self ..))
  exact ⟨harray, hdistinct, hgrouped [nan] ys [.intrinsic .string] (.union ys) rfl,
    hmembers members hunion⟩

end Ty
end ShapeTyping
