import ShapeTyping.Proofs.Ty.Same
import ShapeTyping.Ty.Union
/-! What goes into a union: every member comes from one of the types it was built
from, and each of these is there, itself or as an equal type. -/
namespace ShapeTyping.Ty

theorem mem_addNew_of_mem {found : List Ty} (ts : List Ty) {m : Ty} (h : m ∈ found) :
    m ∈ addNew found ts := by
  unfold addNew
  induction ts generalizing found with
  | nil => exact h
  | cons t ts ih =>
    rw [List.foldl_cons]
    apply ih
    split
    · exact h
    · exact List.mem_append_left _ h

theorem mem_of_mem_addNew {found ts : List Ty} {m : Ty} (h : m ∈ addNew found ts) :
    m ∈ found ∨ m ∈ ts := by
  unfold addNew at h
  induction ts generalizing found with
  | nil => exact .inl h
  | cons t ts ih =>
    rw [List.foldl_cons] at h
    rcases ih h with h | h
    · split at h
      · exact .inl h
      · rcases List.mem_append.mp h with h | h
        · exact .inl h
        · rw [List.mem_singleton.mp h]
          exact .inr (List.mem_cons_self ..)
    · exact .inr (List.mem_cons_of_mem _ h)

theorem exists_mem_addNew (found : List Ty) {ts : List Ty} {t : Ty} (h : t ∈ ts) :
    ∃ m ∈ addNew found ts, m = t ∨ m.Equal t := by
  unfold addNew
  induction ts generalizing found with
  | nil => cases h
  | cons u ts ih =>
    rw [List.foldl_cons]
    rcases List.mem_cons.mp h with rfl | h
    · split
      next hc =>
        obtain ⟨m, hm, hmt⟩ := List.any_eq_true.mp hc
        exact ⟨m, mem_addNew_of_mem ts hm, .inr hmt⟩
      next =>
        exact ⟨t, mem_addNew_of_mem ts (List.mem_append_right _ (List.mem_singleton_self _)),
          .inl rfl⟩
    · exact ih _ h

theorem pairwise_addNew {found : List Ty} (ts : List Ty)
    (h : found.Pairwise fun s t => s.same t = false) :
    (addNew found ts).Pairwise fun s t => s.same t = false := by
  unfold addNew
  induction ts generalizing found with
  | nil => exact h
  | cons t ts ih =>
    rw [List.foldl_cons]
    apply ih
    split
    next => exact h
    next hc =>
      rw [Bool.not_eq_true] at hc
      refine List.pairwise_append.mpr ⟨h, List.pairwise_singleton .., fun s hs u hu => ?_⟩
      rw [List.mem_singleton.mp hu]
      simpa using List.any_eq_false.mp hc s hs

theorem mem_of_mem_merge {ts : List Ty} {m : Ty} (h : m ∈ merge ts) :
    ∃ t ∈ ts, m ∈ t.alternatives := by
  rcases mem_of_mem_addNew h with h | h
  · cases h
  · exact List.mem_flatMap.mp h

theorem exists_mem_merge {ts : List Ty} {t a : Ty} (ht : t ∈ ts) (ha : a ∈ t.alternatives) :
    ∃ m ∈ merge ts, m = a ∨ m.Equal a :=
  exists_mem_addNew [] (List.mem_flatMap.mpr ⟨t, ht, ha⟩)

theorem merge_ne_nil {ts : List Ty} {t a : Ty} (ht : t ∈ ts) (ha : a ∈ t.alternatives) :
    merge ts ≠ [] := by
  obtain ⟨m, hm, -⟩ := exists_mem_merge ht ha
  exact List.ne_nil_of_mem hm

theorem alternatives_eq {t : Ty} (h : t.isUnion = false) : t.alternatives = [t] := by
  cases t with
  | union => cases h
  | _ => rfl

theorem WellFormed.of_mem_alternatives {t a : Ty} (h : t.WellFormed) (ha : a ∈ t.alternatives) :
    a.WellFormed ∧ a.isUnion = false := by
  cases t with
  | union members =>
    obtain ⟨-, hu, -⟩ := h.proper
    exact ⟨h.part (member_mem_parts ha), hu a ha⟩
  | _ =>
    rw [List.mem_singleton.mp ha]
    exact ⟨h, rfl⟩

/-- What a union of some types is: no type at all, one type, or a union proper. -/
theorem join_cases (ts : List Ty) :
    (merge ts = [] ∧ join ts = .intrinsic .never) ∨ merge ts = [join ts] ∨
      (2 ≤ (merge ts).length ∧ join ts = .union (merge ts)) := by
  unfold join
  split
  next h => exact .inl ⟨h, rfl⟩
  next h => exact .inr (.inl h)
  next h₀ h₁ =>
    refine .inr (.inr ⟨?_, rfl⟩)
    match hm : merge ts with
    | [] => exact absurd hm h₀
    | [t] => exact absurd hm (h₁ t)
    | _ :: _ :: _ => simp

theorem WellFormed.of_mem_merge {ts : List Ty} (h : ∀ t ∈ ts, t.WellFormed) {m : Ty}
    (hm : m ∈ merge ts) : m.WellFormed ∧ m.isUnion = false := by
  obtain ⟨t, ht, hmt⟩ := mem_of_mem_merge hm
  exact (h t ht).of_mem_alternatives hmt

theorem WellFormed.union_merge {ts : List Ty} (h : ∀ t ∈ ts, t.WellFormed)
    (hl : 2 ≤ (merge ts).length) : (Ty.union (merge ts)).WellFormed := by
  refine Nested.everywhere_iff.mpr ⟨⟨hl, fun m hm => ?_, pairwise_addNew _ .nil⟩, fun m hm => ?_⟩
  · exact (WellFormed.of_mem_merge h hm).2
  · exact (WellFormed.of_mem_merge h hm).1

theorem WellFormed.join {ts : List Ty} (h : ∀ t ∈ ts, t.WellFormed) : (join ts).WellFormed := by
  obtain ⟨-, hj⟩ | hj | ⟨hl, hj⟩ := join_cases ts
  · rw [hj]
    exact .of_intrinsic _
  · exact (WellFormed.of_mem_merge h (hj ▸ List.mem_singleton_self _)).1
  · rw [hj]
    exact WellFormed.union_merge h hl

theorem unionOf_eq_ok_iff {ts : List Ty} {u : Ty} :
    unionOf ts = .ok u ↔ 2 ≤ (merge ts).length ∧ u = .union (merge ts) := by
  unfold unionOf
  by_cases hl : (merge ts).length < 2
  · have hnot : ¬ 2 ≤ (merge ts).length := by omega
    simp [hl, hnot]
  · have htwo : 2 ≤ (merge ts).length := by omega
    simp [hl, htwo, eq_comm]

end ShapeTyping.Ty
