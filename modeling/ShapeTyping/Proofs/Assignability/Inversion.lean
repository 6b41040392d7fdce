import ShapeTyping.Proofs.Assignability.Congruence
import ShapeTyping.Proofs.Ty.Union
/-! Assignability read off the two types: a union on the left asks every member, a
union on the right some member, and types of one kind are compared by their parts.
The shortcut for equal types adds nothing to this. -/
namespace ShapeTyping.Assignability

variable {o : Options} {s t : Ty}

/-! ## Unions -/

theorem related_union_left_iff {ss : List Ty} (hss : (Ty.union ss).WellFormed) :
    Related o (.union ss) t ↔ ∀ s ∈ ss, Related o s t := by
  constructor
  · intro h s hs
    obtain ⟨-, hflat, -⟩ := hss.proper
    rcases related_iff.mp h with heq | hrule
    · cases Ty.equal_iff.mp heq with
      | union members =>
        obtain ⟨m, hm, hsm⟩ := Ty.forall₂_exists members hs
        exact .of_rule (.unionRight (hflat s hs) hm (.of_equal hsm))
    · cases hrule with
      | top _ hk => exact .of_rule (.top s hk)
      | unionLeft members => exact members s hs
      | unionRight hsu => cases hsu
  · exact fun h => .of_rule (.unionLeft h)

/-- Types that are assignable to anything are assignable to every member, and there
is one. -/
theorem related_union_right_iff {ts : List Ty} (hs : s.isUnion = false)
    (hts : (Ty.union ts).WellFormed) : Related o s (.union ts) ↔ ∃ t ∈ ts, Related o s t := by
  constructor
  · intro h
    obtain ⟨hlength, -, -⟩ := hts.proper
    obtain ⟨t, ht⟩ : ∃ t, t ∈ ts := List.exists_mem_of_length_pos (by omega)
    rcases related_iff.mp h with heq | hrule
    · cases Ty.equal_iff.mp heq with
      | union members => cases hs
    · cases hrule with
      | any _ => exact ⟨t, ht, .of_rule (.any t)⟩
      | never _ => exact ⟨t, ht, .of_rule (.never t)⟩
      | nullish loose hk _ => exact ⟨t, ht, .of_rule (.nullish loose hk t)⟩
      | unionLeft _ => cases hs
      | unionRight _ hm h => exact ⟨_, hm, h⟩
  · rintro ⟨t, ht, h⟩
    exact .of_rule (.unionRight hs ht h)

theorem related_iff_alternatives (hs : s.WellFormed) :
    Related o s t ↔ ∀ a ∈ s.alternatives, Related o a t := by
  obtain ⟨ss, rfl⟩ | hsu := s.eq_union_or
  · exact related_union_left_iff hs
  · rw [Ty.alternatives_eq hsu, List.forall_mem_singleton]

theorem related_join_iff_merge {ss : List Ty} (hss : ∀ s ∈ ss, s.WellFormed) :
    Related o (Ty.join ss) t ↔ ∀ m ∈ Ty.merge ss, Related o m t := by
  obtain ⟨hm, hj⟩ | hm | ⟨-, hj⟩ := Ty.join_cases ss
  · rw [hm, hj]
    exact iff_of_true (.of_rule (.never t)) nofun
  · rw [hm, List.forall_mem_singleton]
  · have hwf := Ty.WellFormed.join hss
    rw [hj] at hwf ⊢
    exact related_union_left_iff hwf

/-- The join of some types is the least type that all of them are assignable to. -/
theorem related_join_iff {ss : List Ty} (hss : ∀ s ∈ ss, s.WellFormed) :
    Related o (Ty.join ss) t ↔ ∀ s ∈ ss, Related o s t := by
  rw [related_join_iff_merge hss]
  constructor
  · intro h s hs
    refine (related_iff_alternatives (hss s hs)).mpr fun a ha => ?_
    obtain ⟨m, hm, rfl | hma⟩ := Ty.exists_mem_merge hs ha
    · exact h m hm
    · exact (h m hm).transfers.left a (Ty.WellFormed.of_mem_merge hss hm).1 hma
  · intro h m hm
    obtain ⟨s, hs, hms⟩ := Ty.mem_of_mem_merge hm
    exact (related_iff_alternatives (hss s hs)).mp (h s hs) m hms

/-! ## Types of one kind -/

theorem related_literal_iff {a b : Literal} :
    Related o (.literal a) (.literal b) ↔ a.same b = true := by
  constructor
  · intro h
    rcases related_iff.mp h with heq | hrule
    · exact heq
    · cases hrule
  · exact fun h => .of_equal h

theorem serves_of_equal {below : Ty → Ty → Prop} (hbelow : ∀ s t : Ty, s.Equal t → below s t)
    {a b : Shape Ty} (ha : (Ty.shape a).WellFormed) (h : (Ty.shape a).Equal (.shape b))
    {g : Field Ty} (hg : g ∈ b.fields) : Serves below g (a.field? g.name) := by
  obtain ⟨f, hf, hfg⟩ := (Ty.equal_iff.mp h).exists_field ha.proper hg
  rw [hf]
  exact .present (fun ho => hfg.optional ▸ ho) (hbelow _ _ hfg.type)

theorem related_shape_iff {a b : Shape Ty} (ha : (Ty.shape a).WellFormed) :
    Related o (.shape a) (.shape b) ↔
      ∀ g ∈ b.fields, Serves (Related o) g (a.field? g.name) := by
  constructor
  · intro h g hg
    rcases related_iff.mp h with heq | hrule
    · exact serves_of_equal (fun _ _ => .of_equal) ha heq hg
    · cases hrule with
      | shape fields => exact fields g hg
  · exact fun h => .of_rule (.shape h)

theorem holds_walk_shape_iff {n : Nat} {a b : Shape Ty} (ha : (Ty.shape a).WellFormed) :
    Holds (walk o (n + 1)) (.shape a) (.shape b) ↔
      ∀ g ∈ b.fields, Serves (Holds (walk o n)) g (a.field? g.name) := by
  constructor
  · intro h g hg
    rcases holds_walk_succ_iff.mp h with heq | hrule
    · exact serves_of_equal (fun _ _ => holds_walk_of_equal) ha heq hg
    · cases hrule with
      | shape fields => exact fields g hg
  · exact fun h => holds_walk_succ_iff.mpr (.inr (.shape h))

theorem related_array_iff : Related o (.array s) (.array t) ↔ Related o s t := by
  constructor
  · intro h
    rcases related_iff.mp h with heq | hrule
    · exact .of_equal heq
    · cases hrule with
      | array h => exact h
  · exact fun h => .of_rule (.array h)

end ShapeTyping.Assignability
