import ShapeTyping.Proofs.Assignability.Checker
import ShapeTyping.Proofs.Assignability.Congruence
import ShapeTyping.Proofs.Assignability.Inversion
/-! Assignability is transitive on types without `any`, functions and optional
fields. Each of these breaks it: `any` is assignable both ways, parameters may be
bivariant, and an optional field that the type in the middle lacks may have another
type in the first. -/
namespace ShapeTyping

open Nested (Free parts size size_part_lt)

/-- A well-formed type without `any`, functions and optional fields. -/
structure Ty.Plain (t : Ty) : Prop where
  wellFormed : t.WellFormed
  noAny : Free Ty.isAny t
  noFunction : Free Ty.isFunction t
  noOptional : Free Ty.hasOptionalField t

theorem Ty.Plain.part {t u : Ty} (h : t.Plain) (hu : u ∈ parts t) : u.Plain :=
  ⟨h.wellFormed.part hu, h.noAny.part hu, h.noFunction.part hu, h.noOptional.part hu⟩

namespace Assignability

variable {o : Options} {s t u : Ty}

def Composes (o : Options) (s t u : Ty) : Prop := Related o s t → Related o t u → Related o s u

/-! ## Types other than unions -/

/-- Most intrinsic types are below nothing but the top types and unions. -/
theorem rule_of_intrinsic {kind : Intrinsic} (hk : kind ∉ [.any, .never, .null, .undefined])
    (hu : u.isUnion = false) (h : Rule o (Related o) (.intrinsic kind) u) (s : Ty) :
    Rule o (Related o) s u := by
  cases h with
  | top _ htop => exact .top s htop
  | any _ => simp at hk
  | never _ => simp at hk
  | nullish _ hnull _ => rcases hnull with rfl | rfl <;> simp at hk
  | void => simp at hk
  | unionRight _ _ _ => cases hu

/-- A field of the last shape is required, so the shape in the middle has it, and
then the first one. -/
theorem serves_trans {a b : Shape Ty} {k : Field Ty} (hk : k.optional = false)
    (hab : ∀ g ∈ b.fields, Serves (Related o) g (a.field? g.name))
    (hbk : Serves (Related o) k (b.field? k.name))
    (ih : ∀ f ∈ a.fields, ∀ g ∈ b.fields, Composes o f.type g.type k.type) :
    Serves (Related o) k (a.field? k.name) := by
  cases hg : b.field? k.name with
  | none =>
    rw [hg] at hbk
    cases hbk with
    | absent optional => rw [hk] at optional; cases optional
  | some g =>
    rw [hg] at hbk
    obtain ⟨hgm, hgn⟩ := Shape.mem_of_field? hg
    have hag := hab g hgm
    rw [hgn] at hag
    cases hbk with
    | present optional' type' =>
      cases hf : a.field? k.name with
      | none =>
        rw [hf] at hag
        cases hag with
        | absent optional => exact .absent (optional' optional)
      | some f =>
        rw [hf] at hag
        cases hag with
        | present optional type =>
          refine .present (fun ho => optional' (optional ho)) ?_
          exact ih f (Shape.mem_of_field? hf).1 g hgm type type'

theorem rule_trans (hs : s.Plain) (ht : t.Plain) (hu : u.Plain) (hsu : s.isUnion = false)
    (htu : t.isUnion = false) (huu : u.isUnion = false)
    (ih : ∀ a ∈ parts s, ∀ b ∈ parts t, ∀ c ∈ parts u, Composes o a b c ∧ Composes o c b a)
    (h : Rule o (Related o) s t) (h' : Rule o (Related o) t u) : Rule o (Related o) s u := by
  cases h with
  | any t => cases hs.noAny.here
  | never t => exact .never u
  | nullish loose hk t => exact .nullish loose hk u
  | unionLeft _ => cases hsu
  | unionRight _ _ _ => cases htu
  | function _ => cases hs.noFunction.here
  | top s hk =>
    rcases hk with rfl | rfl
    · cases ht.noAny.here
    · exact rule_of_intrinsic (by decide) huu h' s
  | void => exact rule_of_intrinsic (by decide) huu h' _
  | literal value => exact rule_of_intrinsic (by cases value <;> simp [Literal.widened]) huu h' _
  | shape fields =>
    cases h' with
    | top _ hk => exact .top _ hk
    | unionRight _ _ _ => cases huu
    | shape fields' =>
      refine .shape fun k hk => ?_
      refine serves_trans (Ty.required_of_free hu.noOptional hk) fields (fields' k hk) ?_
      intro f hf g hg
      exact (ih _ (Ty.field_mem_parts hf) _ (Ty.field_mem_parts hg) _ (Ty.field_mem_parts hk)).1
  | array hst =>
    cases h' with
    | top _ hk => exact .top _ hk
    | unionRight _ _ _ => cases huu
    | array htu =>
      exact .array ((ih _ (Ty.element_mem_parts _) _ (Ty.element_mem_parts _) _
        (Ty.element_mem_parts _)).1 hst htu)
  | application name arguments =>
    cases h' with
    | top _ hk => exact .top _ hk
    | unionRight _ _ _ => cases huu
    | application _ arguments' =>
      refine .application name
        (Ty.forall₂_comp (fun a ha b hb c hc hab hbc => ?_) arguments arguments')
      obtain ⟨hac, hca⟩ := ih a (Ty.argument_mem_parts name ha) b (Ty.argument_mem_parts name hb)
        c (Ty.argument_mem_parts name hc)
      exact ⟨hac hab.1 hbc.1, hca hbc.2 hab.2⟩

/-! ## All types -/

theorem related_trans (hs : s.Plain) (ht : t.Plain) (hu : u.Plain) : Composes o s t u := by
  -- Arguments of named types are compared both ways, so that the measure has to be
  -- symmetric in the first and the last type.
  induction hn : size s + size t + size u using Nat.strongRecOn generalizing s t u with
  | ind n ih =>
    intro hst htu
    subst hn
    -- A union is taken apart where it stands first, then in the middle, then last.
    obtain ⟨ss, rfl⟩ | hsu := s.eq_union_or
    · refine .of_rule (.unionLeft fun m hm => ?_)
      have hmp := Ty.member_mem_parts hm
      have hlt := size_part_lt hmp
      have hmt := (related_union_left_iff hs.wellFormed).mp hst m hm
      exact ih _ (by omega) (hs.part hmp) ht hu rfl hmt htu
    obtain ⟨ts, rfl⟩ | htu' := t.eq_union_or
    · obtain ⟨m, hm, hsm⟩ := (related_union_right_iff hsu ht.wellFormed).mp hst
      have hmp := Ty.member_mem_parts hm
      have hlt := size_part_lt hmp
      have hmu := (related_union_left_iff ht.wellFormed).mp htu m hm
      exact ih _ (by omega) hs (ht.part hmp) hu rfl hsm hmu
    obtain ⟨us, rfl⟩ | huu := u.eq_union_or
    · obtain ⟨m, hm, htm⟩ := (related_union_right_iff htu' hu.wellFormed).mp htu
      have hmp := Ty.member_mem_parts hm
      have hlt := size_part_lt hmp
      exact .of_rule (.unionRight hsu hm (ih _ (by omega) hs ht (hu.part hmp) rfl hst htm))
    rcases related_iff.mp hst with heq | hrule
    · exact htu.transfers.left s ht.wellFormed (heq.symm hs.wellFormed)
    rcases related_iff.mp htu with heq' | hrule'
    · exact hst.transfers.right u ht.wellFormed heq'
    refine .of_rule (rule_trans hs ht hu hsu htu' huu (fun a ha b hb c hc => ?_) hrule hrule')
    have ha' := size_part_lt ha
    have hb' := size_part_lt hb
    have hc' := size_part_lt hc
    exact ⟨ih _ (by omega) (hs.part ha) (ht.part hb) (hu.part hc) rfl,
      ih _ (by omega) (hu.part hc) (ht.part hb) (hs.part ha) rfl⟩

end Assignability

/-- If a fresh checker finds `s` assignable to `t` and another `t` to `u`, then a
third finds `s` assignable to `u`, or it has given up. -/
theorem Checker.assignable_trans (o : Options) {s t u : Ty} (hs : s.Plain) (ht : t.Plain)
    (hu : u.Plain) (hst : ((Checker.fresh o).assignable s t).1 = true)
    (htu : ((Checker.fresh o).assignable t u).1 = true) :
    ((Checker.fresh o).assignable s u).1 = true ∨
      ((Checker.fresh o).assignable s u).2.gaveUp = true := by
  rw [Checker.assignable_fresh] at hst htu ⊢
  have hsu := Assignability.related_trans hs ht hu (Ty.related_of_isAssignable hst)
    (Ty.related_of_isAssignable htu)
  exact (Assignability.walk_approximates o o.maxDepth s u).complete hsu

/-- Unions in the middle and at the end, and `null` taken for another type. -/
theorem Checker.assignable_trans_event :
    let loose : Checker := .fresh { strictNullChecks := false }
    let s : Ty := .shape ⟨[⟨"kind", false, false, .literal (.string "open")⟩,
      ⟨"at", false, false, .intrinsic .null⟩]⟩
    let u : Ty := .union [.intrinsic .void,
      .shape ⟨[⟨"at", false, false, .array (.intrinsic .number)⟩,
        ⟨"kind", false, true, .intrinsic .string⟩]⟩]
    (loose.assignable s u).1 = true ∨ (loose.assignable s u).2.gaveUp = true :=
  Checker.assignable_trans { strictNullChecks := false }
    (t := .shape ⟨[⟨"at", false, false, .intrinsic .undefined⟩,
      ⟨"kind", false, false, .union [.literal (.string "open"), .literal (.string "shut")]⟩]⟩)
    ⟨by decide, by decide, by decide, by decide⟩ ⟨by decide, by decide, by decide, by decide⟩
    ⟨by decide, by decide, by decide, by decide⟩ (by rw [Checker.assignable_fresh]; decide)
    (by rw [Checker.assignable_fresh]; decide)

end ShapeTyping
