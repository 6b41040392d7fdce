import ShapeTyping.Proofs.Assignability.Related
/-! Equal types are assignable to and from the same types, with any number of levels
left. Equality is not reflexive, so that each side has a statement of its own. -/
namespace ShapeTyping.Assignability

open Ty (FieldAlike ParamAlike)

/-- An equal type may stand for the source, and another for the target. -/
structure Transfers (below : Ty → Ty → Prop) (s t : Ty) : Prop where
  left : ∀ s', s.WellFormed → s.Equal s' → below s' t
  right : ∀ t', t.WellFormed → t.Equal t' → below s t'

variable {o : Options} {below : Ty → Ty → Prop} {s t : Ty}

/-! ## Signatures -/

theorem requiredCount_eq {R : Param Ty → Param Ty → Prop}
    (hR : ∀ p p', R p p' → p.optional = p'.optional) {ps ps' : List (Param Ty)}
    (h : List.Forall₂ R ps ps') (result result' : Ty) :
    Signature.requiredCount ⟨ps, result⟩ = Signature.requiredCount ⟨ps', result'⟩ := by
  unfold Signature.requiredCount
  induction h with
  | nil => rfl
  | cons hp _ ih =>
    rw [List.takeWhile_cons, List.takeWhile_cons, ← hR _ _ hp]
    split
    · rw [List.length_cons, List.length_cons, ih]
    · rfl

theorem exists_mem_zip {α β : Type} {R : α → α → Prop} {S : β → β → Prop} {xs xs' : List α}
    {ys ys' : List β} (hx : List.Forall₂ R xs xs') (hy : List.Forall₂ S ys ys') {p' : α × β}
    (hp : p' ∈ xs'.zip ys') : ∃ p ∈ xs.zip ys, R p.1 p'.1 ∧ S p.2 p'.2 := by
  induction hx generalizing ys ys' with
  | nil => cases hp
  | cons hxx _ ih =>
    cases hy with
    | nil => cases hp
    | cons hyy hy =>
      rcases List.mem_cons.mp hp with rfl | hp
      · exact ⟨_, List.mem_cons_self .., hxx, hyy⟩
      · obtain ⟨p, hm, hpp⟩ := ih hy hp
        exact ⟨p, List.mem_cons_of_mem _ hm, hpp⟩

/-- A comparison of signatures carries over to others whose parameters differ in
their types only. -/
theorem SignatureBelow.congr {above : Ty → Ty → Prop} {variance : Variance}
    {relation : ResultRelation} {R S : Param Ty → Param Ty → Prop} {c c' r r' : Signature Ty}
    (hR : ∀ p p', R p p' → p.optional = p'.optional)
    (hS : ∀ q q', S q q' → q.optional = q'.optional)
    (hc : List.Forall₂ R c.params c'.params) (hr : List.Forall₂ S r.params r'.params)
    (params : ∀ p ∈ c.params, ∀ p', R p p' → ∀ q ∈ r.params, ∀ q', S q q' →
      ParamsBelow variance below p.type q.type → ParamsBelow variance above p'.type q'.type)
    (result : ResultsBelow relation below c.result r.result →
      ResultsBelow relation above c'.result r'.result)
    (h : SignatureBelow variance relation below c r) :
    SignatureBelow variance relation above c' r' := by
  refine ⟨?_, fun pq hpq => ?_, fun q' hq' => ?_, result h.result⟩
  · have hcount : c.requiredCount = c'.requiredCount := requiredCount_eq hR hc _ _
    rw [← hcount, ← hr.length_eq]
    exact h.count
  · obtain ⟨⟨p, q⟩, hm, hpp, hqq⟩ := exists_mem_zip hc hr hpq
    obtain ⟨hpm, hqm⟩ := List.of_mem_zip hm
    exact params p hpm _ hpp q hqm _ hqq (h.params _ hm)
  · rw [← hc.length_eq] at hq'
    obtain ⟨q, hq, hqq⟩ :=
      Ty.forall₂_exists (List.forall₂_drop c.params.length hr).flip hq'
    rw [← hS _ _ hqq]
    exact h.covered q hq

/-! ## An equal source -/

theorem Transfers.serves_left {g : Field Ty} {f? f'? : Option (Field Ty)}
    (hf : ∀ f, f? = some f → f.type.WellFormed) (h : Serves (Transfers below) g f?)
    (hrel : Option.Rel (FieldAlike Ty.Equal) f? f'?) : Serves below g f'? := by
  cases h with
  | absent optional => cases hrel; exact .absent optional
  | present optional type =>
    cases hrel with
    | some hff =>
      refine .present (fun ho => optional (hff.optional.trans ho)) ?_
      exact type.left _ (hf _ rfl) hff.type

theorem Transfers.signature_left {variance : Variance} {relation : ResultRelation}
    {c c' r : Signature Ty}
    (hc : (Ty.function c).WellFormed)
    (hparams : List.Forall₂ (ParamAlike Ty.Equal) c.params c'.params)
    (hresult : c.result.Equal c'.result)
    (h : SignatureBelow variance relation (Transfers below) c r) :
    SignatureBelow variance relation below c' r := by
  refine h.congr (fun _ _ hp => hp.optional) (fun _ _ hq => congrArg _ hq) hparams
    (List.forall₂_same.mpr fun _ _ => rfl) ?_ ?_
  · rintro p hp p' hpp q - q rfl hpq
    have hwf := hc.part (Ty.param_mem_parts hp)
    exact hpq.mono (Nat.le_refl _) (fun h => h.left _ hwf hpp.type) fun h => h.right _ hwf hpp.type
  · have hwf := hc.part (Ty.result_mem_parts c)
    exact fun h => h.imp (fun h => h.left _ hwf hresult) fun h => h.right _ hwf hresult

theorem rule_left {s' : Ty} (h : Rule o (Transfers below) s t) (hs : s.WellFormed)
    (he : s.Equal s') : Rule o below s' t := by
  have halike := Ty.equal_iff.mp he
  cases h with
  | top s hk => exact .top s' hk
  | any t => cases halike; exact .any t
  | never t => cases halike; exact .never t
  | nullish loose hk t => cases halike; exact .nullish loose hk t
  | void => cases halike; exact .void
  | unionLeft members =>
    cases halike with
    | union hss =>
      refine .unionLeft fun m' hm' => ?_
      obtain ⟨m, hm, hmm⟩ := Ty.forall₂_exists hss.flip hm'
      exact (members m hm).left m' (hs.part (Ty.member_mem_parts hm)) hmm
  | unionRight hsu hm h =>
    refine .unionRight ?_ hm (h.left s' hs he)
    cases halike with
    | union _ => cases hsu
    | _ => rfl
  | literal value =>
    cases halike with
    | @literal _ value' hv =>
      have hw : value.widened = value'.widened := by
        cases value <;> cases value' <;> first | rfl | cases hv
      rw [hw]
      exact .literal value'
  | @shape a b fields =>
    cases s' with
    | shape a' =>
      refine .shape fun g hg => Transfers.serves_left ?_ (fields g hg) (halike.field? hs.proper _)
      exact fun f hf => hs.part (Ty.field_mem_parts (Shape.mem_of_field? hf).1)
    | _ => cases halike
  | function h =>
    cases halike with
    | function params result => exact .function (Transfers.signature_left hs params result h)
  | array h =>
    cases halike with
    | array he => exact .array (h.left _ (hs.part (Ty.element_mem_parts _)) he)
  | application name arguments =>
    cases halike with
    | application _ hss =>
      refine .application name
        (Ty.forall₂_comp (fun s' _ s hs' t _ hss hst => ?_) hss.flip arguments)
      have hwf := hs.part (Ty.argument_mem_parts name hs')
      exact ⟨hst.1.left s' hwf hss, hst.2.right s' hwf hss⟩

/-! ## An equal target -/

theorem Transfers.serves_right {g g' : Field Ty} {f? : Option (Field Ty)}
    (hg : g.type.WellFormed) (h : Serves (Transfers below) g f?) (hgg : FieldAlike Ty.Equal g g') :
    Serves below g' f? := by
  cases h with
  | absent optional => exact .absent (hgg.optional ▸ optional)
  | present optional type =>
    exact .present (fun ho => hgg.optional ▸ optional ho) (type.right _ hg hgg.type)

theorem Transfers.signature_right {variance : Variance} {relation : ResultRelation}
    {c r r' : Signature Ty}
    (hr : (Ty.function r).WellFormed)
    (hparams : List.Forall₂ (ParamAlike Ty.Equal) r.params r'.params)
    (hresult : r.result.Equal r'.result)
    (h : SignatureBelow variance relation (Transfers below) c r) :
    SignatureBelow variance relation below c r' := by
  refine h.congr (fun _ _ hp => congrArg _ hp) (fun _ _ hq => hq.optional)
    (List.forall₂_same.mpr fun _ _ => rfl) hparams ?_ ?_
  · rintro p - p rfl q hq q' hqq hpq
    have hwf := hr.part (Ty.param_mem_parts hq)
    exact hpq.mono (Nat.le_refl _) (fun h => h.right _ hwf hqq.type) fun h => h.left _ hwf hqq.type
  · have hwf := hr.part (Ty.result_mem_parts r)
    exact fun h => h.imp (fun h => h.right _ hwf hresult) fun h => h.left _ hwf hresult

theorem rule_right {t' : Ty} (h : Rule o (Transfers below) s t) (ht : t.WellFormed)
    (he : t.Equal t') : Rule o below s t' := by
  have halike := Ty.equal_iff.mp he
  cases h with
  | top s hk => cases halike; exact .top s hk
  | any t => exact .any t'
  | never t => exact .never t'
  | nullish loose hk t => exact .nullish loose hk t'
  | void => cases halike; exact .void
  | unionLeft members => exact .unionLeft fun m hm => (members m hm).right t' ht he
  | unionRight hsu hm h =>
    cases halike with
    | union hts =>
      obtain ⟨m', hm', hmm⟩ := Ty.forall₂_exists hts hm
      exact .unionRight hsu hm' (h.right m' (ht.part (Ty.member_mem_parts hm)) hmm)
  | literal value => cases halike; exact .literal value
  | @shape a b fields =>
    cases t' with
    | shape b' =>
      refine .shape fun g' hg' => ?_
      obtain ⟨g, hg, hgg⟩ := halike.exists_field ht.proper hg'
      obtain ⟨hgm, hgn⟩ := Shape.mem_of_field? hg
      rw [← hgn]
      exact Transfers.serves_right (ht.part (Ty.field_mem_parts hgm)) (fields g hgm) hgg
    | _ => cases halike
  | function h =>
    cases halike with
    | function params result => exact .function (Transfers.signature_right ht params result h)
  | array h =>
    cases halike with
    | array he => exact .array (h.right _ (ht.part (Ty.element_mem_parts _)) he)
  | application name arguments =>
    cases halike with
    | application _ hts =>
      refine .application name (Ty.forall₂_comp (fun s _ t ht' t' _ hst htt => ?_) arguments hts)
      have hwf := ht.part (Ty.argument_mem_parts name ht')
      exact ⟨hst.1.right t' hwf htt, hst.2.left t' hwf htt⟩

/-! ## Equal types are related alike -/

theorem walk_transfers {n : Nat} (h : Holds (walk o n) s t) :
    Transfers (Holds (walk o n)) s t := by
  induction n generalizing s t with
  | zero =>
    have hst := holds_walk_zero_iff.mp h
    constructor
    · exact fun s' hs he => holds_walk_zero_iff.mpr ((he.symm hs).trans hst)
    · exact fun t' _ he => holds_walk_zero_iff.mpr (hst.trans he)
  | succ n ih =>
    rcases holds_walk_succ_iff.mp h with hst | hrule
    · constructor
      · exact fun s' hs he => holds_walk_succ_iff.mpr (.inl ((he.symm hs).trans hst))
      · exact fun t' _ he => holds_walk_succ_iff.mpr (.inl (hst.trans he))
    · have hrule := hrule.mono (.refl o) fun a b hab => ih hab
      constructor
      · exact fun s' hs he => holds_walk_succ_iff.mpr (.inr (rule_left hrule hs he))
      · exact fun t' ht he => holds_walk_succ_iff.mpr (.inr (rule_right hrule ht he))

theorem Related.transfers (h : Related o s t) : Transfers (Related o) s t := by
  obtain ⟨n, hn⟩ := related_iff_exists_walk.mp h
  constructor
  · exact fun s' hs he => related_iff_exists_walk.mpr ⟨n, (walk_transfers hn).left s' hs he⟩
  · exact fun t' ht he => related_iff_exists_walk.mpr ⟨n, (walk_transfers hn).right t' ht he⟩

end ShapeTyping.Assignability
