/-! Trees that are put together from trees of their own kind, and what holds at
every node of one. Types and values are such trees. -/
namespace ShapeTyping

/-- A kind of tree. The nodes of a tree are itself and those of its parts. -/
class Nested (α : Type) where
  parts : α → List α
  nodes : α → List α
  nodes_eq : ∀ a, nodes a = a :: (parts a).flatMap nodes

namespace Nested

variable {α : Type} [Nested α] {p : α → Prop} {a b : α}

/-- The number of nodes. -/
def size (a : α) : Nat := (nodes a).length

def Everywhere (p : α → Prop) (a : α) : Prop := ∀ b ∈ nodes a, p b

/-- No node is of the kind. -/
def Free (kind : α → Bool) (a : α) : Prop := Everywhere (fun b => kind b = false) a

instance [DecidablePred p] : Decidable (Everywhere p a) :=
  inferInstanceAs (Decidable (∀ b ∈ nodes a, p b))

instance {kind : α → Bool} : Decidable (Free kind a) :=
  inferInstanceAs (Decidable (∀ b ∈ nodes a, kind b = false))

theorem everywhere_iff : Everywhere p a ↔ p a ∧ ∀ b ∈ parts a, Everywhere p b := by
  unfold Everywhere
  rw [nodes_eq]
  constructor
  · intro h
    refine ⟨h a (List.mem_cons_self ..), fun b hb c hc => h c ?_⟩
    exact List.mem_cons_of_mem _ (List.mem_flatMap.mpr ⟨b, hb, hc⟩)
  · rintro ⟨ha, hp⟩ c hc
    rcases List.mem_cons.mp hc with rfl | hc
    · exact ha
    · obtain ⟨b, hb, hc⟩ := List.mem_flatMap.mp hc
      exact hp b hb c hc

theorem Everywhere.here (h : Everywhere p a) : p a := (everywhere_iff.mp h).1

theorem Everywhere.part (h : Everywhere p a) (hb : b ∈ parts a) : Everywhere p b :=
  (everywhere_iff.mp h).2 b hb

theorem Everywhere.of_mem (h : Everywhere p a) (hb : b ∈ a :: parts a) : Everywhere p b := by
  rcases List.mem_cons.mp hb with rfl | hb
  · exact h
  · exact h.part hb

theorem Free.here {kind : α → Bool} (h : Free kind a) : kind a = false :=
  (everywhere_iff.mp h).1

theorem Free.part {kind : α → Bool} (h : Free kind a) (hb : b ∈ parts a) : Free kind b :=
  Everywhere.part h hb

theorem size_pos (a : α) : 0 < size a := by
  unfold size
  rw [nodes_eq, List.length_cons]
  omega

theorem size_part_lt (h : b ∈ parts a) : size b < size a := by
  have hb : (nodes b).length ≤ ((parts a).flatMap nodes).length := by
    obtain ⟨before, after, hp⟩ := List.append_of_mem h
    rw [hp, List.flatMap_append, List.flatMap_cons]
    simp only [List.length_append]
    omega
  unfold size
  rw [nodes_eq a, List.length_cons]
  omega

/-- Induction over the parts of a tree, whatever kind of part they are. -/
theorem induction_on {P : α → Prop} (a : α) (h : ∀ a, (∀ b ∈ parts a, P b) → P a) : P a := by
  apply h
  intro b hb
  have := size_part_lt hb
  exact induction_on b h
termination_by size a

/-- The nodes of a node are nodes. -/
theorem Everywhere.node (h : Everywhere p a) (hb : b ∈ nodes a) : Everywhere p b := by
  induction a using induction_on with
  | h a ih =>
    rw [nodes_eq] at hb
    rcases List.mem_cons.mp hb with rfl | hb
    · exact h
    · obtain ⟨c, hc, hb⟩ := List.mem_flatMap.mp hb
      exact ih c hc (h.part hc) hb

/-- What holds of a tree just if it holds of the parts, apart from one kind of node,
holds of the trees without that kind. -/
theorem iff_free {q : α → Prop} {kind : α → Bool}
    (h : ∀ a, q a → (p a ↔ kind a = false ∧ ∀ b ∈ parts a, p b)) (ha : Everywhere q a) :
    p a ↔ Free kind a := by
  induction a using induction_on with
  | h a ih =>
    rw [h a ha.here, Free, everywhere_iff]
    constructor
    · exact fun hp => ⟨hp.1, fun b hb => (ih b hb (ha.part hb)).mp (hp.2 b hb)⟩
    · exact fun hp => ⟨hp.1, fun b hb => (ih b hb (ha.part hb)).mpr (hp.2 b hb)⟩

end Nested
end ShapeTyping
