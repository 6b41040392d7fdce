import ShapeTyping.Proofs.Ty.Same
import ShapeTyping.Proofs.Value.WellFormed
/-! Structural equality of values is symmetric and transitive, and reflexive on the
values without a NaN. It reads objects by key, in whatever order the keys stand. -/
namespace ShapeTyping.Value

/-- Equality of values, as a relation. -/
def Equal (v w : Value) : Prop := v.same w = true

/-- One level of equality, where `eq` compares the parts. -/
inductive Alike (eq : Value → Value → Prop) : Value → Value → Prop
  | undefined : Alike eq .undefined .undefined
  | null : Alike eq .null .null
  | bool (b : Bool) : Alike eq (.bool b) (.bool b)
  | number {x y : Number} (h : x.same y = true) : Alike eq (.number x) (.number y)
  | string (text : String) : Alike eq (.string text) (.string text)
  | array {xs ys : List Value} (items : List.Forall₂ eq xs ys) : Alike eq (.array xs) (.array ys)
  | object {xs ys : List (String × Value)} (length : xs.length = ys.length)
      (entries : ∀ e ∈ xs, ∃ y, ys.lookup e.1 = some y ∧ eq e.2 y) :
      Alike eq (.object xs) (.object ys)
  | function (name? : Option String) (arity : Nat) :
      Alike eq (.function name? arity) (.function name? arity)

def isNaN : Value → Bool
  | .number x => x.isNaN
  | _ => false

theorem sameItems_iff (xs ys : List Value) :
    sameItems xs ys = true ↔ List.Forall₂ Equal xs ys := by
  induction xs generalizing ys with
  | nil => cases ys <;> simp [sameItems]
  | cons x xs ih => cases ys <;> simp [sameItems, ih, Equal]

theorem sameEntries_iff (xs ys : List (String × Value)) :
    sameEntries xs ys = true ↔ ∀ e ∈ xs, ∃ y, ys.lookup e.1 = some y ∧ e.2.Equal y := by
  induction xs with
  | nil => simp [sameEntries]
  | cons e xs ih =>
    rw [sameEntries, Bool.and_eq_true, ih, List.forall_mem_cons]
    refine and_congr_left fun _ => ?_
    cases ys.lookup e.1 with
    | none => simp
    | some y => simp [Equal]

theorem equal_iff {v w : Value} : v.Equal w ↔ Alike Equal v w := by
  unfold Equal
  constructor
  · intro h
    cases v <;> cases w <;> simp only [same, Bool.false_eq_true] at h
    case undefined.undefined => exact .undefined
    case null.null => exact .null
    case bool.bool b c => rw [eq_of_beq h]; exact .bool c
    case number.number => exact .number h
    case string.string a b => rw [eq_of_beq h]; exact .string b
    case array.array => exact .array ((sameItems_iff _ _).mp h)
    case object.object =>
      simp only [Bool.and_eq_true, beq_iff_eq] at h
      exact .object h.1 ((sameEntries_iff _ _).mp h.2)
    case function.function m j n k =>
      simp only [Bool.and_eq_true, beq_iff_eq] at h
      rw [h.1, h.2]
      exact .function n k
  · intro h
    cases h with
    | undefined => rfl
    | null => rfl
    | bool b => simp [same]
    | number h => exact h
    | string text => simp [same]
    | array items => exact (sameItems_iff _ _).mpr items
    | object length entries => simp [same, length, (sameEntries_iff _ _).mpr entries]
    | function name? arity => simp [same]

/-! ## Objects by key -/

section
variable {eq : Value → Value → Prop} {xs ys : List (String × Value)}

theorem Alike.keys_perm (hd : (xs.map (·.1)).Nodup) (h : Alike eq (.object xs) (.object ys)) :
    (xs.map (·.1)).Perm (ys.map (·.1)) := by
  cases h with
  | object length entries =>
    have hsub : xs.map (·.1) ⊆ ys.map (·.1) := by
      intro key hk
      obtain ⟨e, he, rfl⟩ := List.mem_map.mp hk
      obtain ⟨y, hy, -⟩ := entries e he
      exact List.mem_map_of_mem (f := (·.1)) (Entries.mem_of_lookup hy)
    apply (List.subperm_of_subset hd hsub).perm_of_length_le
    simp only [List.length_map]
    omega

/-- Equal objects have equal values under every key, or none. -/
theorem Alike.lookup (hd : (xs.map (·.1)).Nodup) (h : Alike eq (.object xs) (.object ys))
    (key : String) : Option.Rel eq (xs.lookup key) (ys.lookup key) := by
  cases hx : xs.lookup key with
  | none =>
    have hy : ys.lookup key = none := by
      rw [Entries.lookup_eq_none_iff] at hx ⊢
      rwa [← (h.keys_perm hd).mem_iff]
    rw [hy]
    exact .none
  | some x =>
    cases h with
    | object length entries =>
      obtain ⟨y, hy, hxy⟩ := entries (key, x) (Entries.mem_of_lookup hx)
      rw [hy]
      exact .some hxy

theorem Alike.exists_entry (hd : (xs.map (·.1)).Nodup) (h : Alike eq (.object xs) (.object ys))
    {e : String × Value} (he : e ∈ ys) : ∃ x, xs.lookup e.1 = some x ∧ eq x e.2 := by
  have hrel := h.lookup hd e.1
  rw [Entries.lookup_of_mem ((h.keys_perm hd).nodup_iff.mp hd) he] at hrel
  cases hx : xs.lookup e.1 with
  | none => rw [hx] at hrel; cases hrel
  | some x =>
    rw [hx] at hrel
    cases hrel with
    | some hxe => exact ⟨x, rfl, hxe⟩

end

/-! ## Symmetry and transitivity -/

theorem Equal.symm {v w : Value} (hv : v.WellFormed) (h : v.Equal w) : w.Equal v := by
  induction v generalizing w with
  | number x =>
    cases equal_iff.mp h with
    | number h => exact equal_iff.mpr (.number (by rw [Number.same_comm]; exact h))
  | array xs ih =>
    cases equal_iff.mp h with
    | array items =>
      refine equal_iff.mpr (.array (Ty.forall₂_flip (fun x hx y hxy => ?_) items))
      exact ih x hx (hv.part (item_mem_parts hx)) hxy
  | object xs ih =>
    cases ho : equal_iff.mp h with
    | @object _ ys length entries =>
      refine equal_iff.mpr (.object length.symm fun e he => ?_)
      obtain ⟨x, hx, hxe⟩ := (equal_iff.mp h).exists_entry hv.proper he
      have hm := Entries.mem_of_lookup hx
      exact ⟨x, hx, ih (e.1, x) hm (hv.part (entry_mem_parts hx)) hxe⟩
  | _ => cases equal_iff.mp h; exact h

theorem Equal.trans {u v w : Value} (huv : u.Equal v) (hvw : v.Equal w) : u.Equal w := by
  induction u generalizing v w with
  | number x =>
    cases equal_iff.mp huv with
    | number h =>
      cases equal_iff.mp hvw with
      | number k => exact equal_iff.mpr (.number (Number.same_trans h k))
  | array xs ih =>
    cases equal_iff.mp huv with
    | array items =>
      cases equal_iff.mp hvw with
      | array items' =>
        refine equal_iff.mpr (.array ?_)
        refine Ty.forall₂_comp (fun x hx y _ z _ hxy hyz => ?_) items items'
        exact ih x hx hxy hyz
  | object xs ih =>
    cases equal_iff.mp huv with
    | object length entries =>
      cases equal_iff.mp hvw with
      | object length' entries' =>
        refine equal_iff.mpr (.object (length.trans length') fun e he => ?_)
        obtain ⟨y, hy, hey⟩ := entries e he
        obtain ⟨z, hz, hyz⟩ := entries' (e.1, y) (Entries.mem_of_lookup hy)
        exact ⟨z, hz, ih e he hey hyz⟩
  | _ => cases equal_iff.mp huv; exact hvw

/-! ## Reflexivity and order -/

theorem equal_self_iff_parts {v : Value} (hv : v.Proper) :
    v.Equal v ↔ v.isNaN = false ∧ ∀ w ∈ Nested.parts v, w.Equal w := by
  rw [equal_iff]
  cases v with
  | undefined => exact iff_of_true .undefined ⟨rfl, nofun⟩
  | null => exact iff_of_true .null ⟨rfl, nofun⟩
  | bool b => exact iff_of_true (.bool b) ⟨rfl, nofun⟩
  | string text => exact iff_of_true (.string text) ⟨rfl, nofun⟩
  | function name? arity => exact iff_of_true (.function name? arity) ⟨rfl, nofun⟩
  | number x =>
    have hself : x.same x = true ↔ x.isNaN = false := by simp [Number.same_self]
    constructor
    · intro h
      cases h with
      | number h => exact ⟨hself.mp h, nofun⟩
    · exact fun h => .number (hself.mpr h.1)
  | array xs =>
    constructor
    · intro h
      cases h with
      | array items => exact ⟨rfl, List.forall₂_same.mp items⟩
    · exact fun h => .array (List.forall₂_same.mpr h.2)
  | object xs =>
    constructor
    · intro h
      refine ⟨rfl, fun w hw => ?_⟩
      obtain ⟨e, he, rfl⟩ := List.mem_map.mp hw
      obtain ⟨x, hx, hxe⟩ := h.exists_entry hv he
      rw [Entries.lookup_of_mem hv he] at hx
      cases hx
      exact hxe
    · rintro ⟨-, h⟩
      refine .object rfl fun e he => ⟨e.2, Entries.lookup_of_mem hv he, ?_⟩
      exact h _ (List.mem_map_of_mem he)

theorem equal_self_iff {v : Value} (hv : v.WellFormed) : v.Equal v ↔ Nested.Free isNaN v :=
  Nested.iff_free (p := fun w => w.Equal w) (fun _ h => equal_self_iff_parts h) hv

theorem same_object_perm {xs ys : List (String × Value)} (h : xs.Perm ys) (v : Value) :
    (Value.object xs).same v = (Value.object ys).same v := by
  cases v with
  | object zs =>
    rw [same, same, h.length_eq, Bool.eq_iff_iff, Bool.and_eq_true, Bool.and_eq_true,
      sameEntries_iff, sameEntries_iff]
    simp only [h.mem_iff]
  | _ => rfl

end ShapeTyping.Value
