import ShapeTyping.Proofs.Nested
import ShapeTyping.Value.Basic
/-! Values as trees, and how high they are. -/
namespace ShapeTyping.Value

def parts : Value → List Value
  | .array items => items
  | .object entries => entries.map (·.2)
  | _ => []

mutual
def nodes : Value → List Value
  | .undefined => [.undefined]
  | .null => [.null]
  | .bool b => [.bool b]
  | .number x => [.number x]
  | .string text => [.string text]
  | .array items => .array items :: itemNodes items
  | .object entries => .object entries :: entryNodes entries
  | .function name? arity => [.function name? arity]
termination_by structural v => v
def itemNodes : List Value → List Value
  | [] => []
  | v :: vs => v.nodes ++ itemNodes vs
termination_by structural vs => vs
def entryNodes : List (String × Value) → List Value
  | [] => []
  | (_, v) :: es => v.nodes ++ entryNodes es
termination_by structural es => es
end

theorem itemNodes_eq (vs : List Value) : itemNodes vs = vs.flatMap nodes := by
  induction vs with
  | nil => rfl
  | cons v vs ih => rw [itemNodes, ih, List.flatMap_cons]

theorem entryNodes_eq (es : List (String × Value)) :
    entryNodes es = (es.map (·.2)).flatMap nodes := by
  induction es with
  | nil => rfl
  | cons e es ih => rw [entryNodes, ih, List.map_cons, List.flatMap_cons]

instance : Nested Value where
  parts := parts
  nodes := nodes
  nodes_eq v := by
    cases v <;> simp [nodes, parts, itemNodes_eq, entryNodes_eq]

theorem item_mem_parts {vs : List Value} {v : Value} (h : v ∈ vs) :
    v ∈ Nested.parts (Value.array vs) := h

theorem entry_mem_parts {es : List (String × Value)} {key : String} {v : Value}
    (h : es.lookup key = some v) : v ∈ Nested.parts (Value.object es) :=
  List.mem_map_of_mem (Entries.mem_of_lookup h)

/-- The keys of an object are distinct. -/
def Proper : Value → Prop
  | .object entries => (entries.map (·.1)).Nodup
  | _ => True

instance : DecidablePred Proper := fun v =>
  match v with
  | .object entries => inferInstanceAs (Decidable (entries.map (·.1)).Nodup)
  | .undefined | .null | .bool _ | .number _ | .string _ | .array _ | .function _ _ =>
    inferInstanceAs (Decidable True)

/-- A value that can be had: every object in it has its keys once. -/
def WellFormed (v : Value) : Prop := Nested.Everywhere Proper v

instance (v : Value) : Decidable v.WellFormed :=
  inferInstanceAs (Decidable (Nested.Everywhere Proper v))

theorem WellFormed.proper {v : Value} (h : v.WellFormed) : v.Proper := Nested.Everywhere.here h

theorem WellFormed.part {v w : Value} (h : v.WellFormed) (hw : w ∈ Nested.parts v) :
    w.WellFormed := Nested.Everywhere.part h hw

/-! ## Height -/

mutual
/-- The number of objects and arrays around the deepest element. -/
def height : Value → Nat
  | .array items => itemsHeight items
  | .object entries => entriesHeight entries
  | _ => 0
termination_by structural v => v
def itemsHeight : List Value → Nat
  | [] => 0
  | v :: vs => max (v.height + 1) (itemsHeight vs)
termination_by structural vs => vs
def entriesHeight : List (String × Value) → Nat
  | [] => 0
  | (_, v) :: es => max (v.height + 1) (entriesHeight es)
termination_by structural es => es
end

theorem height_lt_itemsHeight {vs : List Value} {v : Value} (h : v ∈ vs) :
    v.height < itemsHeight vs := by
  induction vs with
  | nil => cases h
  | cons w vs ih =>
    rw [itemsHeight]
    rcases List.mem_cons.mp h with rfl | h
    · omega
    · have := ih h
      omega

theorem height_lt_entriesHeight {es : List (String × Value)} {e : String × Value} (h : e ∈ es) :
    e.2.height < entriesHeight es := by
  induction es with
  | nil => cases h
  | cons e' es ih =>
    rw [entriesHeight]
    rcases List.mem_cons.mp h with rfl | h
    · omega
    · have := ih h
      omega

theorem height_part_lt {v w : Value} (h : w ∈ Nested.parts v) : w.height < v.height := by
  cases v with
  | array items => exact height_lt_itemsHeight h
  | object entries =>
    obtain ⟨e, he, rfl⟩ := List.mem_map.mp h
    exact height_lt_entriesHeight he
  | _ => cases h

end ShapeTyping.Value
