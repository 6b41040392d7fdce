import ShapeTyping.Cascade.Basic
import ShapeTyping.Proofs.Outcome
import ShapeTyping.Proofs.Ty.WellFormed
/-! When an addition to a cascade succeeds, and what it adds. -/
namespace ShapeTyping.Cascade

variable {o : Options} {c c' : Cascade} {name : String} {f : Field Ty} {v : Value}

theorem checkDefault_eq_ok : checkDefault o f v = .ok () ↔ accepts o f v = true := by
  unfold checkDefault
  split <;> simp_all

theorem checkEntries_eq_ok {s : Shape Ty} {entries : List (String × Value)} :
    checkEntries o s entries = .ok () ↔
      ∀ e ∈ entries, ∀ f, s.field? e.1 = some f → accepts o f e.2 = true := by
  induction entries with
  | nil => simp [checkEntries]
  | cons e entries ih =>
    rw [checkEntries, List.forall_mem_cons, ← ih]
    cases s.field? e.1 with
    | none => simp [Outcome.seq_eq_ok]
    | some f => simp [Outcome.seq_eq_ok, checkDefault_eq_ok]

theorem vacantField_eq_ok :
    c.vacantField name = .ok f ↔ c.shape.field? name = some f ∧ c.default? name = none := by
  unfold vacantField Shape.getField
  rw [Outcome.bind_eq_ok]
  cases c.shape.field? name with
  | none => simp
  | some g => cases c.default? name <;> simp

theorem add_objectDefault_eq_ok :
    c.add (.objectDefault v) = .ok c' ↔ ∃ entries, v = .object entries ∧
      (∀ e ∈ entries, ∀ f, c.shape.field? e.1 = some f → accepts c.options f e.2 = true) ∧
      c' = { c with objectDefault? := some v } := by
  rw [add]
  cases v with
  | object entries =>
    simp only [Value.entries?]
    rw [Outcome.seq_eq_ok, checkEntries_eq_ok, Outcome.pure_eq_ok]
    simp
  | _ => simp [Value.entries?]

theorem add_fieldDefault_eq_ok :
    c.add (.fieldDefault name v) = .ok c' ↔ ∃ f, c.shape.field? name = some f ∧
      c.default? name = none ∧ accepts c.options f v = true ∧
      c' = { c with defaults := c.defaults ++ [(name, .value v)] } := by
  rw [add, Outcome.bind_eq_ok]
  refine exists_congr fun f => ?_
  rw [vacantField_eq_ok, Outcome.seq_eq_ok, checkDefault_eq_ok, and_assoc]
  refine and_congr_right fun hf => ?_
  rw [(Shape.mem_of_field? hf).2, Outcome.pure_eq_ok]

theorem add_nested_eq_ok {inner : Cascade} {identity : inner.shape.Identity} :
    c.add (.nested name inner identity) = .ok c' ↔ ∃ f, c.shape.field? name = some f ∧
      c.default? name = none ∧
      f.type.shapes.any (describesSame c.options inner.shape identity) = true ∧
      c' = { c with defaults := c.defaults ++ [(name, .nested inner)] } := by
  rw [add, Outcome.bind_eq_ok]
  refine exists_congr fun f => ?_
  rw [vacantField_eq_ok, and_assoc]
  refine and_congr_right fun hf => and_congr_right fun _ => ?_
  rw [(Shape.mem_of_field? hf).2]
  cases f.type.shapes with
  | nil => simp
  | cons s shapes =>
    simp only [List.isEmpty_cons, Bool.false_eq_true, if_false]
    split
    next h => rw [Outcome.pure_eq_ok, h, eq_self, true_and]
    next h => simp [h]

/-- A default goes to a field that has none, and the others keep theirs. -/
theorem default?_append {d : Default Cascade} (hn : c.default? name = none) (key : String) :
    default? { c with defaults := c.defaults ++ [(name, d)] } key =
      if key = name then some d else c.default? key := by
  unfold default? at hn ⊢
  dsimp only
  rw [List.lookup_append]
  by_cases h : key = name
  · subst h
    simp [hn]
  · have hne : (key == name) = false := beq_eq_false_iff_ne.mpr h
    simp [h, List.lookup_cons, hne]

/-! ## One addition after the other -/

/-- A cascade that can be had by additions to an empty one. What is nested in it can be
had in the same way, each under options of its own. -/
inductive Built : Cascade → Prop
  | empty {s : Shape Ty} (hs : (Ty.shape s).WellFormed) (o : Options) : Built (empty s o)
  | add {c c' : Cascade} {addition : Addition} (hc : Built c)
      (hinner : ∀ inner ∈ addition.inner?, Built inner) (h : c.add addition = .ok c') : Built c'

variable {addition : Addition}

theorem frame_add (h : c.add addition = .ok c') :
    c'.shape = c.shape ∧ c'.options = c.options := by
  cases addition with
  | objectDefault v =>
    obtain ⟨_, -, -, rfl⟩ := add_objectDefault_eq_ok.mp h
    exact ⟨rfl, rfl⟩
  | fieldDefault name v =>
    obtain ⟨_, -, -, -, rfl⟩ := add_fieldDefault_eq_ok.mp h
    exact ⟨rfl, rfl⟩
  | nested name inner identity =>
    obtain ⟨_, -, -, -, rfl⟩ := add_nested_eq_ok.mp h
    exact ⟨rfl, rfl⟩

/-- The nested cascades are those there were and the one that is added, which describes
the objects that its field may hold. -/
theorem nested_of_add (h : c.add addition = .ok c') {inner : Cascade}
    (hd : c'.default? name = some (.nested inner)) :
    c.default? name = some (.nested inner) ∨ addition.inner? = some inner ∧
      ∃ identity f, c.shape.field? name = some f ∧
        f.type.shapes.any (describesSame c.options inner.shape identity) = true := by
  cases addition with
  | objectDefault v =>
    obtain ⟨_, -, -, rfl⟩ := add_objectDefault_eq_ok.mp h
    exact .inl hd
  | fieldDefault key v =>
    obtain ⟨_, -, hvacant, -, rfl⟩ := add_fieldDefault_eq_ok.mp h
    rw [default?_append hvacant] at hd
    split at hd
    next => cases hd
    next => exact .inl hd
  | nested key added identity =>
    obtain ⟨f, hf, hvacant, hsame, rfl⟩ := add_nested_eq_ok.mp h
    rw [default?_append hvacant] at hd
    split at hd
    next hkey =>
      cases hkey
      cases hd
      exact .inr ⟨rfl, identity, f, hf, hsame⟩
    next => exact .inl hd

theorem Built.wellFormed (hc : Built c) : (Ty.shape c.shape).WellFormed := by
  induction hc with
  | empty hs o => exact hs
  | add hc hinner h ih _ => exact (frame_add h).1 ▸ ih

theorem Built.nested (hc : Built c) {inner : Cascade}
    (hd : c.default? name = some (.nested inner)) :
    Built inner ∧ ∃ identity f, c.shape.field? name = some f ∧
      f.type.shapes.any (describesSame c.options inner.shape identity) = true := by
  induction hc with
  | empty hs o => cases hd
  | add hc hinner h ih _ =>
    rw [(frame_add h).1, (frame_add h).2]
    rcases nested_of_add h hd with hd | ⟨hadded, hsame⟩
    · exact ih hd
    · exact ⟨hinner inner hadded, hsame⟩

theorem Built.foldlM_add {additions : List Addition} (hc : Built c)
    (hinner : ∀ addition ∈ additions, ∀ inner ∈ addition.inner?, Built inner)
    (h : additions.foldlM Cascade.add c = .ok c') : Built c' := by
  induction additions generalizing c with
  | nil => rwa [Outcome.pure_eq_ok.mp h]
  | cons addition additions ih =>
    rw [List.foldlM_cons] at h
    rw [List.forall_mem_cons] at hinner
    obtain ⟨next, hnext, hrest⟩ := Outcome.bind_eq_ok.mp h
    exact ih (.add hc hinner.1 hnext) hinner.2 hrest

theorem Built.of_build (s : Shape Ty) (o : Options) (additions : List Addition)
    (hs : (Ty.shape s).WellFormed)
    (hinner : ∀ addition ∈ additions, ∀ inner ∈ addition.inner?, Built inner)
    (h : build s o additions = .ok c) : Built c :=
  (Built.empty hs o).foldlM_add hinner h

/-- What stands for a whole object is an object. -/
theorem Built.exists_entries (hc : Built c) (hd : c.objectDefault? = some v) :
    ∃ entries, v = .object entries := by
  induction hc with
  | empty hs o => cases hd
  | @add c c' addition hc hinner h ih _ =>
    cases addition with
    | objectDefault w =>
      obtain ⟨entries, rfl, -, rfl⟩ := add_objectDefault_eq_ok.mp h
      cases hd
      exact ⟨entries, rfl⟩
    | fieldDefault name w =>
      obtain ⟨_, -, -, -, rfl⟩ := add_fieldDefault_eq_ok.mp h
      exact ih hd
    | nested name inner identity =>
      obtain ⟨_, -, -, -, rfl⟩ := add_nested_eq_ok.mp h
      exact ih hd

/-! ## A server

The cascades that witnesses are about: a server with a socket, and a socket with a log. -/

def logShape : Shape Ty := ⟨[⟨"path", false, false, .intrinsic .string⟩]⟩

def socketShape : Shape Ty :=
  ⟨[⟨"host", true, false, .intrinsic .string⟩, ⟨"port", false, false, .intrinsic .string⟩,
    ⟨"log", true, false, .shape logShape⟩]⟩

def serverShape : Shape Ty :=
  ⟨[⟨"socket", false, false, .union [.intrinsic .null, .shape socketShape]⟩,
    ⟨"mode", false, false, .intrinsic .string⟩]⟩

def logCascade : Cascade := ⟨logShape, some (.object [("path", .string "log")]), [], {}⟩

def socketCascade : Cascade :=
  ⟨socketShape, none, [("port", .value (.string "https")), ("log", .nested logCascade)], {}⟩

def serverCascade : Cascade :=
  ⟨serverShape, none, [("mode", .value (.string "on")), ("socket", .nested socketCascade)], {}⟩

theorem built_logCascade : Built logCascade :=
  .of_build logShape {} [.objectDefault (.object [("path", .string "log")])] (by decide)
    (by simp [Addition.inner?]) rfl

theorem built_socketCascade : Built socketCascade :=
  .of_build socketShape {} [.fieldDefault "port" (.string "https"), .nested "log" logCascade]
    (by decide) (by simpa [Addition.inner?] using built_logCascade) rfl

theorem built_serverCascade : Built serverCascade :=
  .of_build serverShape {} [.fieldDefault "mode" (.string "on"), .nested "socket" socketCascade]
    (by decide) (by simpa [Addition.inner?] using built_socketCascade) rfl

end ShapeTyping.Cascade
