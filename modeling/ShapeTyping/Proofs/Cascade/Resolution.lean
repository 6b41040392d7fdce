import ShapeTyping.Cascade.Resolution
import ShapeTyping.Proofs.Outcome
/-! Resolution one level at a time: what it starts from, what it finds for each
field, and what the object holds in the end. -/
namespace ShapeTyping.Cascade

/-- What counts as present. -/
def present? (v? : Option Value) : Option Value := v?.filter fun v => !v.isUndefined

theorem present?_eq_some {v? : Option Value} {v : Value} :
    present? v? = some v ↔ v? = some v ∧ v.isUndefined = false := by
  simp [present?, Option.filter_eq_some_iff]

theorem present?_eq_none {v? : Option Value} :
    present? v? = none ↔ v? = none ∨ v? = some .undefined := by
  rcases v? with _ | v
  · simp [present?]
  · cases v <;> simp [present?, Option.filter, Value.isUndefined]

theorem base_eq_ok {objectDefault? supplied? : Option Value} {entries : List (String × Value)}
    (h : base objectDefault? supplied? = .ok entries) :
    present? supplied? = some (.object entries) ∨
      present? supplied? = none ∧ (objectDefault? = some (.object entries) ∨ entries = []) := by
  unfold base start at h
  split at h
  next hp => cases h; exact .inl hp
  next => cases h
  next hp =>
    refine .inr ⟨hp, ?_⟩
    split at h
    · cases h; exact .inl rfl
    · cases h; exact .inr rfl

/-- The object that a level is about: what is supplied there, else the default for the whole,
else an empty object. -/
def effective (c : Cascade) (supplied? : Option Value) : Value :=
  (present? supplied?).getD (c.objectDefault?.getD (.object []))

/-- What is supplied in place of an object stays what it is. -/
theorem effective_ne_object {c : Cascade} {supplied? : Option Value} {v : Value}
    (given : present? supplied? = some v) (nonobject : v.entries? = none)
    (entries : List (String × Value)) : c.effective supplied? ≠ .object entries := by
  intro h
  rw [effective, given, Option.getD_some] at h
  rw [h] at nonobject
  cases nonobject

theorem present?_present? (v? : Option Value) : present? (present? v?) = present? v? := by
  unfold present?
  rw [Option.filter_filter]
  simp

theorem base_present? (objectDefault? supplied? : Option Value) :
    base objectDefault? (present? supplied?) = base objectDefault? supplied? := by
  unfold base start
  have h := present?_present? supplied?
  unfold present? at h ⊢
  rw [h]

theorem base_eq_ok_iff {c : Cascade} {supplied? : Option Value} {entries : List (String × Value)}
    (hobject : ∀ v, c.objectDefault? = some v → ∃ es, v = .object es) :
    base c.objectDefault? supplied? = .ok entries ↔
      c.effective supplied? = .object entries := by
  unfold base start effective present?
  cases supplied?.filter fun v => !v.isUndefined with
  | some v => cases v <;> simp
  | none =>
    cases hd : c.objectDefault? with
    | none => simp
    | some v =>
      obtain ⟨es, rfl⟩ := hobject v hd
      simp

theorem base_eq_error_iff {objectDefault? supplied? : Option Value} {e : ResolveError} :
    base objectDefault? supplied? = .error e ↔
      e = .notAnObject [] ∧ ∃ v, present? supplied? = some v ∧ v.entries? = none := by
  unfold base start present?
  cases supplied?.filter fun v => !v.isUndefined with
  | some v => cases v <;> simp [Value.entries?, eq_comm]
  | none =>
    cases objectDefault? with
    | none => simp
    | some v => cases v <;> simp

/-! ## Filling fields -/

/-- An object with what was found for a field put in, if anything was. -/
def put (name : String) (filled? : Option Value) (entries : List (String × Value)) :
    List (String × Value) :=
  match filled? with
  | some v => Entries.insert name v entries
  | none => entries

theorem lookup_put_self (name : String) (filled? : Option Value)
    (entries : List (String × Value)) :
    (put name filled? entries).lookup name = filled?.or (entries.lookup name) := by
  cases filled? with
  | none => rfl
  | some v => exact Entries.lookup_insert_self ..

theorem lookup_put_of_ne {name other : String} (h : other ≠ name) (filled? : Option Value)
    (entries : List (String × Value)) :
    (put name filled? entries).lookup other = entries.lookup other := by
  cases filled? with
  | none => rfl
  | some v => exact Entries.lookup_insert_of_ne h ..

section
variable {fill : Field Ty → Option Value → Except ResolveError (Option Value)}
  {fs : List (Field Ty)} {entries out : List (String × Value)}

theorem fillFields_cons (fill : Field Ty → Option Value → Except ResolveError (Option Value))
    (f : Field Ty) (fs : List (Field Ty)) (entries : List (String × Value)) :
    fillFields fill (f :: fs) entries =
      fill f (present? (entries.lookup f.name)) >>= fun filled? =>
        fillFields fill fs (put f.name filled? entries) := by
  rw [fillFields]
  refine congrArg (bind _) (funext fun filled? => ?_)
  cases filled? <;> rfl

theorem fillFields_cons_eq_ok {f : Field Ty} :
    fillFields fill (f :: fs) entries = .ok out ↔
      ∃ filled?, fill f (present? (entries.lookup f.name)) = .ok filled? ∧
        fillFields fill fs (put f.name filled? entries) = .ok out := by
  rw [fillFields_cons, Outcome.bind_eq_ok]

/-- Filling one field leaves what is under the other names. -/
theorem fillFields_cons_lookup {f : Field Ty} (h : fillFields fill (f :: fs) entries = .ok out) :
    ∃ filled? next, fill f (present? (entries.lookup f.name)) = .ok filled? ∧
      next.lookup f.name = filled?.or (entries.lookup f.name) ∧
      (∀ name, name ≠ f.name → next.lookup name = entries.lookup name) ∧
      fillFields fill fs next = .ok out := by
  obtain ⟨filled?, hfill, h⟩ := fillFields_cons_eq_ok.mp h
  exact ⟨filled?, _, hfill, lookup_put_self .., fun name hn => lookup_put_of_ne hn .., h⟩

theorem lookup_fillFields_of_not_mem {name : String} (hn : name ∉ fs.map (·.name))
    (h : fillFields fill fs entries = .ok out) : out.lookup name = entries.lookup name := by
  induction fs generalizing entries with
  | nil => cases h; rfl
  | cons f fs ih =>
    rw [List.map_cons, List.mem_cons, not_or] at hn
    obtain ⟨_, next, -, -, hother, hrest⟩ := fillFields_cons_lookup h
    rw [ih hn.2 hrest, hother name hn.1]

/-- Names are distinct, so that each field is looked up and filled in once. -/
theorem lookup_fillFields (hd : (fs.map (·.name)).Nodup)
    (h : fillFields fill fs entries = .ok out) {f : Field Ty} (hf : f ∈ fs) :
    ∃ filled?, fill f (present? (entries.lookup f.name)) = .ok filled? ∧
      out.lookup f.name = filled?.or (entries.lookup f.name) := by
  induction fs generalizing entries with
  | nil => cases hf
  | cons g fs ih =>
    rw [List.map_cons, List.nodup_cons] at hd
    obtain ⟨filled?, next, hfill, hself, hother, hrest⟩ := fillFields_cons_lookup h
    rcases List.mem_cons.mp hf with rfl | hf
    · exact ⟨filled?, hfill, (lookup_fillFields_of_not_mem hd.1 hrest).trans hself⟩
    · have hne : f.name ≠ g.name := fun hn => hd.1 (hn ▸ List.mem_map_of_mem hf)
      have hfound := ih hd.2 hrest hf
      rwa [hother f.name hne] at hfound

end

/-! ## One field, one object -/

theorem resolveField_eq (limit levels : Nat) (f : Field Ty) (v? : Option Value) (c : Cascade) :
    resolveField limit levels f v? c.defaults =
      match c.default? f.name with
      | none =>
        if v?.isSome || f.optional then .ok none else .error (.missingRequiredField [f.name])
      | some (.value v) => .ok (if v?.isSome then none else some v)
      | some (.nested inner) =>
        if v?.isSome || inner.objectDefault?.isSome || !f.optional then
          match levels with
          | 0 => .error (.depthExceeded limit)
          | levels + 1 => ((resolveFrom limit levels v? inner).mapError (.under f.name)).map some
        else .ok none := by
  unfold default?
  generalize c.defaults = defaults
  induction defaults with
  | nil => rw [resolveField]; rfl
  | cons entry defaults ih =>
    obtain ⟨name, d⟩ := entry
    rw [resolveField.eq_def, List.lookup_cons]
    by_cases h : name = f.name
    · simp only [h, beq_self_eq_true, if_true]
      cases d <;> rfl
    · have hne : (name == f.name) = false := beq_eq_false_iff_ne.mpr h
      have hne' : (f.name == name) = false := beq_eq_false_iff_ne.mpr (Ne.symm h)
      simp only [hne, hne', Bool.false_eq_true, if_false]
      exact ih

/-- What resolution puts into a field with so many levels left, given what is present
there. -/
inductive Fills (limit : Nat) (c : Cascade) (f : Field Ty) :
    Nat → Option Value → Option Value → Prop
  | kept {levels : Nat} (v : Value) (plain : ∀ inner, c.default? f.name ≠ some (.nested inner)) :
      Fills limit c f levels (some v) none
  | default {levels : Nat} {v : Value} (h : c.default? f.name = some (.value v)) :
      Fills limit c f levels none (some v)
  | nested {levels : Nat} {v? : Option Value} {inner : Cascade} {out : Value}
      (h : c.default? f.name = some (.nested inner))
      (entered : v?.isSome = true ∨ inner.objectDefault?.isSome = true ∨ f.optional = false)
      (resolved : resolveFrom limit levels v? inner = .ok out) :
      Fills limit c f (levels + 1) v? (some out)
  | omitted {levels : Nat} (optional : f.optional = true)
      (h : ∀ d, c.default? f.name = some d →
        ∃ inner, d = .nested inner ∧ inner.objectDefault? = none) :
      Fills limit c f levels none none

section
variable {limit levels : Nat} {c : Cascade} {f : Field Ty} {v? filled? : Option Value}

theorem fills_of_resolveField
    (h : resolveField limit levels f v? c.defaults = .ok filled?) :
    Fills limit c f levels v? filled? := by
  rw [resolveField_eq] at h
  rcases hd : c.default? f.name with _ | ⟨w⟩ | ⟨inner⟩
  · rw [hd] at h
    rcases v? with _ | v
    · cases ho : f.optional with
      | true =>
        rw [ho] at h
        cases h
        exact .omitted ho (by simp [hd])
      | false =>
        rw [ho] at h
        cases h
    · cases h
      exact .kept v (by simp [hd])
  · rw [hd] at h
    rcases v? with _ | v
    · cases h
      exact .default hd
    · cases h
      exact .kept v (by simp [hd])
  · simp only [hd, Bool.or_eq_true, Bool.not_eq_true', or_assoc] at h
    split at h
    next entered =>
      cases levels with
      | zero => cases h
      | succ levels =>
        obtain ⟨out, hout, rfl⟩ := Outcome.map_eq_ok.mp h
        exact .nested hd entered (Outcome.mapError_eq_ok.mp hout)
    next skipped =>
      cases h
      simp only [not_or, Bool.not_eq_true, Option.isSome_eq_false_iff,
        Option.isNone_iff_eq_none, Bool.not_eq_false] at skipped
      obtain ⟨rfl, hn, ho⟩ := skipped
      refine .omitted ho fun d hd' => ⟨inner, ?_, hn⟩
      exact Option.some.inj (hd'.symm.trans hd)

theorem Fills.resolveField_eq_ok (h : Fills limit c f levels v? filled?) :
    resolveField limit levels f v? c.defaults = .ok filled? := by
  rw [resolveField_eq]
  cases h with
  | kept v plain =>
    rcases hd : c.default? f.name with _ | _ | inner
    · rfl
    · rfl
    · exact absurd hd (plain inner)
  | default h => rw [h]; rfl
  | nested h entered resolved =>
    simp only [h, Bool.or_eq_true, Bool.not_eq_true', or_assoc, if_pos entered, resolved]
    rfl
  | omitted optional h =>
    cases hd : c.default? f.name with
    | none => simp [optional]
    | some d =>
      obtain ⟨inner, rfl, hn⟩ := h d hd
      simp [hn, optional]

end

theorem resolveFrom_eq (limit levels : Nat) (supplied? : Option Value) (c : Cascade) :
    resolveFrom limit levels supplied? c =
      (base c.objectDefault? supplied?).bind fun entries =>
        (fillFields (fun f v? => resolveField limit levels f v? c.defaults) c.shape.fields
          entries).map .object := by
  obtain ⟨s, objectDefault?, defaults, o⟩ := c
  rw [resolveFrom]
  cases base objectDefault? supplied? with
  | error e => rfl
  | ok entries =>
    show (fillFields _ _ _ >>= _) = (fillFields _ _ _).map _
    cases fillFields (fun f v? => resolveField limit levels f v? defaults) s.fields entries <;> rfl

theorem resolveFrom_eq_ok {limit levels : Nat} {supplied? : Option Value} {c : Cascade}
    {out : Value} :
    resolveFrom limit levels supplied? c = .ok out ↔
      ∃ entries filled, base c.objectDefault? supplied? = .ok entries ∧
        fillFields (fun f v? => resolveField limit levels f v? c.defaults) c.shape.fields entries =
          .ok filled ∧ out = .object filled := by
  obtain ⟨s, objectDefault?, defaults, o⟩ := c
  simp only [resolveFrom, Outcome.bind_eq_ok, pure, Except.pure, Except.ok.injEq]
  constructor
  · rintro ⟨entries, hbase, filled, hfill, rfl⟩
    exact ⟨entries, filled, hbase, hfill, rfl⟩
  · rintro ⟨entries, filled, hbase, hfill, rfl⟩
    exact ⟨entries, hbase, filled, hfill, rfl⟩

theorem resolveFrom_present? (limit levels : Nat) (supplied? : Option Value) (c : Cascade) :
    resolveFrom limit levels (present? supplied?) c = resolveFrom limit levels supplied? c := by
  rw [resolveFrom_eq, resolveFrom_eq, base_present?]

/-- What was found for each field of a shape, and what the object holds there in the end. -/
theorem exists_fills {limit levels : Nat} {c : Cascade} {entries filled : List (String × Value)}
    (hd : (c.shape.fields.map (·.name)).Nodup)
    (h : fillFields (fun f v? => resolveField limit levels f v? c.defaults) c.shape.fields entries =
      .ok filled) {f : Field Ty} (hf : f ∈ c.shape.fields) :
    ∃ filled?, Fills limit c f levels (present? (entries.lookup f.name)) filled? ∧
      filled.lookup f.name = filled?.or (entries.lookup f.name) := by
  obtain ⟨filled?, hfill, hlookup⟩ := lookup_fillFields hd h hf
  exact ⟨filled?, fills_of_resolveField hfill, hlookup⟩

/-! ## Nested cascades -/

/-- A nested cascade is entered if its field has a value or has to have one, or if it has a
default for the whole. -/
def Entered (f : Field Ty) (inner : Cascade) (v? : Option Value) : Prop :=
  (present? v?).isSome = true ∨ inner.objectDefault?.isSome = true ∨ f.optional = false

/-- A nested cascade that is entered puts in what it resolves to, and else nothing happens to its
field. -/
theorem Fills.of_nested {limit levels : Nat} {c inner : Cascade} {f : Field Ty}
    {v? filled? : Option Value} (h : Fills limit c f levels (present? v?) filled?)
    (hd : c.default? f.name = some (.nested inner)) :
    (Entered f inner v? ∧ ∃ n < levels, ∃ out, resolveFrom limit n v? inner = .ok out ∧
      filled? = some out) ∨
    (¬ Entered f inner v? ∧ present? v? = none ∧ filled? = none) := by
  unfold Entered
  generalize hp : present? v? = p? at h
  cases h with
  | kept v plain => exact absurd hd (plain inner)
  | default hd' => cases hd.symm.trans hd'
  | @nested n _ _ out hd' entered resolved =>
    cases hd.symm.trans hd'
    refine .inl ⟨entered, n, Nat.lt_succ_self n, out, ?_, rfl⟩
    rw [← resolveFrom_present?, hp]
    exact resolved
  | omitted optional hnested =>
    obtain ⟨_, ⟨⟩, hnone⟩ := hnested _ hd
    exact .inr ⟨by simp [hnone, optional], rfl, rfl⟩

mutual
/-- How many cascades are nested one in the other. -/
def height : Cascade → Nat
  | ⟨_, _, defaults, _⟩ => defaultsHeight defaults
termination_by structural c => c
def defaultsHeight : List (String × Default Cascade) → Nat
  | [] => 0
  | (_, .value _) :: defaults => defaultsHeight defaults
  | (_, .nested c) :: defaults => max (c.height + 1) (defaultsHeight defaults)
termination_by structural defaults => defaults
end

theorem height_lt_defaultsHeight {defaults : List (String × Default Cascade)} {name : String}
    {inner : Cascade} (h : (name, .nested inner) ∈ defaults) :
    inner.height < defaultsHeight defaults := by
  induction defaults with
  | nil => cases h
  | cons entry defaults ih =>
    rcases entry with ⟨key, _ | c⟩
    · rw [defaultsHeight]
      rcases List.mem_cons.mp h with h | h
      · cases h
      · exact ih h
    · rw [defaultsHeight]
      rcases List.mem_cons.mp h with h | h
      · cases h
        omega
      · have := ih h
        omega

theorem height_nested_lt {c inner : Cascade} {name : String}
    (h : c.default? name = some (.nested inner)) : inner.height < c.height := by
  obtain ⟨s, objectDefault?, defaults, o⟩ := c
  rw [height]
  exact height_lt_defaultsHeight (Entries.mem_of_lookup h)

end ShapeTyping.Cascade
