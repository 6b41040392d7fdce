import ShapeTyping.Proofs.Shape.Table
/-! Shapes that come from built ones by any number of steps. No two of their fields have one name,
so that a field is found by its name, and no step makes up a type: a field has the type that a
field of its name has in the shape at the start, or in an operand of an intersection. Kept in a
table, each field stands under its name. -/
namespace ShapeTyping

/-- What can be done with a shape. The other operand of an intersection is given by its fields. -/
inductive ShapeStep where
  | modifyAll (modifier : Modifier) (change : Change)
  | modify (names : List String) (modifier : Modifier) (change : Change)
  | remap (r : Remapping)
  | pick (names : List String)
  | without (names : List String)
  /-- The other operand is on the right. -/
  | meet (other : List (Field Ty)) (o : Options)
  /-- The other operand is on the left. -/
  | meetInto (other : List (Field Ty)) (o : Options)

def ShapeStep.operand : ShapeStep → List (Field Ty)
  | .meet other _ | .meetInto other _ => other
  | _ => []

def FieldTable.take (m : FieldTable Ty) : ShapeStep → Except SchemaError (FieldTable Ty)
  | .modifyAll modifier change => .ok (m.modifyAll modifier change)
  | .modify names modifier change => m.remap (.single (some names) change modifier)
  | .remap r => m.remap r
  | .pick names => m.pick names
  | .without names => m.without names
  | .meet other o => do
    let right ← FieldTable.ofFields other
    m.intersect right o
  | .meetInto other o => do
    let left ← FieldTable.ofFields other
    left.intersect m o

def FieldTable.run (m : FieldTable Ty) (steps : List ShapeStep) :
    Except SchemaError (FieldTable Ty) := steps.foldlM take m

theorem Field.type_modify (f : Field Ty) (m : Modifier) (change : Change) :
    (f.modify m change).type = f.type := by
  cases m <;> rfl

theorem Field.type_remap (f : Field Ty) (r : Remapping) : (f.remap r).type = f.type := by
  unfold remap
  split <;> rfl

theorem MeetAt.type_eq {o : Options} {l? r? : Option (Field Ty)} {f : Field Ty}
    (h : MeetAt o l? r? (some f)) :
    (∃ l, l? = some l ∧ l.type = f.type) ∨ ∃ r, r? = some r ∧ r.type = f.type := by
  cases h with
  | left => exact .inl ⟨f, rfl, rfl⟩
  | right => exact .inr ⟨f, rfl, rfl⟩
  | both h =>
    rcases h.type with ⟨htype, -⟩ | ⟨htype, -⟩
    · exact .inr ⟨_, rfl, htype.symm⟩
    · exact .inl ⟨_, rfl, htype.symm⟩

namespace Shape

def take (s : Shape Ty) : ShapeStep → Except SchemaError (Shape Ty)
  | .modifyAll modifier change => .ok (s.modifyAll modifier change)
  | .modify names modifier change => s.modify names modifier change
  | .remap r => s.remap r
  | .pick names => s.pick names
  | .without names => s.without names
  | .meet other o => do
    let right ← ofFields other
    s.intersect right o
  | .meetInto other o => do
    let left ← ofFields other
    left.intersect s o

def run (s : Shape Ty) (steps : List ShapeStep) : Except SchemaError (Shape Ty) :=
  steps.foldlM take s

/-! ## The first name that repeats an earlier one -/

section
variable {τ : Type} {fs : List (Field τ)}

theorem firstRepeat?_eq_some_iff {seen : List String} {name : String} :
    firstRepeat? seen fs = some name ↔
      ∃ before f after, fs = before ++ f :: after ∧ firstRepeat? seen before = none ∧
        (f.name ∈ seen ∨ f.name ∈ before.map (·.name)) ∧ name = f.name := by
  induction fs generalizing seen with
  | nil => simp [firstRepeat?]
  | cons g fs ih =>
    rw [firstRepeat?]
    by_cases hg : g.name ∈ seen
    · rw [if_pos hg, Option.some.injEq]
      constructor
      · rintro rfl
        exact ⟨[], g, fs, rfl, rfl, .inl hg, rfl⟩
      · rintro ⟨before, f, after, hfs, hnone, -, rfl⟩
        cases before with
        | nil => cases hfs; rfl
        | cons g' before =>
          cases hfs
          rw [firstRepeat?, if_pos hg] at hnone
          cases hnone
    · rw [if_neg hg, ih]
      constructor
      · rintro ⟨before, f, after, rfl, hnone, hmem, rfl⟩
        refine ⟨g :: before, f, after, rfl, ?_, ?_, rfl⟩
        · rw [firstRepeat?, if_neg hg, hnone]
        · rw [List.map_cons, List.mem_cons]
          rw [List.mem_cons] at hmem
          tauto
      · rintro ⟨before, f, after, hfs, hnone, hmem, rfl⟩
        cases before with
        | nil =>
          cases hfs
          rcases hmem with hmem | hmem
          · exact absurd hmem hg
          · cases hmem
        | cons g' before =>
          cases hfs
          rw [firstRepeat?, if_neg hg] at hnone
          refine ⟨before, f, after, rfl, hnone, ?_, rfl⟩
          rw [List.map_cons, List.mem_cons] at hmem
          rw [List.mem_cons]
          tauto

theorem ofFields_eq_error_iff {e : SchemaError} :
    ofFields fs = .error e ↔
      ∃ before f after, fs = before ++ f :: after ∧ (before.map (·.name)).Nodup ∧
        f.name ∈ before.map (·.name) ∧ e = .duplicateField f.name := by
  have hfails : ofFields fs = .error e ↔
      ∃ name, firstRepeat? [] fs = some name ∧ e = .duplicateField name := by
    unfold ofFields
    cases firstRepeat? [] fs <;> simp [eq_comm]
  rw [hfails]
  constructor
  · rintro ⟨name, hname, rfl⟩
    obtain ⟨before, f, after, hfs, hnone, hmem, rfl⟩ := firstRepeat?_eq_some_iff.mp hname
    exact ⟨before, f, after, hfs, (firstRepeat?_eq_none_iff.mp hnone).1,
      hmem.resolve_left List.not_mem_nil, rfl⟩
  · rintro ⟨before, f, after, hfs, hnodup, hmem, rfl⟩
    have hnone : firstRepeat? [] before = none :=
      firstRepeat?_eq_none_iff.mpr ⟨hnodup, fun _ _ => List.not_mem_nil⟩
    exact ⟨f.name,
      firstRepeat?_eq_some_iff.mpr ⟨before, f, after, hfs, hnone, .inr hmem, rfl⟩, rfl⟩

/-- Of the fields with one name one is left. -/
theorem nodup_firstOfEachName (fs : List (Field τ)) :
    ((firstOfEachName fs).map (·.name)).Nodup := by
  refine List.pairwise_map.mpr ((pairwise_firstOfEachName fs).imp fun {f g} hlt hfg => ?_)
  rw [hfg] at hlt
  exact Nat.lt_irrefl _ hlt

end

/-! ## One step -/

/-- No name is twice in `t`, and each of its fields has the name and the type of a field of `s` or
of one among `others`. -/
structure Derives (s : Shape Ty) (others : List (Field Ty)) (t : Shape Ty) : Prop where
  distinct : (t.fields.map (·.name)).Nodup
  drawn : ∀ f ∈ t.fields, ∃ g ∈ s.fields ++ others, g.name = f.name ∧ g.type = f.type

variable {s t u : Shape Ty} {others others' : List (Field Ty)}

theorem Derives.of_subset (h : (t.fields.map (·.name)).Nodup) (hsub : t.fields ⊆ s.fields) :
    Derives s [] t :=
  ⟨h, fun f hf => ⟨f, List.mem_append_left _ (hsub hf), rfl, rfl⟩⟩

theorem Derives.refl (h : (s.fields.map (·.name)).Nodup) : Derives s [] s :=
  .of_subset h (List.Subset.refl _)

theorem Derives.trans (h : Derives s others t) (h' : Derives t others' u) :
    Derives s (others ++ others') u := by
  refine ⟨h'.distinct, fun f hf => ?_⟩
  obtain ⟨g, hg, hname, htype⟩ := h'.drawn f hf
  rw [← List.append_assoc]
  rcases List.mem_append.mp hg with hg | hg
  · obtain ⟨g', hg', hname', htype'⟩ := h.drawn g hg
    exact ⟨g', List.mem_append_left _ hg', hname'.trans hname, htype'.trans htype⟩
  · exact ⟨g, List.mem_append_right _ hg, hname, htype⟩

/-- A step that changes fields but leaves names and types as they are. -/
theorem Derives.of_map {change : Field Ty → Field Ty}
    (hname : ∀ f, (change f).name = f.name) (htype : ∀ f, (change f).type = f.type)
    (h : (s.fields.map (·.name)).Nodup) : Derives s [] ⟨s.fields.map change⟩ := by
  constructor
  · rwa [names_map hname]
  · intro f hf
    obtain ⟨g, hg, rfl⟩ := List.mem_map.mp hf
    exact ⟨g, List.mem_append_left _ hg, (hname g).symm, (htype g).symm⟩

theorem drawn_intersect {o : Options} {a b c : Shape Ty} (ha : (a.fields.map (·.name)).Nodup)
    (hb : (b.fields.map (·.name)).Nodup) (h : a.intersect b o = .ok c) {f : Field Ty}
    (hf : f ∈ c.fields) :
    ∃ g, (g ∈ a.fields ∨ g ∈ b.fields) ∧ g.name = f.name ∧ g.type = f.type := by
  obtain ⟨hc, hmeet⟩ := intersect_eq_ok ha hb h
  have hat := hmeet f.name
  rw [field?_of_mem hc hf] at hat
  rcases hat.type_eq with ⟨l, hl, htype⟩ | ⟨r, hr, htype⟩
  · obtain ⟨hl, hname⟩ := mem_of_field? hl
    exact ⟨l, .inl hl, hname, htype⟩
  · obtain ⟨hr, hname⟩ := mem_of_field? hr
    exact ⟨r, .inr hr, hname, htype⟩

theorem derives_of_take {step : ShapeStep} (hs : (s.fields.map (·.name)).Nodup)
    (h : s.take step = .ok t) : Derives s step.operand t := by
  cases step with
  | modifyAll modifier change =>
    cases h
    exact .of_map (fun f => f.name_modify modifier change) (fun f => f.type_modify modifier change)
      hs
  | modify names modifier change =>
    obtain rfl := eq_remapped h
    exact .of_map (fun f => f.name_remap _) (fun f => f.type_remap _) hs
  | remap r =>
    obtain rfl := eq_remapped h
    exact .of_map (fun f => f.name_remap r) (fun f => f.type_remap r) hs
  | pick names =>
    obtain ⟨fs, hfs, hp⟩ := Outcome.bind_eq_ok.mp h
    obtain rfl := Outcome.pure_eq_ok.mp hp
    refine .of_subset (nodup_firstOfEachName fs) fun f hf => ?_
    exact (mapM_getField_eq_ok hfs).2 f (mem_of_mem_firstOfEachName hf)
  | without names =>
    obtain ⟨_, -, hw⟩ := Outcome.bind_eq_ok.mp h
    obtain rfl := Outcome.pure_eq_ok.mp hw
    have hsub : List.Sublist (s.fields.filter fun f => !names.contains f.name) s.fields :=
      List.filter_sublist
    exact .of_subset (hs.sublist (hsub.map _)) hsub.subset
  | meet other o =>
    obtain ⟨right, hright, hmeet⟩ := Outcome.bind_eq_ok.mp h
    obtain ⟨hother, rfl⟩ := ofFields_eq_ok_iff.mp hright
    refine ⟨(intersect_eq_ok hs hother hmeet).1, fun f hf => ?_⟩
    obtain ⟨g, hg, hlike⟩ := drawn_intersect hs hother hmeet hf
    exact ⟨g, List.mem_append.mpr hg, hlike⟩
  | meetInto other o =>
    obtain ⟨left, hleft, hmeet⟩ := Outcome.bind_eq_ok.mp h
    obtain ⟨hother, rfl⟩ := ofFields_eq_ok_iff.mp hleft
    refine ⟨(intersect_eq_ok hother hs hmeet).1, fun f hf => ?_⟩
    obtain ⟨g, hg, hlike⟩ := drawn_intersect hother hs hmeet hf
    exact ⟨g, List.mem_append.mpr hg.symm, hlike⟩

theorem take_table (hs : (s.fields.map (·.name)).Nodup) (step : ShapeStep) :
    s.table.take step = (s.take step).map table := by
  cases step with
  | modifyAll modifier change => exact congrArg Except.ok (modifyAll_table hs modifier change)
  | modify names modifier change => exact remap_table hs _
  | remap r => exact remap_table hs r
  | pick names => exact pick_table hs names
  | without names => exact without_table hs names
  | meet other o =>
    rw [FieldTable.take, take, ofFields_table]
    cases ofFields other with
    | error e => rfl
    | ok right => exact intersect_table o hs right
  | meetInto other o =>
    rw [FieldTable.take, take, ofFields_table]
    cases hleft : ofFields other with
    | error e => rfl
    | ok left =>
      -- It is the left operand that is collected into a table anew, and it has just been built.
      obtain ⟨hother, rfl⟩ := ofFields_eq_ok_iff.mp hleft
      exact intersect_table o hother s

/-! ## Any number of steps -/

theorem derives_of_run {steps : List ShapeStep} (hs : (s.fields.map (·.name)).Nodup)
    (h : s.run steps = .ok t) : Derives s (steps.flatMap ShapeStep.operand) t := by
  induction steps generalizing s with
  | nil =>
    obtain rfl := Outcome.pure_eq_ok.mp h
    exact .refl hs
  | cons step steps ih =>
    obtain ⟨u, hu, hrest⟩ := Outcome.bind_eq_ok.mp h
    -- The names are distinct before the rest of the run because the first step keeps them so.
    have hstep := derives_of_take hs hu
    exact hstep.trans (ih hstep.distinct hrest)

theorem run_table (hs : (s.fields.map (·.name)).Nodup) (steps : List ShapeStep) :
    s.table.run steps = (s.run steps).map table := by
  induction steps generalizing s with
  | nil => rfl
  | cons step steps ih =>
    unfold FieldTable.run run
    rw [List.foldlM_cons, List.foldlM_cons, take_table hs]
    cases hstep : s.take step with
    | error e => rfl
    | ok u => exact ih (derives_of_take hs hstep).distinct

theorem ofFields_run_table (fields : List (Field Ty)) (steps : List ShapeStep) :
    (do let m ← FieldTable.ofFields fields; m.run steps) =
      Except.map table (do let s ← ofFields fields; s.run steps) := by
  rw [ofFields_table]
  cases hs : ofFields fields with
  | error e => rfl
  | ok s =>
    obtain ⟨hnodup, rfl⟩ := ofFields_eq_ok_iff.mp hs
    exact run_table hnodup steps

/-- Fields make a shape unless one of them has the name of an earlier one, and the first such name
is reported. What steps then lead to is the same in a table as in a shape. Each field stands under
its own name and is found by it, no two under one, and its type is that of the field of its name at
the start or in an operand of an intersection. -/
theorem derived_fields_by_name (fields : List (Field Ty)) (steps : List ShapeStep) :
    (∀ s, ofFields fields = .ok s ↔ (fields.map (·.name)).Nodup ∧ s = ⟨fields⟩) ∧
    (∀ e, ofFields fields = .error e ↔
      ∃ before f after, fields = before ++ f :: after ∧ (before.map (·.name)).Nodup ∧
        f.name ∈ before.map (·.name) ∧ e = .duplicateField f.name) ∧
    (do let m ← FieldTable.ofFields fields; m.run steps) =
      Except.map table (do let s ← ofFields fields; s.run steps) ∧
    ∀ s t, ofFields fields = .ok s → s.run steps = .ok t →
      ∃ m, (do let m₀ ← FieldTable.ofFields fields; m₀.run steps) = .ok m ∧
        m.fields = t.fields ∧ m.keys.Nodup ∧ (∀ entry ∈ m.entries, entry.1 = entry.2.name) ∧
        (∀ name, m.field? name = t.field? name) ∧
        (∀ name f, t.field? name = some f ↔ f ∈ t.fields ∧ f.name = name) ∧
        ∀ f ∈ t.fields, (∃ g, s.field? f.name = some g ∧ g.type = f.type) ∨
          ∃ step ∈ steps, ∃ g ∈ step.operand, g.name = f.name ∧ g.type = f.type := by
  refine ⟨fun s => ofFields_eq_ok_iff, fun e => ofFields_eq_error_iff,
    ofFields_run_table fields steps, fun s t hs ht => ?_⟩
  obtain ⟨hnodup, rfl⟩ := ofFields_eq_ok_iff.mp hs
  have hderives := derives_of_run hnodup ht
  refine ⟨t.table, ?_, fields_table t, ?_, ?_, field?_table t,
    fun name f => field?_eq_some_iff hderives.distinct, fun f hf => ?_⟩
  · rw [ofFields_run_table, hs]
    exact congrArg (Except.map table) ht
  · rw [keys_table]
    exact hderives.distinct
  · intro entry hentry
    obtain ⟨f, -, rfl⟩ := List.mem_map.mp hentry
    rfl
  · obtain ⟨g, hg, hname, htype⟩ := hderives.drawn f hf
    rcases List.mem_append.mp hg with hg | hg
    · exact .inl ⟨g, (field?_eq_some_iff hnodup).mpr ⟨hg, hname⟩, htype⟩
    · obtain ⟨step, hstep, hg⟩ := List.mem_flatMap.mp hg
      exact .inr ⟨step, hstep, g, hg, hname, htype⟩

/-- A field is picked twice, and then met with narrower fields on either side. -/
theorem derived_fields_by_name_entry :
    let id : Field Ty := ⟨"id", false, false, .intrinsic .string⟩
    let size : Field Ty := ⟨"size", true, false, .intrinsic .unknown⟩
    let start : Shape Ty := ⟨[id, size, ⟨"tag", false, true, .intrinsic .boolean⟩]⟩
    let steps : List ShapeStep := [.pick ["size", "id", "size"], .modifyAll .readonly .add,
      .meet [⟨"note", true, false, .intrinsic .string⟩,
        ⟨"size", false, false, .intrinsic .number⟩] {}, .without ["id"], .meetInto [id] {}]
    let last : Shape Ty := ⟨[id, ⟨"size", false, true, .intrinsic .number⟩,
      ⟨"note", true, false, .intrinsic .string⟩]⟩
    ofFields start.fields = .ok start ∧ start.run steps = .ok last ∧
      (∃ m, (do let m₀ ← FieldTable.ofFields start.fields; m₀.run steps) = .ok m ∧
        m.fields = last.fields ∧ m.keys.Nodup ∧ m.field? "size" = last.field? "size") ∧
      ofFields [id, size, size, id] = .error (.duplicateField "size") := by
  intro id size start steps last
  obtain ⟨hok, -, -, hrun⟩ := derived_fields_by_name start.fields steps
  have hstart : ofFields start.fields = .ok start := (hok start).mpr ⟨by decide, rfl⟩
  have hlast : start.run steps = .ok last := rfl
  obtain ⟨m, hm, hfields, hkeys, -, hfield, -⟩ := hrun start last hstart hlast
  obtain ⟨-, herror, -⟩ := derived_fields_by_name [id, size, size, id] []
  have hrepeat : ofFields [id, size, size, id] = .error (.duplicateField "size") :=
    (herror _).mpr ⟨[id, size], size, [id], rfl, by decide, by decide, rfl⟩
  exact ⟨hstart, hlast, ⟨m, hm, hfields, hkeys, hfield "size"⟩, hrepeat⟩

end Shape
end ShapeTyping
