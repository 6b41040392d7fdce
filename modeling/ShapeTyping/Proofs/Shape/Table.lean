import ShapeTyping.Entries
import ShapeTyping.Proofs.Shape.Selection
import ShapeTyping.Proofs.Ty.Construction
/-! Fields in a table, each under a key. What can be done with a shape can be done with a table as
well, entry by entry: only building a table asks whether a key is taken, and all else writes over
what is there. Where every field of a shape stands under its name, the table that comes out is that
of the shape that comes out. -/
namespace ShapeTyping

structure FieldTable (τ : Type) where
  entries : List (String × Field τ)

namespace FieldTable

variable {τ : Type}

def keys (m : FieldTable τ) : List String := m.entries.map (·.1)

def fields (m : FieldTable τ) : List (Field τ) := m.entries.map (·.2)

def field? (m : FieldTable τ) (name : String) : Option (Field τ) := m.entries.lookup name

def getField (m : FieldTable τ) (name : String) : Except SchemaError (Field τ) :=
  match m.field? name with
  | some f => .ok f
  | none => .error (.unknownField name)

/-- Writes a field under a key, over the one that is there. -/
def put (m : FieldTable τ) (key : String) (f : Field τ) : FieldTable τ :=
  ⟨Entries.insert key f m.entries⟩

def collect (fs : List (Field τ)) : FieldTable τ := fs.foldl (fun m f => m.put f.name f) ⟨[]⟩

/-- Refuses a field whose key is taken. -/
def add (m : FieldTable τ) (f : Field τ) : Except SchemaError (FieldTable τ) :=
  if (m.field? f.name).isSome then .error (.duplicateField f.name) else .ok (m.put f.name f)

def ofFields (fs : List (Field τ)) : Except SchemaError (FieldTable τ) := fs.foldlM add ⟨[]⟩

def modifyAll (m : FieldTable τ) (modifier : Modifier) (change : Change) : FieldTable τ :=
  collect (m.fields.map fun f => f.modify modifier change)

def remap (m : FieldTable τ) (r : Remapping) : Except SchemaError (FieldTable τ) := do
  let _ ← (r.keys?.getD []).mapM m.getField
  return collect (m.fields.map fun f => f.remap r)

def pick (m : FieldTable τ) (names : List String) : Except SchemaError (FieldTable τ) :=
  names.foldlM (fun picked name => do
    let f ← m.getField name
    return picked.put f.name f) ⟨[]⟩

def without (m : FieldTable τ) (names : List String) : Except SchemaError (FieldTable τ) := do
  let dropped ← names.mapM m.getField
  return collect (m.fields.filter fun f => !(dropped.map (·.name)).contains f.name)

/-- Brings a field in, narrowing the one under its name in place. -/
def meet (o : Options) (m : FieldTable Ty) (r : Field Ty) : Except SchemaError (FieldTable Ty) :=
  match m.field? r.name with
  | some l => do
    let f ← l.meet o r
    return m.put r.name f
  | none => .ok (m.put r.name r)

def intersect (left right : FieldTable Ty) (o : Options) : Except SchemaError (FieldTable Ty) :=
  right.fields.foldlM (meet o) (collect left.fields)

end FieldTable

/-! ## The table of a shape -/

namespace Shape

variable {τ : Type} {s : Shape τ} {fs : List (Field τ)}

def table (s : Shape τ) : FieldTable τ := ⟨s.fields.map fun f => (f.name, f)⟩

theorem keys_table (s : Shape τ) : s.table.keys = s.fields.map (·.name) := by
  simp [table, FieldTable.keys]

theorem fields_table (s : Shape τ) : s.table.fields = s.fields :=
  List.map_map.trans (List.map_id _)

theorem field?_table (s : Shape τ) (name : String) : s.table.field? name = s.field? name := by
  obtain ⟨fields⟩ := s
  unfold table FieldTable.field? field?
  induction fields with
  | nil => rfl
  | cons f fields ih => rw [List.map_cons, List.lookup_cons, List.find?_cons, ih, BEq.comm]

theorem getField_table (s : Shape τ) : s.table.getField = s.getField := by
  funext name
  have hfield := field?_table s name
  unfold FieldTable.getField getField
  generalize s.table.field? name = found at hfield ⊢
  subst hfield
  cases s.field? name <;> rfl

theorem put_table {f : Field τ} (h : s.Lacks f.name) :
    s.table.put f.name f = (Shape.mk (s.fields ++ [f])).table := by
  have hkeys : f.name ∉ s.table.keys := by
    rw [keys_table]
    exact h
  unfold FieldTable.put
  rw [Entries.insert_of_notMem f hkeys]
  simp [table]

theorem collect_concat (fs : List (Field τ)) (f : Field τ) :
    FieldTable.collect (fs ++ [f]) = (FieldTable.collect fs).put f.name f := List.foldl_append

/-- Collecting fields keeps the first place of each name. Those of one name have to be equal, as
otherwise the last one would be kept. -/
theorem collect_eq_firstOfEachName
    (h : ∀ f ∈ fs, ∀ g ∈ fs, f.name = g.name → f = g) :
    FieldTable.collect fs = (Shape.mk (firstOfEachName fs)).table := by
  induction fs using List.reverseRecOn with
  | nil => rfl
  | append_singleton fs f ih =>
    have hmem : f ∈ fs ++ [f] := List.mem_append_right _ (List.mem_singleton_self f)
    have hfs : FieldTable.collect fs = (Shape.mk (firstOfEachName fs)).table :=
      ih fun g hg g' hg' => h g (List.mem_append_left _ hg) g' (List.mem_append_left _ hg')
    rw [collect_concat, hfs, firstOfEachName_concat]
    split
    next htaken =>
      obtain ⟨g, hg⟩ : ∃ g, (Shape.mk (firstOfEachName fs)).field? f.name = some g :=
        Option.isSome_iff_exists.mp (isSome_field?_iff.mpr htaken)
      obtain ⟨hgs, hname⟩ := mem_of_field? hg
      have hgfs : g ∈ fs := mem_of_mem_firstOfEachName hgs
      obtain rfl : g = f := h g (List.mem_append_left _ hgfs) f hmem hname
      unfold FieldTable.put
      rw [Entries.insert_of_lookup ((field?_table _ _).trans hg)]
    next hfree => exact put_table hfree

theorem collect_eq (h : (fs.map (·.name)).Nodup) : FieldTable.collect fs = (Shape.mk fs).table := by
  induction fs using List.reverseRecOn with
  | nil => rfl
  | append_singleton fs f ih =>
    rw [List.map_append, List.nodup_append'] at h
    rw [collect_concat, ih h.1]
    exact put_table fun hmem => h.2.2 hmem (List.mem_singleton_self f.name)

/-! ## Building -/

theorem foldlM_add {seen : List String} (h : ∀ name, name ∈ seen ↔ name ∈ s.fields.map (·.name)) :
    fs.foldlM FieldTable.add s.table =
      (firstRepeat? seen fs).elim (.ok (Shape.mk (s.fields ++ fs)).table)
        fun name => .error (.duplicateField name) := by
  induction fs generalizing s seen with
  | nil =>
    rw [List.append_nil]
    rfl
  | cons f fs ih =>
    have htaken : (s.table.field? f.name).isSome = true ↔ f.name ∈ seen := by
      rw [field?_table, isSome_field?_iff, h]
    rw [List.foldlM_cons, firstRepeat?, FieldTable.add]
    by_cases hf : f.name ∈ seen
    · rw [if_pos (htaken.mpr hf), if_pos hf]
      rfl
    · have hseen : ∀ name, name ∈ f.name :: seen ↔ name ∈ (s.fields ++ [f]).map (·.name) := by
        intro name
        rw [List.mem_cons, h, List.map_append, List.mem_append, or_comm]
        exact or_congr_right List.mem_singleton.symm
      rw [if_neg (mt htaken.mp hf), if_neg hf, put_table (mt (h f.name).mpr hf)]
      refine (ih hseen).trans ?_
      rw [List.append_assoc]
      rfl

theorem ofFields_table (fs : List (Field τ)) :
    FieldTable.ofFields fs = (ofFields fs).map table := by
  have hempty : fs.foldlM FieldTable.add (Shape.mk []).table =
      (firstRepeat? [] fs).elim (.ok (Shape.mk fs).table) fun name =>
        .error (.duplicateField name) := foldlM_add fun _ => Iff.rfl
  refine hempty.trans ?_
  unfold ofFields
  cases firstRepeat? [] fs <;> rfl

/-! ## Changing modifiers -/

theorem names_map {change : Field τ → Field τ} (h : ∀ f, (change f).name = f.name)
    (fs : List (Field τ)) : (fs.map change).map (·.name) = fs.map (·.name) := by
  rw [List.map_map]
  exact List.map_congr_left fun f _ => h f

section
variable (h : (s.fields.map (·.name)).Nodup)
include h

theorem modifyAll_table (modifier : Modifier) (change : Change) :
    s.table.modifyAll modifier change = (s.modifyAll modifier change).table := by
  rw [FieldTable.modifyAll, fields_table]
  exact collect_eq (by rwa [names_map fun f => f.name_modify modifier change])

theorem remap_table (r : Remapping) : s.table.remap r = (s.remap r).map table := by
  have hcollect : FieldTable.collect (s.fields.map fun f => f.remap r) = (s.remapped r).table :=
    collect_eq (by rwa [names_map fun f => f.name_remap r])
  rw [FieldTable.remap, remap, getField_table, fields_table, hcollect]
  cases (r.keys?.getD []).mapM s.getField <;> rfl

/-! ## Selecting fields -/

omit h in
theorem foldlM_put (m : FieldTable τ) (names : List String)
    (get : String → Except SchemaError (Field τ)) :
    (names.foldlM (fun picked name => do
      let f ← get name
      return picked.put f.name f) m) =
    (names.mapM get).map (·.foldl (fun m f => m.put f.name f) m) := by
  induction names generalizing m with
  | nil => rfl
  | cons name names ih =>
    rw [List.foldlM_cons, List.mapM_cons]
    cases get name with
    | error e => rfl
    | ok f =>
      refine (ih _).trans ?_
      cases names.mapM get <;> rfl

theorem pick_table (names : List String) : s.table.pick names = (s.pick names).map table := by
  rw [FieldTable.pick, foldlM_put, getField_table, pick]
  cases hfs : names.mapM s.getField with
  | error e => rfl
  | ok fs =>
    obtain ⟨-, hmem⟩ := mapM_getField_eq_ok hfs
    exact congrArg Except.ok (collect_eq_firstOfEachName fun f hf g hg hn =>
      List.inj_on_of_nodup_map h (hmem f hf) (hmem g hg) hn)

theorem without_table (names : List String) :
    s.table.without names = (s.without names).map table := by
  rw [FieldTable.without, without, getField_table, fields_table]
  cases hfs : names.mapM s.getField with
  | error e => rfl
  | ok fs =>
    obtain ⟨hnames, -⟩ := mapM_getField_eq_ok hfs
    show Except.ok (FieldTable.collect _) = Except.ok _
    rw [hnames, collect_eq (h.sublist (List.filter_sublist.map _))]

end

/-! ## Intersection -/

theorem name_of_meet {o : Options} {l r f : Field Ty} (h : l.meet o r = .ok f) :
    f.name = l.name := by
  unfold Field.meet at h
  split at h
  · cases h
    rfl
  · split at h
    · cases h
      rfl
    · cases h

section
variable (o : Options)

/-- A field is brought in behind a field of another name as if that were not there. -/
theorem meet_table_cons {l r : Field Ty} (hn : l.name ≠ r.name) (ls : List (Field Ty)) :
    (Shape.mk (l :: ls)).table.meet o r =
      ((Shape.mk ls).table.meet o r).map fun m => ⟨(l.name, l) :: m.entries⟩ := by
  have hput : ∀ f, (Shape.mk (l :: ls)).table.put r.name f =
      ⟨(l.name, l) :: ((Shape.mk ls).table.put r.name f).entries⟩ := fun f =>
    congrArg FieldTable.mk (if_neg (by simpa using hn))
  unfold FieldTable.meet
  rw [field?_table, field?_table, field?_cons, if_neg hn]
  cases (Shape.mk ls).field? r.name with
  | none => exact congrArg Except.ok (hput r)
  | some l' =>
    show l'.meet o r >>= _ = (l'.meet o r >>= _).map _
    cases l'.meet o r with
    | error e => rfl
    | ok f => exact congrArg Except.ok (hput f)

theorem meet_table (ls : List (Field Ty)) (r : Field Ty) :
    (Shape.mk ls).table.meet o r = (r.meetIn o ls).map fun fs => (Shape.mk fs).table := by
  induction ls with
  | nil => rfl
  | cons l ls ih =>
    by_cases hn : l.name = r.name
    · rw [Field.meetIn, if_pos (beq_iff_eq.mpr hn), FieldTable.meet, field?_table, field?_cons,
        if_pos hn]
      show l.meet o r >>= _ = (l.meet o r >>= _).map _
      cases hf : l.meet o r with
      | error e => rfl
      | ok f =>
        -- The key stays, and it is the name of the field that takes the place.
        have hput : (Shape.mk (l :: ls)).table.put r.name f = (Shape.mk (f :: ls)).table := by
          refine congrArg FieldTable.mk ((if_pos (beq_iff_eq.mpr hn)).trans ?_)
          rw [← name_of_meet hf]
          rfl
        exact congrArg Except.ok hput
    · rw [meet_table_cons o hn, ih, Field.meetIn, if_neg (mt beq_iff_eq.mp hn)]
      cases r.meetIn o ls <;> rfl

theorem foldlM_meet (ls rs : List (Field Ty)) :
    rs.foldlM (FieldTable.meet o) (Shape.mk ls).table =
      (rs.foldlM (fun fields (r : Field Ty) => r.meetIn o fields) ls).map fun fs =>
        (Shape.mk fs).table := by
  induction rs generalizing ls with
  | nil => rfl
  | cons r rs ih =>
    rw [List.foldlM_cons, List.foldlM_cons, meet_table]
    cases r.meetIn o ls with
    | error e => rfl
    | ok fs => exact ih fs

theorem intersect_table {a : Shape Ty} (h : (a.fields.map (·.name)).Nodup) (b : Shape Ty) :
    a.table.intersect b.table o = (a.intersect b o).map table := by
  rw [FieldTable.intersect, fields_table, fields_table, collect_eq h, foldlM_meet, intersect]
  cases b.fields.foldlM (fun fields r => r.meetIn o fields) a.fields <;> rfl

end
end Shape
end ShapeTyping
