import Mathlib.Data.List.Nodup
import ShapeTyping.Proofs.Outcome
import ShapeTyping.Proofs.Ty.WellFormed
import ShapeTyping.Shape.Derived
/-! Modifiers of fields, changed in bulk or by name. The two ways agree where both apply, what one
of them changed the other can undo, and the two modifiers do not get in each other's way. The only
thing that can go wrong is a key that names no field. -/
namespace ShapeTyping

variable {τ : Type}

/-! ## One field -/

/-- Whether a field has the modifier after a change. -/
def Change.sets : Change → Bool
  | .add => true
  | .remove => false

def Change.undo : Change → Change
  | .add => .remove
  | .remove => .add

theorem Change.sets_undo (change : Change) : change.undo.sets = !change.sets := by
  cases change <;> rfl

namespace Remapping

theorem keys?_single (keys? : Option (List String)) (change : Change) (m : Modifier) :
    (single keys? change m).keys? = keys? := by
  cases m <;> rfl

theorem applies_single {names : List String} {change : Change} {m : Modifier} {name : String} :
    (single (some names) change m).applies name = true ↔ name ∈ names := by
  cases m <;> exact List.contains_iff_mem

end Remapping

namespace Field

def has (f : Field τ) : Modifier → Bool
  | .optional => f.optional
  | .readonly => f.readonly

variable {m : Modifier} {change : Change} {f : Field τ}

theorem name_modify (f : Field τ) (m : Modifier) (change : Change) :
    (f.modify m change).name = f.name := by
  cases m <;> rfl

theorem name_remap (f : Field τ) (r : Remapping) : (f.remap r).name = f.name := by
  unfold remap
  split <;> rfl

/-- A change to what is there already changes nothing. -/
theorem modify_eq_self (h : f.has m = change.sets) : f.modify m change = f := by
  obtain ⟨name, optional, readonly, type⟩ := f
  cases m <;> cases change <;> cases h <;> rfl

theorem modify_modify (f : Field τ) (m : Modifier) (change change' : Change) :
    (f.modify m change).modify m change' = f.modify m change' := by
  cases m <;> cases change' <;> rfl

/-- By name a field is changed as in bulk, if its name is among the keys. -/
theorem remap_single (f : Field τ) (keys? : Option (List String)) (change : Change)
    (m : Modifier) :
    f.remap (.single keys? change m) =
      if (Remapping.single keys? change m).applies f.name then f.modify m change else f := by
  cases m <;> rfl

/-- What becomes of one modifier does not depend on the other. -/
theorem remap_remap (f : Field τ) (keys? keys'? : Option (List String))
    (change change' : Change) :
    (f.remap (.single keys? change .optional)).remap (.single keys'? change' .readonly) =
      (f.remap (.single keys'? change' .readonly)).remap (.single keys? change .optional) := by
  by_cases ha : (Remapping.single keys? change .optional).applies f.name = true <;>
    by_cases hb : (Remapping.single keys'? change' .readonly).applies f.name = true <;>
    simp [remap_single, ha, hb, modify]

end Field

/-! ## Keys -/

namespace Shape

variable {s t : Shape τ} {r : Remapping} {keys : List String} {key : String} {e : SchemaError}

/-- No field has the name. -/
def Lacks (s : Shape τ) (name : String) : Prop := name ∉ s.fields.map (·.name)

instance (s : Shape τ) : DecidablePred s.Lacks :=
  fun name => inferInstanceAs (Decidable (name ∉ s.fields.map (·.name)))

theorem getField_of_lacks (h : s.Lacks key) : s.getField key = .error (.unknownField key) := by
  unfold getField
  cases hf : s.field? key with
  | none => rfl
  | some f =>
    obtain ⟨hmem, rfl⟩ := mem_of_field? hf
    exact absurd (List.mem_map_of_mem hmem) h

theorem exists_getField (h : ¬ s.Lacks key) : ∃ f, s.getField key = .ok f := by
  obtain ⟨f, hf⟩ := Option.isSome_iff_exists.mp (isSome_field?_iff.mpr (not_not.mp h))
  exact ⟨f, by rw [getField, hf]⟩

/-- Keys are looked up from left to right up to the first that names no field. -/
theorem mapM_getField_eq_error_iff :
    keys.mapM s.getField = .error e ↔
      ∃ key, keys.find? s.Lacks = some key ∧ e = .unknownField key := by
  induction keys with
  | nil => simp [pure, Except.pure]
  | cons k keys ih =>
    rw [List.mapM_cons]
    by_cases hk : s.Lacks k
    · rw [List.find?_cons_of_pos (by simpa using hk), getField_of_lacks hk]
      simp [bind, Except.bind, eq_comm]
    · obtain ⟨f, hf⟩ := exists_getField hk
      rw [List.find?_cons_of_neg (by simpa using hk), hf, ← ih]
      cases keys.mapM s.getField <;> simp [bind, Except.bind, pure, Except.pure]

theorem exists_mapM_getField_error_iff :
    (∃ e, keys.mapM s.getField = .error e) ↔ ∃ key ∈ keys, s.Lacks key := by
  simp only [mapM_getField_eq_error_iff]
  constructor
  · rintro ⟨_, key, hfind, -⟩
    exact ⟨key, List.mem_of_find?_eq_some hfind, by simpa using List.find?_some hfind⟩
  · rintro ⟨key, hkey, hlacks⟩
    have hsome : (keys.find? s.Lacks).isSome = true :=
      List.find?_isSome.mpr ⟨key, hkey, by simpa using hlacks⟩
    obtain ⟨first, hfirst⟩ := Option.isSome_iff_exists.mp hsome
    exact ⟨_, first, hfirst, rfl⟩

/-- What is done with the fields once all keys are found does not fail. -/
theorem mapM_getField_then_eq_error_iff {β : Type} {finish : List (Field τ) → β} :
    (do
      let fields ← keys.mapM s.getField
      return finish fields) = .error e ↔ keys.mapM s.getField = .error e := by
  cases keys.mapM s.getField <;> simp [bind, Except.bind, pure, Except.pure]

theorem remap_eq_error_iff :
    s.remap r = .error e ↔
      ∃ key, (r.keys?.getD []).find? s.Lacks = some key ∧ e = .unknownField key := by
  rw [remap, mapM_getField_then_eq_error_iff, mapM_getField_eq_error_iff]

theorem exists_remap_error_iff :
    (∃ e, s.remap r = .error e) ↔ ∃ key ∈ r.keys?.getD [], s.Lacks key := by
  simp only [remap, mapM_getField_then_eq_error_iff, exists_mapM_getField_error_iff]

/-! ## All fields -/

/-- The shape with every field changed as a remapping tells. -/
def remapped (s : Shape τ) (r : Remapping) : Shape τ := ⟨s.fields.map (·.remap r)⟩

theorem eq_remapped (h : s.remap r = .ok t) : t = s.remapped r := by
  obtain ⟨_, -, ht⟩ := Outcome.bind_eq_ok.mp h
  exact Outcome.pure_eq_ok.mp ht

theorem remap_eq_ok (h : ∀ key ∈ r.keys?.getD [], ¬ s.Lacks key) :
    s.remap r = .ok (s.remapped r) := by
  cases hr : s.remap r with
  | ok t => rw [eq_remapped hr]
  | error e =>
    obtain ⟨key, hkey, hlacks⟩ := exists_remap_error_iff.mp ⟨e, hr⟩
    exact absurd hlacks (h key hkey)

theorem remapped_eq_modifyAll {keys? : Option (List String)} {change : Change} {m : Modifier}
    (h : ∀ f ∈ s.fields, (Remapping.single keys? change m).applies f.name = true) :
    s.remapped (.single keys? change m) = s.modifyAll m change := by
  unfold remapped modifyAll
  congr 1
  apply List.map_congr_left
  intro f hf
  rw [Field.remap_single, if_pos (h f hf)]

/-- Without keys a remapping is a change in bulk. -/
theorem remap_single_none (s : Shape τ) (m : Modifier) (change : Change) :
    s.remap (.single none change m) = .ok (s.modifyAll m change) := by
  have hkeys : ∀ key ∈ (Remapping.single none change m).keys?.getD [], ¬ s.Lacks key := by
    simp [Remapping.keys?_single]
  rw [remap_eq_ok hkeys, remapped_eq_modifyAll]
  intro f _
  cases m <;> rfl

/-- To name all fields, in whatever order and how often, is a change in bulk as well. -/
theorem modify_eq_modifyAll {names : List String}
    (hnames : ∀ name, name ∈ names ↔ name ∈ s.fields.map (·.name)) (m : Modifier)
    (change : Change) : s.modify names m change = .ok (s.modifyAll m change) := by
  have hkeys : ∀ key ∈ (Remapping.single (some names) change m).keys?.getD [], ¬ s.Lacks key := by
    intro key hkey hlacks
    rw [Remapping.keys?_single] at hkey
    exact hlacks ((hnames key).mp hkey)
  rw [modify, remap_eq_ok hkeys, remapped_eq_modifyAll]
  intro f hf
  exact Remapping.applies_single.mpr ((hnames f.name).mpr (List.mem_map_of_mem hf))

/-! ## Undoing a change -/

/-- A change in bulk is undone on the fields that it changed. The names are distinct, so that no
other field is found under them. -/
theorem modify_undo (hd : (s.fields.map (·.name)).Nodup) {m : Modifier} (change : Change)
    {names : List String}
    (hnames : ∀ name, name ∈ names ↔ ∃ f ∈ s.fields, f.name = name ∧ f.has m = !change.sets) :
    (s.modifyAll m change).modify names m change.undo = .ok s := by
  have hkeys : ∀ key ∈ (Remapping.single (some names) change.undo m).keys?.getD [],
      ¬ (s.modifyAll m change).Lacks key := by
    intro key hkey hlacks
    rw [Remapping.keys?_single] at hkey
    obtain ⟨f, hf, rfl, -⟩ := (hnames key).mp hkey
    apply hlacks
    rw [modifyAll, List.map_map]
    exact List.mem_map.mpr ⟨f, hf, Field.name_modify f m change⟩
  have hfield : ∀ f ∈ s.fields,
      (f.modify m change).remap (.single (some names) change.undo m) = f := by
    intro f hf
    rw [Field.remap_single, Field.name_modify]
    split
    next happlies =>
      obtain ⟨g, hg, hname, hhas⟩ := (hnames f.name).mp (Remapping.applies_single.mp happlies)
      obtain rfl : g = f := List.inj_on_of_nodup_map hd hg hf hname
      rw [Field.modify_modify, Field.modify_eq_self (hhas.trans change.sets_undo.symm)]
    next hother =>
      apply Field.modify_eq_self
      by_contra hne
      apply hother
      apply Remapping.applies_single.mpr
      exact (hnames f.name).mpr ⟨f, hf, rfl, Bool.eq_not.mpr hne⟩
  have hfields : (s.modifyAll m change).remapped (.single (some names) change.undo m) = s := by
    unfold remapped modifyAll
    rw [List.map_map]
    exact congrArg Shape.mk ((List.map_congr_left hfield).trans (List.map_id _))
  rw [modify, remap_eq_ok hkeys, hfields]

/-! ## One change after another -/

theorem lacks_remapped (s : Shape τ) (r : Remapping) (name : String) :
    (s.remapped r).Lacks name ↔ s.Lacks name := by
  unfold Lacks remapped
  simp [Field.name_remap]

/-- One remapping after another. -/
def remapThen (s : Shape τ) (a b : Remapping) : Except SchemaError (Shape τ) := do
  let t ← s.remap a
  t.remap b

/-- Names stay, and so the second remapping finds the keys that it would find without the
first. -/
theorem remapThen_eq (s : Shape τ) (a b : Remapping) :
    s.remapThen a b = (do
      let _ ← s.remap a
      let _ ← s.remap b
      return (s.remapped a).remapped b) := by
  unfold remapThen
  cases ha : s.remap a with
  | error e => rfl
  | ok t =>
    obtain rfl := eq_remapped ha
    show (s.remapped a).remap b = s.remap b >>= fun _ => pure ((s.remapped a).remapped b)
    cases hb : s.remap b with
    | error e =>
      show _ = Except.error e
      rw [remap_eq_error_iff] at hb ⊢
      simpa only [lacks_remapped] using hb
    | ok u =>
      apply remap_eq_ok
      intro key hkey hlacks
      rw [lacks_remapped] at hlacks
      obtain ⟨e, he⟩ := exists_remap_error_iff.mpr ⟨key, hkey, hlacks⟩
      cases hb.symm.trans he

section
variable (s : Shape τ) (keys? keys'? : Option (List String)) (change change' : Change)

theorem remapped_remapped :
    let a := Remapping.single keys? change .optional
    let b := Remapping.single keys'? change' .readonly
    (s.remapped a).remapped b = (s.remapped b).remapped a := by
  intro a b
  unfold remapped
  rw [List.map_map, List.map_map]
  apply congrArg Shape.mk
  apply List.map_congr_left
  intro f _
  exact Field.remap_remap f keys? keys'? change change'

/-- Changes of the two modifiers succeed in one order just if they do in the other, and then come
to the same shape. They also fail alike, unless each of them fails by itself: then the one that
comes first is reported. -/
theorem remapThen_comm :
    let a := Remapping.single keys? change .optional
    let b := Remapping.single keys'? change' .readonly
    (∀ t, s.remapThen a b = .ok t ↔ s.remapThen b a = .ok t) ∧
      ((∃ t, s.remap a = .ok t) ∨ (∃ t, s.remap b = .ok t) →
        s.remapThen a b = s.remapThen b a) := by
  intro a b
  have hfields : (s.remapped a).remapped b = (s.remapped b).remapped a :=
    remapped_remapped s keys? keys'? change change'
  rw [remapThen_eq, remapThen_eq, hfields]
  cases s.remap a <;> cases s.remap b <;> simp [bind, Except.bind]

end

/-- The bulk and the targeted changes of modifiers agree and undo each other, those of different
modifiers commute, and a change by name fails just at the first key that names no field. -/
theorem modifications_agree {s : Shape τ} (hd : (s.fields.map (·.name)).Nodup) (m : Modifier) :
    (∀ change, s.remap (.single none change m) = .ok (s.modifyAll m change) ∧
      ∀ names, (∀ name, name ∈ names ↔ name ∈ s.fields.map (·.name)) →
        s.modify names m change = .ok (s.modifyAll m change)) ∧
    (∀ names, (∀ name, name ∈ names ↔ ∃ f ∈ s.fields, f.name = name ∧ f.has m = true) →
      (s.modifyAll m .remove).modify names m .add = .ok s) ∧
    (∀ names, (∀ name, name ∈ names ↔ ∃ f ∈ s.fields, f.name = name ∧ f.has m = false) →
      (s.modifyAll m .add).modify names m .remove = .ok s) ∧
    (∀ keys? keys'? change change',
      let a := Remapping.single keys? change .optional
      let b := Remapping.single keys'? change' .readonly
      (∀ t, s.remapThen a b = .ok t ↔ s.remapThen b a = .ok t) ∧
        ((∃ t, s.remap a = .ok t) ∨ (∃ t, s.remap b = .ok t) →
          s.remapThen a b = s.remapThen b a)) ∧
    ∀ r keys, r.keys? = some keys →
      ((∃ e, s.remap r = .error e) ↔ ∃ key ∈ keys, s.Lacks key) ∧
      ∀ e, s.remap r = .error e →
        ∃ key, keys.find? s.Lacks = some key ∧ e = .unknownField key := by
  refine ⟨fun change => ⟨remap_single_none s m change, fun names hnames => ?_⟩,
    fun names => modify_undo hd .remove, fun names => modify_undo hd .add, remapThen_comm s,
    fun r keys hkeys => ⟨?_, fun e he => ?_⟩⟩
  · exact modify_eq_modifyAll hnames m change
  · rw [exists_remap_error_iff, hkeys, Option.getD_some]
  · have hfirst := remap_eq_error_iff.mp he
    rwa [hkeys] at hfirst

/-- All names out of order and with one repeated, those of the optional fields and that of the
other one, a key that only the second of two changes gets wrong, and three keys of which two name
no field. -/
theorem modifications_agree_entry :
    let s : Shape Ty := ⟨[⟨"a", true, true, .intrinsic .string⟩,
      ⟨"b", true, false, .intrinsic .number⟩, ⟨"c", false, false, .intrinsic .boolean⟩]⟩
    let stripped : Shape Ty := ⟨[⟨"a", false, true, .intrinsic .string⟩,
      ⟨"b", false, false, .intrinsic .number⟩, ⟨"c", false, false, .intrinsic .boolean⟩]⟩
    let a := Remapping.single (some ["c"]) .add .optional
    let b := Remapping.single (some ["b", "d"]) .add .readonly
    let r : Remapping := ⟨some ["c", "d", "e"], some .add, some .remove⟩
    s.modifyAll .optional .remove = stripped ∧
      s.remap (.single none .remove .optional) = .ok stripped ∧
      s.modify ["c", "a", "b", "a"] .optional .remove = .ok stripped ∧
      stripped.modify ["b", "a", "b"] .optional .add = .ok s ∧
      (s.modifyAll .optional .add).modify ["c"] .optional .remove = .ok s ∧
      s.remapThen a b = s.remapThen b a ∧ s.remap r = .error (.unknownField "d") := by
  intro s stripped a b r
  have hnames : ∀ name, name ∈ ["c", "a", "b", "a"] ↔ name ∈ s.fields.map (·.name) := by
    intro name
    simp only [s, List.map_cons, List.map_nil, List.mem_cons]
    tauto
  have hhad : ∀ name, name ∈ ["b", "a", "b"] ↔
      ∃ f ∈ s.fields, f.name = name ∧ f.has .optional = true := by
    intro name
    simp only [s, List.mem_cons, List.not_mem_nil, or_false, exists_eq_or_imp, exists_eq_left,
      Field.has, and_true, Bool.false_eq_true, and_false]
    tauto
  have hlacked : ∀ name, name ∈ ["c"] ↔
      ∃ f ∈ s.fields, f.name = name ∧ f.has .optional = false := by
    intro name
    simp [s, Field.has, eq_comm (a := name)]
  obtain ⟨hbulk, hrestore, hclear, hcomm, hkeys⟩ :=
    modifications_agree (s := s) (by decide) .optional
  obtain ⟨hnone, hall⟩ := hbulk .remove
  have hfirst : ∃ t, s.remap a = .ok t := ⟨_, rfl⟩
  have hfind : ["c", "d", "e"].find? s.Lacks = some "d" := by decide
  obtain ⟨hfails, hunknown⟩ := hkeys r ["c", "d", "e"] rfl
  obtain ⟨e, he⟩ := hfails.mpr ⟨"d", by decide, by decide⟩
  obtain ⟨key, hkey, rfl⟩ := hunknown e he
  cases hfind.symm.trans hkey
  exact ⟨rfl, hnone, hall _ hnames, hrestore _ hhad, hclear _ hlacked,
    (hcomm _ _ _ _).2 (.inl hfirst), he⟩

-- Two changes that both name an unknown key fail in either order, each with its own key first.
example :
    let s : Shape Ty := ⟨[⟨"a", true, true, .intrinsic .string⟩]⟩
    let a := Remapping.single (some ["x"]) .add .optional
    let b := Remapping.single (some ["y"]) .add .readonly
    s.remapThen a b = .error (.unknownField "x") ∧
      s.remapThen b a = .error (.unknownField "y") := ⟨rfl, rfl⟩

end Shape
end ShapeTyping
