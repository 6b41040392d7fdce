import ShapeTyping.Proofs.Cascade.Addition
import ShapeTyping.Proofs.Cascade.Resolution
import ShapeTyping.Proofs.Cascade.Telling
/-! Resolution only adds, and only where it may. The keys of the object it starts from stay in
their places, new ones come after them in the order in which the shape declares them, and a value
changes only in a field that was absent or that has a cascade of its own. There the same
holds one level further in. -/
namespace ShapeTyping.Cascade

/-! ## Keys -/

/-- The names of the fields that are in the second object and not in the first, in the order of
the fields. -/
def newNames (fs : List (Field Ty)) (entries out : List (String × Value)) : List String :=
  (fs.filter fun f => (entries.lookup f.name).isNone && (out.lookup f.name).isSome).map (·.name)

section
variable {fs : List (Field Ty)} {entries next out : List (String × Value)}

theorem newNames_cons (f : Field Ty) (fs : List (Field Ty)) (entries out : List (String × Value)) :
    newNames (f :: fs) entries out =
      if (entries.lookup f.name).isNone && (out.lookup f.name).isSome then
        f.name :: newNames fs entries out
      else newNames fs entries out := by
  unfold newNames
  rw [List.filter_cons]
  split <;> rfl

theorem newNames_congr (h : ∀ f ∈ fs, next.lookup f.name = entries.lookup f.name) :
    newNames fs next out = newNames fs entries out := by
  unfold newNames
  rw [List.filter_congr fun f hf => by rw [h f hf]]

theorem not_mem_keys_of_mem_newNames {name : String} (h : name ∈ newNames fs entries out) :
    name ∉ entries.map (·.1) := by
  obtain ⟨f, hf, rfl⟩ := List.mem_map.mp h
  obtain ⟨-, hnew⟩ := List.mem_filter.mp hf
  rw [Bool.and_eq_true, Option.isNone_iff_eq_none] at hnew
  exact Entries.lookup_eq_none_iff.mp hnew.1

theorem nodup_newNames (hd : (fs.map (·.name)).Nodup) : (newNames fs entries out).Nodup :=
  hd.sublist (List.filter_sublist.map _)

variable {fill : Field Ty → Option Value → Except ResolveError (Option Value)}

/-- Every field in turn stays away, stays in its place or comes in at the end. -/
theorem keys_fillFields (hd : (fs.map (·.name)).Nodup)
    (h : fillFields fill fs entries = .ok out) :
    out.map (·.1) = entries.map (·.1) ++ newNames fs entries out := by
  induction fs generalizing entries with
  | nil =>
    cases h
    simp [newNames]
  | cons f fs ih =>
    rw [List.map_cons, List.nodup_cons] at hd
    have hother : ∀ g ∈ fs, g.name ≠ f.name :=
      fun g hg hn => hd.1 (hn ▸ List.mem_map_of_mem hg)
    obtain ⟨filled?, -, hrest⟩ := fillFields_cons_eq_ok.mp h
    have hself := lookup_fillFields_of_not_mem hd.1 hrest
    have hkeys := ih hd.2 hrest
    rw [newNames_congr fun g hg => lookup_put_of_ne (hother g hg) filled? entries] at hkeys
    rw [lookup_put_self] at hself
    rw [newNames_cons, hself, hkeys]
    cases filled? with
    | none => cases entries.lookup f.name <;> rfl
    | some v =>
      rw [put, Entries.keys_insert]
      by_cases hmem : f.name ∈ entries.map (·.1)
      · have hsome : entries.lookup f.name ≠ none := fun hn => Entries.lookup_eq_none_iff.mp hn hmem
        rw [if_pos hmem, Option.isNone_eq_false_iff.mpr (Option.isSome_iff_ne_none.mpr hsome)]
        rfl
      · rw [if_neg hmem, Entries.lookup_eq_none_iff.mpr hmem, List.append_assoc]
        rfl

theorem nodup_keys_fillFields (hd : (fs.map (·.name)).Nodup)
    (h : fillFields fill fs entries = .ok out) (hkeys : (entries.map (·.1)).Nodup) :
    (out.map (·.1)).Nodup := by
  rw [keys_fillFields hd h]
  exact hkeys.append (nodup_newNames hd) fun name hold hnew =>
    not_mem_keys_of_mem_newNames hnew hold

end

/-! ## One field -/

section
variable {limit levels : Nat} {c : Cascade} {f : Field Ty} {v? filled? : Option Value}

theorem Fills.eq_none_of_plain {v : Value} (h : Fills limit c f levels (some v) filled?)
    (plain : ∀ inner, c.default? f.name ≠ some (.nested inner)) : filled? = none := by
  cases h with
  | kept => rfl
  | nested hd _ _ => exact absurd hd (plain _)

theorem Fills.eq_default {v : Value} (h : Fills limit c f levels none filled?)
    (hd : c.default? f.name = some (.value v)) : filled? = some v := by
  cases h with
  | default hd' =>
    cases hd.symm.trans hd'
    rfl
  | nested hd' _ _ => cases hd.symm.trans hd'
  | omitted _ hnested =>
    obtain ⟨inner, hinner, -⟩ := hnested _ hd
    cases hinner

theorem Fills.eq_none_of_unentered (h : Fills limit c f levels (present? v?) filled?)
    (absent : present? v? = none) (novalue : ∀ v, c.default? f.name ≠ some (.value v))
    (unentered : ∀ inner, c.default? f.name = some (.nested inner) → ¬ Entered f inner v?) :
    filled? = none := by
  rcases hd : c.default? f.name with _ | v | inner
  · rw [absent] at h
    cases h with
    | default hd' => cases hd.symm.trans hd'
    | nested hd' _ _ => cases hd.symm.trans hd'
    | omitted => rfl
  · exact absurd hd (novalue v)
  · rcases h.of_nested hd with ⟨entered, -⟩ | ⟨-, -, hnone⟩
    · exact absurd entered (unentered inner hd)
    · exact hnone

end

/-! ## One level -/

/-- What one level of resolution leaves as it was and what it adds. For a nested cascade that is
entered there is a value, and which one is a matter of the next level. -/
structure FrameAt (c : Cascade) (entries out : List (String × Value)) : Prop where
  keys : out.map (·.1) = entries.map (·.1) ++ newNames c.shape.fields entries out
  distinct : (entries.map (·.1)).Nodup → (out.map (·.1)).Nodup
  undeclared : ∀ name, c.shape.field? name = none → out.lookup name = entries.lookup name
  kept : ∀ f ∈ c.shape.fields, ∀ v, present? (entries.lookup f.name) = some v →
    (∀ inner, c.default? f.name ≠ some (.nested inner)) → out.lookup f.name = some v
  default : ∀ f ∈ c.shape.fields, present? (entries.lookup f.name) = none →
    ∀ v, c.default? f.name = some (.value v) → out.lookup f.name = some v
  omitted : ∀ f ∈ c.shape.fields, present? (entries.lookup f.name) = none →
    (∀ v, c.default? f.name ≠ some (.value v)) →
    (∀ inner, c.default? f.name = some (.nested inner) → ¬ Entered f inner (entries.lookup f.name)) →
    out.lookup f.name = entries.lookup f.name
  entered : ∀ f ∈ c.shape.fields, ∀ inner, c.default? f.name = some (.nested inner) →
    Entered f inner (entries.lookup f.name) → ∃ w, out.lookup f.name = some w

theorem frameAt_of_fillFields {limit levels : Nat} {c : Cascade}
    {entries out : List (String × Value)} (hd : (c.shape.fields.map (·.name)).Nodup)
    (h : fillFields (fun f v? => resolveField limit levels f v? c.defaults) c.shape.fields entries =
      .ok out) : FrameAt c entries out where
  keys := keys_fillFields hd h
  distinct := nodup_keys_fillFields hd h
  undeclared name hname := by
    refine lookup_fillFields_of_not_mem (fun hmem => ?_) h
    obtain ⟨f, hf, hn⟩ := List.mem_map.mp hmem
    exact Shape.field?_eq_none_iff.mp hname f hf hn
  kept f hf v hv plain := by
    obtain ⟨filled?, hfills, hlookup⟩ := exists_fills hd h hf
    rw [hv] at hfills
    rw [hlookup, hfills.eq_none_of_plain plain]
    exact (present?_eq_some.mp hv).1
  default f hf absent v hv := by
    obtain ⟨filled?, hfills, hlookup⟩ := exists_fills hd h hf
    rw [absent] at hfills
    rw [hlookup, hfills.eq_default hv]
    rfl
  omitted f hf absent novalue unentered := by
    obtain ⟨filled?, hfills, hlookup⟩ := exists_fills hd h hf
    rw [hlookup, hfills.eq_none_of_unentered absent novalue unentered]
    rfl
  entered f hf inner hinner hentered := by
    obtain ⟨filled?, hfills, hlookup⟩ := exists_fills hd h hf
    rcases hfills.of_nested hinner with ⟨-, _, -, w, -, rfl⟩ | ⟨hno, -⟩
    · exact ⟨w, hlookup⟩
    · exact absurd hentered hno

/-! ## All levels -/

/-- What resolution leaves as it was and what it adds, level by level. A nested cascade that is
entered starts from what is under the name of its field. -/
inductive Frame : Cascade → Option Value → Value → Prop
  | mk {c : Cascade} {supplied? : Option Value} {entries out : List (String × Value)}
      (start : c.effective supplied? = .object entries) (level : FrameAt c entries out)
      (nested : ∀ f ∈ c.shape.fields, ∀ inner, c.default? f.name = some (.nested inner) →
        Entered f inner (entries.lookup f.name) → ∀ w, out.lookup f.name = some w →
        Frame inner (entries.lookup f.name) w) :
      Frame c supplied? (.object out)

theorem Built.frame_resolveFrom {limit levels : Nat} {c : Cascade} (hc : Built c)
    {supplied? : Option Value} {out : Value}
    (h : resolveFrom limit levels supplied? c = .ok out) : Frame c supplied? out := by
  -- Every cascade nested in another is entered with fewer levels left.
  induction levels using Nat.strongRecOn generalizing c supplied? out with
  | ind levels ih =>
    obtain ⟨entries, filled, hbase, hfill, rfl⟩ := resolveFrom_eq_ok.mp h
    have hstart := (base_eq_ok_iff fun v hv => hc.exists_entries hv).mp hbase
    have hlevel := frameAt_of_fillFields hc.wellFormed.proper hfill
    refine .mk hstart hlevel fun f hf inner hinner hentered w hw => ?_
    obtain ⟨filled?, hfills, hlookup⟩ := exists_fills hc.wellFormed.proper hfill hf
    rcases hfills.of_nested hinner with ⟨-, n, hn, w', hresolved, rfl⟩ | ⟨hno, -⟩
    · obtain rfl : w' = w := Option.some.inj (hlookup.symm.trans hw)
      exact ih n hn (hc.nested hinner).1 hresolved
    · exact absurd hentered hno

/-- Resolution keeps every key in its place, adds the new ones in the order of the shape, and
touches no value but of fields that are absent or that it resolves one level further in. -/
theorem frame_resolve {c : Cascade} (hc : Built c) (o : Options) (supplied? : Option Value)
    {out : Value} (h : c.apply supplied? o = .ok out) : Frame c supplied? out :=
  hc.frame_resolveFrom (apply_eq_ok_iff.mp h)

/-- A field that the shape does not know, an `undefined` that is filled in place, a field that
comes in at the end and one that a nested cascade fills up in the same way. -/
theorem frame_resolve_socket :
    let supplied : Value := .object [("extra", .null),
      ("socket", .object [("port", .undefined), ("host", .string "a")])]
    let out : Value := .object [("extra", .null),
      ("socket", .object [("port", .string "https"), ("host", .string "a"),
        ("log", .object [("path", .string "log")])]), ("mode", .string "on")]
    Built serverCascade ∧ serverCascade.apply (some supplied) {} = .ok out ∧
      Frame serverCascade (some supplied) out := by
  intro supplied out
  have h : serverCascade.apply (some supplied) {} = .ok out := rfl
  exact ⟨built_serverCascade, h, frame_resolve built_serverCascade {} _ h⟩

end ShapeTyping.Cascade
