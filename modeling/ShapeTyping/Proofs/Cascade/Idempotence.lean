import ShapeTyping.Proofs.Cascade.Addition
import ShapeTyping.Proofs.Cascade.Resolution
/-! Resolution has nothing to do where it was done before. Once a field is filled, to fill
it again leaves it as it is, whether its value was supplied, is a default or comes from
a nested cascade. -/
namespace ShapeTyping.Cascade

/-! ## Filling fields again -/

section
variable {fill : Field Ty → Option Value → Except ResolveError (Option Value)}
  {fs : List (Field Ty)} {entries out : List (String × Value)}

/-- To fill a field that holds `v?` leaves it as it is. -/
def Settled (fill : Field Ty → Option Value → Except ResolveError (Option Value)) (f : Field Ty)
    (v? : Option Value) : Prop :=
  ∃ filled?, fill f (present? v?) = .ok filled? ∧ filled?.or v? = v?

/-- A field is settled when it has been filled, and it stays settled when another of its
name is. -/
def Settles (fill : Field Ty → Option Value → Except ResolveError (Option Value)) : Prop :=
  ∀ (f g : Field Ty) (v? filled? : Option Value), f.name = g.name →
    f = g ∨ Settled fill f v? → fill g (present? v?) = .ok filled? →
    Settled fill f (filled?.or v?)

theorem Settles.settled (hfill : Settles fill) (h : fillFields fill fs entries = .ok out)
    {f : Field Ty} (hf : f ∈ fs ∨ Settled fill f (entries.lookup f.name)) :
    Settled fill f (out.lookup f.name) := by
  induction fs generalizing entries with
  | nil =>
    cases h
    rcases hf with hf | hf
    · cases hf
    · exact hf
  | cons g fs ih =>
    obtain ⟨filled?, next, hfilled, hself, hother, hrest⟩ := fillFields_cons_lookup h
    apply ih hrest
    by_cases hmem : f ∈ fs
    · exact .inl hmem
    have hf : f = g ∨ Settled fill f (entries.lookup f.name) := by
      rcases hf with hf | hf
      · exact .inl ((List.mem_cons.mp hf).resolve_right hmem)
      · exact .inr hf
    right
    by_cases hname : f.name = g.name
    · rw [← hname] at hfilled hself
      rw [hself]
      exact hfill f g _ filled? hname hf hfilled
    · rw [hother f.name hname]
      exact hf.resolve_left fun hfg => hname (hfg ▸ rfl)

theorem fillFields_of_settled (h : ∀ f ∈ fs, Settled fill f (entries.lookup f.name)) :
    fillFields fill fs entries = .ok entries := by
  induction fs with
  | nil => rfl
  | cons f fs ih =>
    rw [List.forall_mem_cons] at h
    obtain ⟨⟨filled?, hfill, hor⟩, hfs⟩ := h
    refine fillFields_cons_eq_ok.mpr ⟨filled?, hfill, ?_⟩
    cases filled? with
    | none => exact ih hfs
    | some v =>
      have hlookup : entries.lookup f.name = some v := hor.symm
      rw [put, Entries.insert_of_lookup hlookup]
      exact ih hfs

end

/-! ## Resolving again -/

variable {limit levels : Nat} {c : Cascade}

theorem isObject_of_resolveFrom {supplied? : Option Value} {out : Value}
    (h : resolveFrom limit levels supplied? c = .ok out) : ∃ entries, out = .object entries := by
  obtain ⟨-, filled, -, -, hout⟩ := resolveFrom_eq_ok.mp h
  exact ⟨filled, hout⟩

/-- Nested cascades take fewer levels, and for these resolving again changes nothing. -/
theorem settles_resolveField
    (ih : ∀ n < levels, ∀ (inner : Cascade) (v? : Option Value) (out : Value),
      resolveFrom limit n v? inner = .ok out → resolveFrom limit n (some out) inner = .ok out) :
    Settles fun f v? => resolveField limit levels f v? c.defaults := by
  intro f g v? filled? hname hf h
  have hnothing : filled? = none →
      Settled (fun f v? => resolveField limit levels f v? c.defaults) f v? := by
    rintro rfl
    rcases hf with rfl | hf
    · exact ⟨none, h, rfl⟩
    · exact hf
  generalize present? v? = p? at h
  cases fills_of_resolveField h with
  | kept v plain => exact hnothing rfl
  | omitted optional h => exact hnothing rfl
  | @default _ w hd =>
    rw [← hname] at hd
    -- The default may be `undefined`, and then it is put in once more.
    cases hp : present? (some w) with
    | none =>
      refine ⟨some w, ?_, rfl⟩
      rw [Option.some_or, hp]
      exact (Fills.default hd).resolveField_eq_ok
    | some u =>
      refine ⟨none, ?_, rfl⟩
      rw [Option.some_or, hp]
      exact (Fills.kept u (by simp [hd])).resolveField_eq_ok
  | @nested n _ inner out hd entered resolved =>
    rw [← hname] at hd
    have hagain := ih n (Nat.lt_succ_self n) inner p? out resolved
    obtain ⟨entries, rfl⟩ := isObject_of_resolveFrom resolved
    exact ⟨_, (Fills.nested hd (.inl rfl) hagain).resolveField_eq_ok, rfl⟩

theorem resolveFrom_again {supplied? : Option Value} {out : Value}
    (h : resolveFrom limit levels supplied? c = .ok out) :
    resolveFrom limit levels (some out) c = .ok out := by
  induction levels using Nat.strongRecOn generalizing c supplied? out with
  | ind levels ih =>
    obtain ⟨entries, filled, -, hfill, rfl⟩ := resolveFrom_eq_ok.mp h
    refine resolveFrom_eq_ok.mpr ⟨filled, filled, rfl, ?_, rfl⟩
    have hsettles : Settles fun f v? => resolveField limit levels f v? c.defaults :=
      settles_resolveField fun n hn inner v? out h => ih n hn h
    exact fillFields_of_settled fun f hf => hsettles.settled hfill (.inl hf)

/-- What a cascade resolves to it resolves to itself, key by key and in the same order at
every level. -/
theorem resolve_idempotent (o : Options) (c : Cascade) (supplied? : Option Value) {out : Value}
    (h : c.resolve supplied? o = .ok out) : c.resolve (some out) o = .ok out :=
  resolveFrom_again h

/-- Nested cascades as deep as the limit allows, and a default that counts as absent. -/
theorem resolve_idempotent_socket :
    let socket := { socketCascade with
      defaults := ("host", .value .undefined) :: socketCascade.defaults }
    let server := { serverCascade with defaults := [("socket", .nested socket)] }
    let supplied : Value := .object [("name", .null), ("mode", .string "off")]
    let out : Value := .object [("name", .null), ("mode", .string "off"),
      ("socket", .object [("host", .undefined), ("port", .string "https"),
        ("log", .object [("path", .string "log")])])]
    server.resolve (some supplied) { maxDepth := 2 } = .ok out ∧
      server.resolve (some out) { maxDepth := 2 } = .ok out := by
  intro socket server supplied out
  have h : server.resolve (some supplied) { maxDepth := 2 } = .ok out := rfl
  exact ⟨h, resolve_idempotent _ _ _ h⟩

end ShapeTyping.Cascade
