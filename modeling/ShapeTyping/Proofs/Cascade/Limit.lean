import ShapeTyping.Proofs.Cascade.Faults
/-! The limit on nested levels. Only a cascade that is higher than the limit meets it, and no
resolution that succeeds has gone deeper. A result that does not report the limit is the result
under every larger one. -/
namespace ShapeTyping

/-- The limit on levels has no part in a result. -/
def ResolveError.Unaffected {α : Type} (r : Except ResolveError α) : Prop :=
  ∀ limit, r ≠ .error (.depthExceeded limit)

namespace ResolveError.Unaffected

variable {α β : Type} {r : Except ResolveError α}

theorem bind_left {g : α → Except ResolveError β} (h : Unaffected (r >>= g)) : Unaffected r := by
  rintro limit rfl
  exact h limit rfl

theorem of_map {g : α → β} (h : Unaffected (r.map g)) : Unaffected r := by
  rintro limit rfl
  exact h limit rfl

theorem of_under {name : String} (h : Unaffected (r.mapError (.under name))) : Unaffected r := by
  rintro limit rfl
  exact h limit rfl

end ResolveError.Unaffected

/-- An error seen from a field is about the limit just if it was before. -/
theorem ResolveError.under_eq_depthExceeded {e : ResolveError} {name : String} {limit : Nat} :
    e.under name = .depthExceeded limit ↔ e = .depthExceeded limit := by
  cases e <;> simp [ResolveError.under]

namespace Cascade

open ResolveError (Unaffected)

variable {limit levels : Nat} {c : Cascade} {supplied? v? : Option Value} {f : Field Ty}

/-! ## More levels -/

/-- If more levels change nothing about a field that does not meet the limit, they change
nothing about an object that does not. -/
theorem fillFields_of_unaffected
    {fill fill' : Field Ty → Option Value → Except ResolveError (Option Value)}
    (hfill : ∀ f v?, Unaffected (fill f v?) → fill' f v? = fill f v?) {fs : List (Field Ty)}
    {entries : List (String × Value)} (h : Unaffected (fillFields fill fs entries)) :
    fillFields fill' fs entries = fillFields fill fs entries := by
  induction fs generalizing entries with
  | nil => rfl
  | cons f fs ih =>
    rw [fillFields_cons] at h
    rw [fillFields_cons, fillFields_cons, hfill f _ h.bind_left]
    cases hf : fill f (present? (entries.lookup f.name)) with
    | error e => rfl
    | ok filled? =>
      rw [hf] at h
      exact ih h

theorem resolveField_of_unaffected {limit' levels' : Nat} (hle : levels ≤ levels')
    (ih : ∀ n < levels, ∀ n' ≥ n, ∀ inner v?, Unaffected (resolveFrom limit n v? inner) →
      resolveFrom limit' n' v? inner = resolveFrom limit n v? inner)
    (h : Unaffected (resolveField limit levels f v? c.defaults)) :
    resolveField limit' levels' f v? c.defaults = resolveField limit levels f v? c.defaults := by
  rw [resolveField_eq] at h ⊢
  rw [resolveField_eq]
  rcases hd : c.default? f.name with _ | v | inner
  · rfl
  · rfl
  · rw [hd] at h
    dsimp only at h ⊢
    split at h
    next entered =>
      rw [if_pos entered, if_pos entered]
      cases levels with
      | zero => exact absurd rfl (h limit)
      | succ n =>
        obtain ⟨n', rfl⟩ : ∃ n', levels' = n' + 1 := ⟨levels' - 1, by omega⟩
        have hinner : Unaffected (resolveFrom limit n v? inner) := h.of_map.of_under
        dsimp only
        rw [ih n (Nat.lt_succ_self n) n' (by omega) inner v? hinner]
    next skipped => rw [if_neg skipped, if_neg skipped]

theorem resolveFrom_of_unaffected (limit' : Nat) {levels' : Nat} (hle : levels ≤ levels')
    (h : Unaffected (resolveFrom limit levels supplied? c)) :
    resolveFrom limit' levels' supplied? c = resolveFrom limit levels supplied? c := by
  -- A nested cascade is entered with one level less on both sides.
  induction levels using Nat.strongRecOn generalizing levels' c supplied? with
  | ind levels ih =>
    rw [resolveFrom_eq] at h
    rw [resolveFrom_eq, resolveFrom_eq]
    cases hbase : base c.objectDefault? supplied? with
    | error e => rfl
    | ok entries =>
      rw [hbase] at h
      have hfields : Unaffected (fillFields
          (fun f v? => resolveField limit levels f v? c.defaults) c.shape.fields entries) :=
        h.of_map
      apply congrArg (Except.map Value.object)
      apply fillFields_of_unaffected _ hfields
      intro f v? hfield
      apply resolveField_of_unaffected hle _ hfield
      intro n hn n' hn' inner v? hinner
      exact ih n hn hn' hinner

/-! ## Where the limit is met -/

theorem exists_of_fillFields_eq_error
    {fill : Field Ty → Option Value → Except ResolveError (Option Value)} {fs : List (Field Ty)}
    {entries : List (String × Value)} {e : ResolveError}
    (h : fillFields fill fs entries = .error e) : ∃ f ∈ fs, ∃ v?, fill f v? = .error e := by
  induction fs generalizing entries with
  | nil => cases h
  | cons f fs ih =>
    rw [fillFields_cons] at h
    cases hf : fill f (present? (entries.lookup f.name)) with
    | error e' =>
      rw [hf] at h
      cases h
      exact ⟨f, List.mem_cons_self .., _, hf⟩
    | ok filled? =>
      rw [hf] at h
      obtain ⟨g, hg, hfill⟩ := ih h
      exact ⟨g, List.mem_cons_of_mem _ hg, hfill⟩

/-- A field meets the limit at a nested cascade, since no level is left for it, or further
in. -/
theorem nested_of_depthExceeded {l : Nat}
    (h : resolveField limit levels f v? c.defaults = .error (.depthExceeded l)) :
    ∃ inner, c.default? f.name = some (.nested inner) ∧ (levels = 0 ∧ l = limit ∨
      ∃ n, levels = n + 1 ∧ resolveFrom limit n v? inner = .error (.depthExceeded l)) := by
  rw [resolveField_eq] at h
  rcases hd : c.default? f.name with _ | v | inner
  · rw [hd] at h
    dsimp only at h
    split at h <;> cases h
  · rw [hd] at h
    cases h
  · rw [hd] at h
    dsimp only at h
    split at h
    next =>
      refine ⟨inner, rfl, ?_⟩
      cases levels with
      | zero =>
        cases h
        exact .inl ⟨rfl, rfl⟩
      | succ n =>
        obtain ⟨e, hinner, he⟩ := Outcome.mapError_eq_error.mp (Outcome.map_eq_error.mp h)
        rw [ResolveError.under_eq_depthExceeded.mp he] at hinner
        exact .inr ⟨n, rfl, hinner⟩
    next => cases h

theorem height_of_depthExceeded {l : Nat}
    (h : resolveFrom limit levels supplied? c = .error (.depthExceeded l)) :
    l = limit ∧ levels < c.height := by
  induction levels using Nat.strongRecOn generalizing c supplied? with
  | ind levels ih =>
    rw [resolveFrom_eq] at h
    cases hbase : base c.objectDefault? supplied? with
    | error e =>
      rw [hbase] at h
      obtain ⟨rfl, -⟩ := base_eq_error_iff.mp hbase
      cases h
    | ok entries =>
      rw [hbase] at h
      obtain ⟨f, -, v?, hfield⟩ := exists_of_fillFields_eq_error (Outcome.map_eq_error.mp h)
      obtain ⟨inner, hd, hlevels⟩ := nested_of_depthExceeded hfield
      have hlower := height_nested_lt hd
      rcases hlevels with ⟨rfl, rfl⟩ | ⟨n, rfl, hinner⟩
      · exact ⟨rfl, by omega⟩
      · obtain ⟨rfl, hn⟩ := ih n (Nat.lt_succ_self n) hinner
        exact ⟨rfl, by omega⟩

/-- Resolution that succeeds has a level left for each that it enters. -/
theorem Enters.length_le {path : List String} {level : Cascade} {given? : Option Value}
    (h : Enters c supplied? path level given?) (hc : Built c) {out : Value}
    (hout : resolveFrom limit levels supplied? c = .ok out) : path.length ≤ levels := by
  induction h generalizing levels out with
  | here => exact Nat.zero_le _
  | @nested c inner level supplied? given? entries f path start hf hd entered rest ih =>
    obtain ⟨found, filled, hbase, hfill, -⟩ := resolveFrom_eq_ok.mp hout
    have hstart := (base_eq_ok_iff fun v hv => hc.exists_entries hv).mp hbase
    cases start.symm.trans hstart
    obtain ⟨filled?, hfills, -⟩ := exists_fills hc.wellFormed.proper hfill hf
    rcases hfills.of_nested hd with ⟨-, n, hn, out', hinner, -⟩ | ⟨hno, -⟩
    · have hpath := ih (hc.nested hd).1 hinner
      rw [List.length_cons]
      omega
    · exact absurd entered hno

/-- The limit is reported only if the cascade is higher than it. Every other result stays the
same under larger limits, and one that is a success has not gone deeper than the limit. -/
theorem resolve_limit (c : Cascade) (supplied? : Option Value) (o : Options) :
    (∀ l, c.resolve supplied? o = .error (.depthExceeded l) →
      l = min o.maxDepth 32 ∧ l < c.height) ∧
    ((∀ l, c.resolve supplied? o ≠ .error (.depthExceeded l)) →
      ∀ o' : Options, o.maxDepth ≤ o'.maxDepth → c.resolve supplied? o' = c.resolve supplied? o) ∧
    (Built c → ∀ out, c.resolve supplied? o = .ok out →
      ∀ path level given?, Enters c supplied? path level given? →
        path.length ≤ min o.maxDepth 32) := by
  refine ⟨fun l h => ?_, fun h o' hle => ?_, fun hc out hout path level given? hpath => ?_⟩
  · obtain ⟨rfl, hheight⟩ := height_of_depthExceeded h
    exact ⟨o.cascadeLimit_eq, hheight⟩
  · refine resolveFrom_of_unaffected o'.cascadeLimit ?_ h
    rw [o.cascadeLimit_eq, o'.cascadeLimit_eq]
    omega
  · rw [← o.cascadeLimit_eq]
    exact hpath.length_le hc hout

/-- Two levels are nested in a server. A limit of one is met, and under a limit of two the
result is the one under all larger limits. -/
theorem resolve_limit_server :
    let out : Value := .object [("socket", .object [("port", .string "https"),
      ("log", .object [("path", .string "log")])]), ("mode", .string "on")]
    let path := ["socket", "log"]
    Built serverCascade ∧ Enters serverCascade none path logCascade none ∧
      serverCascade.resolve none { maxDepth := 1 } = .error (.depthExceeded 1) ∧
      1 < serverCascade.height ∧
      (∀ o : Options, 2 ≤ o.maxDepth → serverCascade.resolve none o = .ok out) ∧
      path.length ≤ min 2 32 := by
  intro out path
  have hinner : Enters socketCascade none ["log"] logCascade none :=
    .nested (f := ⟨"log", true, false, .shape logShape⟩) rfl (List.mem_of_getElem? (i := 2) rfl)
      rfl (.inr (.inl rfl)) (.here logCascade none)
  have hpath : Enters serverCascade none path logCascade none :=
    .nested (f := ⟨"socket", false, false, .union [.intrinsic .null, .shape socketShape]⟩) rfl
      (List.mem_of_getElem? (i := 0) rfl) rfl (.inr (.inr rfl)) hinner
  have hmet : serverCascade.resolve none { maxDepth := 1 } = .error (.depthExceeded 1) := rfl
  have hout : serverCascade.resolve none { maxDepth := 2 } = .ok out := rfl
  obtain ⟨hheight, -⟩ := resolve_limit serverCascade none { maxDepth := 1 }
  obtain ⟨-, hlarger, hdeepest⟩ := resolve_limit serverCascade none { maxDepth := 2 }
  refine ⟨built_serverCascade, hpath, hmet, (hheight 1 hmet).2, fun o ho => ?_,
    hdeepest built_serverCascade out hout path logCascade none hpath⟩
  have hunaffected : ∀ l,
      serverCascade.resolve none { maxDepth := 2 } ≠ .error (.depthExceeded l) := by
    intro l hl
    cases hout.symm.trans hl
  rw [hlarger hunaffected o ho, hout]

end Cascade
end ShapeTyping
