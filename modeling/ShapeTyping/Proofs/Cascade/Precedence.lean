import ShapeTyping.Proofs.Cascade.Idempotence
/-! The default for a whole object has no say once an object is supplied in its place. Two
cascades that differ in such defaults only resolve alike, down to the path of an error. -/
namespace ShapeTyping.Cascade

mutual
/-- For an argument, two cascades are the same but for what stands for whole objects that
the argument supplies. -/
inductive AlikeGiven : Option Value → Cascade → Cascade → Prop
  | mk {supplied? objectDefault? objectDefault'? : Option Value} {s : Shape Ty} {o : Options}
      {defaults defaults' : List (String × Default Cascade)}
      (whole : present? supplied? = none → objectDefault? = objectDefault'?)
      (fields : DefaultsAlikeGiven supplied? defaults defaults') :
      AlikeGiven supplied? ⟨s, objectDefault?, defaults, o⟩ ⟨s, objectDefault'?, defaults', o⟩
/-- Field by field the defaults are the same, or there are nested cascades for a field that
is supplied, and these are alike given its value. -/
inductive DefaultsAlikeGiven : Option Value → List (String × Default Cascade) →
    List (String × Default Cascade) → Prop
  | nil {supplied? : Option Value} : DefaultsAlikeGiven supplied? [] []
  | same {supplied? : Option Value} {defaults defaults' : List (String × Default Cascade)}
      (entry : String × Default Cascade) (rest : DefaultsAlikeGiven supplied? defaults defaults') :
      DefaultsAlikeGiven supplied? (entry :: defaults) (entry :: defaults')
  | nested {supplied? : Option Value} {defaults defaults' : List (String × Default Cascade)}
      {name : String} {w : Value} {c c' : Cascade}
      (supplied : supplied?.bind (·.getDefined? name) = some w) (inner : AlikeGiven (some w) c c')
      (rest : DefaultsAlikeGiven supplied? defaults defaults') :
      DefaultsAlikeGiven supplied? ((name, .nested c) :: defaults) ((name, .nested c') :: defaults')
end

theorem base_congr {supplied? objectDefault? objectDefault'? : Option Value}
    (h : present? supplied? = none → objectDefault? = objectDefault'?) :
    base objectDefault? supplied? = base objectDefault'? supplied? := by
  unfold base start
  split
  next => rfl
  next => rfl
  next hnone => rw [h hnone]

/-- A field is supplied in an object only, and then resolution starts from this object. -/
theorem present?_of_getDefined? {objectDefault? supplied? : Option Value}
    {entries : List (String × Value)} {name : String} {w : Value}
    (h : base objectDefault? supplied? = .ok entries)
    (hw : supplied?.bind (·.getDefined? name) = some w) :
    present? (entries.lookup name) = some w := by
  cases supplied? with
  | none => cases hw
  | some v =>
    cases v with
    | object supplied =>
      cases h
      exact hw
    | _ => cases hw

/-! ## Filling fields in two ways -/

/-- Two ways to fill fields come to the same if they find the same for every field of the
objects that can come up on the way. -/
theorem fillFields_congr
    {fill fill' : Field Ty → Option Value → Except ResolveError (Option Value)}
    (met : List (String × Value) → Prop)
    (agree : ∀ f entries, met entries →
      fill f (present? (entries.lookup f.name)) = fill' f (present? (entries.lookup f.name)))
    (kept : ∀ f entries v, met entries →
      fill f (present? (entries.lookup f.name)) = .ok (some v) →
      met (Entries.insert f.name v entries))
    {entries : List (String × Value)} (h : met entries) (fs : List (Field Ty)) :
    fillFields fill fs entries = fillFields fill' fs entries := by
  induction fs generalizing entries with
  | nil => rfl
  | cons f fs ih =>
    rw [fillFields, fillFields]
    have hf : fill f ((entries.lookup f.name).filter fun v => !v.isUndefined) =
        fill' f ((entries.lookup f.name).filter fun v => !v.isUndefined) := agree f entries h
    rw [← hf]
    cases hfilled : fill f ((entries.lookup f.name).filter fun v => !v.isUndefined) with
    | error e => rfl
    | ok filled? =>
      cases filled? with
      | none => exact ih h
      | some v => exact ih (kept f entries v h hfilled)

/-! ## One field -/

variable {limit levels : Nat} {c c' : Cascade}

/-- Two defaults come to the same for a field that holds `v?`: they are the same, or the
field has a value and nested cascades resolve it alike. -/
def Indistinct (limit levels : Nat) (d? d'? : Option (Default Cascade)) (v? : Option Value) :
    Prop :=
  d? = d'? ∨ ∃ c c' w, d? = some (.nested c) ∧ d'? = some (.nested c') ∧ present? v? = some w ∧
    ∀ n, levels = n + 1 → resolveFrom limit n (some w) c = resolveFrom limit n (some w) c'

theorem Indistinct.resolveField_eq {f : Field Ty} {v? : Option Value}
    (h : Indistinct limit levels (c.default? f.name) (c'.default? f.name) v?) :
    resolveField limit levels f (present? v?) c.defaults =
      resolveField limit levels f (present? v?) c'.defaults := by
  rw [Cascade.resolveField_eq, Cascade.resolveField_eq]
  rcases h with hsame | ⟨inner, inner', w, hd, hd', hw, hresolve⟩
  · rw [hsame]
  · rw [hd, hd', hw]
    cases levels with
    | zero => rfl
    | succ n =>
      dsimp only
      rw [hresolve n rfl]
      rfl

theorem resolveFrom_of_resolveField {f : Field Ty} {inner : Cascade} {w v : Value}
    (hd : c.default? f.name = some (.nested inner))
    (h : resolveField limit levels f (some w) c.defaults = .ok (some v)) :
    ∃ n, levels = n + 1 ∧ resolveFrom limit n (some w) inner = .ok v := by
  generalize hp : some w = p? at h
  cases fills_of_resolveField h with
  | default _ => cases hp
  | @nested n _ found _ hfound _ resolved =>
    cases hd.symm.trans hfound
    subst hp
    exact ⟨n, rfl, resolved⟩

/-- What a nested cascade resolved to it resolves to itself, so that the field may come up
again. -/
theorem Indistinct.filled {f : Field Ty} {v? : Option Value} {v : Value}
    (h : Indistinct limit levels (c.default? f.name) (c'.default? f.name) v?)
    (hv : resolveField limit levels f (present? v?) c.defaults = .ok (some v)) :
    Indistinct limit levels (c.default? f.name) (c'.default? f.name) (some v) := by
  have hv' := h.resolveField_eq.symm.trans hv
  rcases h with hsame | ⟨inner, inner', w, hd, hd', hw, -⟩
  · exact .inl hsame
  · rw [hw] at hv hv'
    obtain ⟨n, rfl, hresolved⟩ := resolveFrom_of_resolveField hd hv
    obtain ⟨_, ⟨⟩, hresolved'⟩ := resolveFrom_of_resolveField hd' hv'
    obtain ⟨entries, rfl⟩ := isObject_of_resolveFrom hresolved
    refine .inr ⟨inner, inner', .object entries, hd, hd', rfl, ?_⟩
    rintro m ⟨⟩
    rw [resolveFrom_again hresolved, resolveFrom_again hresolved']

/-! ## Whole objects -/

theorem resolveFrom_congr (c c' : Cascade) (hshape : c.shape = c'.shape)
    {supplied? : Option Value}
    (hbase : base c.objectDefault? supplied? = base c'.objectDefault? supplied?)
    (hfields : ∀ entries, base c.objectDefault? supplied? = .ok entries → ∀ name,
      Indistinct limit levels (c.default? name) (c'.default? name) (entries.lookup name)) :
    resolveFrom limit levels supplied? c = resolveFrom limit levels supplied? c' := by
  rw [resolveFrom_eq, resolveFrom_eq, ← hbase, ← hshape]
  cases hentries : base c.objectDefault? supplied? with
  | error e => rfl
  | ok entries =>
    apply congrArg (Except.map Value.object)
    apply fillFields_congr fun entries => ∀ name,
      Indistinct limit levels (c.default? name) (c'.default? name) (entries.lookup name)
    · intro f entries hmet
      exact (hmet f.name).resolveField_eq
    · intro f entries v hmet hv name
      by_cases hname : name = f.name
      · subst hname
        rw [Entries.lookup_insert_self]
        exact (hmet f.name).filled hv
      · rw [Entries.lookup_insert_of_ne hname]
        exact hmet name
    · exact hfields entries hentries

mutual
theorem AlikeGiven.resolveFrom_eq (limit levels : Nat) {supplied? : Option Value} {c c' : Cascade} :
    AlikeGiven supplied? c c' →
      resolveFrom limit levels supplied? c = resolveFrom limit levels supplied? c'
  | .mk whole fields => by
    apply resolveFrom_congr
    · rfl
    · exact base_congr whole
    · intro entries hentries name
      rcases fields.lookup limit name with hsame | ⟨w, c, c', hw, hc, hc', hresolve⟩
      · exact .inl hsame
      · refine .inr ⟨c, c', w, hc, hc', ?_, fun n _ => hresolve n⟩
        exact present?_of_getDefined? hentries hw
theorem DefaultsAlikeGiven.lookup (limit : Nat) (name : String) {supplied? : Option Value}
    {defaults defaults' : List (String × Default Cascade)} :
    DefaultsAlikeGiven supplied? defaults defaults' →
    defaults.lookup name = defaults'.lookup name ∨
      ∃ w c c', supplied?.bind (·.getDefined? name) = some w ∧
        defaults.lookup name = some (.nested c) ∧ defaults'.lookup name = some (.nested c') ∧
        ∀ levels, resolveFrom limit levels (some w) c = resolveFrom limit levels (some w) c'
  | .nil => .inl rfl
  | .same entry rest => by
    rw [List.lookup_cons, List.lookup_cons]
    cases name == entry.1 with
    | true => exact .inl rfl
    | false => exact rest.lookup limit name
  | @DefaultsAlikeGiven.nested _ _ _ key w c c' supplied inner rest => by
    rw [List.lookup_cons, List.lookup_cons]
    cases hkey : name == key with
    | true =>
      rw [eq_of_beq hkey]
      exact .inr ⟨w, c, c', supplied, rfl, rfl, fun levels => inner.resolveFrom_eq limit levels⟩
    | false => exact rest.lookup limit name
end

/-- Where an object is supplied, at the top or in a field of a supplied object, it makes no
difference whether its cascade has a default for the whole, or which. -/
theorem resolve_eq_of_alikeGiven (o : Options) {supplied? : Option Value} {c c' : Cascade}
    (h : AlikeGiven supplied? c c') : c.resolve supplied? o = c'.resolve supplied? o :=
  h.resolveFrom_eq _ _

/-- Both defaults for whole objects have the port that the supplied ones lack. The one for the log
stays the same, as no log is supplied. -/
theorem resolve_eq_of_alikeGiven_socket :
    let socket (objectDefault? : Option Value) : Cascade :=
      ⟨socketShape, objectDefault?, [("log", .nested logCascade)], {}⟩
    let server (objectDefault? : Option Value) (socket : Cascade) : Cascade :=
      ⟨serverShape, objectDefault?, [("socket", .nested socket)], {}⟩
    let port : Value := .object [("port", .string "https")]
    let bare := server none (socket none)
    let full := server (some (.object [("socket", port)])) (socket (some port))
    let supplied : Value := .object [("socket", .object [])]
    AlikeGiven (some supplied) bare full ∧
      bare.resolve (some supplied) {} = full.resolve (some supplied) {} ∧
      full.resolve (some supplied) {} = .error (.missingRequiredField ["socket", "port"]) := by
  intro socket server port bare full supplied
  have hsocket : AlikeGiven (some (.object [])) (socket none) (socket (some port)) :=
    .mk nofun (.same _ .nil)
  have hserver : AlikeGiven (some supplied) bare full := .mk nofun (.nested rfl hsocket .nil)
  exact ⟨hserver, resolve_eq_of_alikeGiven {} hserver, rfl⟩

end ShapeTyping.Cascade
