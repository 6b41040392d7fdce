import ShapeTyping.Proofs.Cascade.Addition
import ShapeTyping.Proofs.Cascade.Resolution
import ShapeTyping.Proofs.Cascade.Telling
import ShapeTyping.Proofs.Conformance.Culprit
/-! Why resolution fails. The levels that it enters can be told from the cascade and the argument
alone. It succeeds just if none of them is given something else than an object and none lacks a
required field without a default, and else it reports the first such place: level by level the
fields count in the order in which they are declared. -/
namespace ShapeTyping

namespace ResolveError

/-- The place that an error is about. -/
def path : ResolveError → List String
  | .missingRequiredField path | .notAnObject path => path
  | .depthExceeded _ => []

/-- What is told of an error about a place: the names of the fields on the way, with a dot before
each name that something comes before. -/
inductive Tells : ResolveError → Refusal → Prop
  | missing {path : List String} {text : String} (h : Step.Rendered (path.map .field) text) :
      Tells (.missingRequiredField path) (.missingRequiredField text)
  | nonobject {path : List String} {text : String} (h : Step.Rendered (path.map .field) text)
      (started : text ≠ "") : Tells (.notAnObject path) (.notAnObject text)
  | root {path : List String} (h : Step.Rendered (path.map .field) "") :
      Tells (.notAnObject path) (.notAnObject "<root>")

theorem tells_missingRequiredField (path : List String) :
    Tells (.missingRequiredField path) (told (.missingRequiredField path)) :=
  .missing (Step.rendered_render _)

theorem tells_notAnObject (path : List String) :
    Tells (.notAnObject path) (told (.notAnObject path)) := by
  have hrendered : Step.Rendered (path.map .field) (textFrom "" path) := Step.rendered_render _
  show Tells _ (.notAnObject (if textFrom "" path = "" then "<root>" else textFrom "" path))
  by_cases hempty : textFrom "" path = ""
  · rw [if_pos hempty]
    rw [hempty] at hrendered
    exact .root hrendered
  · rw [if_neg hempty]
    exact .nonobject hrendered hempty

theorem Tells.eq_told {e : ResolveError} {refusal : Refusal} (h : e.Tells refusal) :
    refusal = e.told := by
  cases h with
  | missing h => exact congrArg _ h.eq_render
  | @nonobject path text h started =>
    rw [h.eq_render] at started ⊢
    exact congrArg _ (if_neg started).symm
  | @root path h => exact congrArg _ (if_pos h.eq_render.symm).symm

/-- The error is among the faults, and its place comes before that of any other. -/
structure IsFirst (faults : ResolveError → Prop) (before : List String → List String → Prop)
    (e : ResolveError) : Prop where
  fault : faults e
  first : ∀ e', faults e' → e' = e ∨ before e.path e'.path

/-- A result that is a failure just if there are faults, and then reports the first. -/
def Accounts {α : Type} (faults : ResolveError → Prop)
    (before : List String → List String → Prop) : Except ResolveError α → Prop
  | .ok _ => ∀ e, ¬ faults e
  | .error e => IsFirst faults before e

namespace Accounts

variable {α β : Type} {faults faults' : ResolveError → Prop}
  {before : List String → List String → Prop} {r : Except ResolveError α}

theorem congr (h : ∀ e, faults e ↔ faults' e) (hr : Accounts faults before r) :
    Accounts faults' before r := by
  obtain rfl : faults = faults' := funext fun e => propext (h e)
  exact hr

theorem map (f : α → β) (hr : Accounts faults before r) : Accounts faults before (r.map f) := by
  cases r with
  | ok a => exact hr
  | error e => exact hr

theorem exists_ok_iff (hr : Accounts faults before r) : (∃ a, r = .ok a) ↔ ∀ e, ¬ faults e := by
  cases r with
  | ok a => exact ⟨fun _ => hr, fun _ => ⟨a, rfl⟩⟩
  | error e =>
    constructor
    · rintro ⟨a, ha⟩
      cases ha
    · intro hnone
      exact absurd hr.fault (hnone e)

/-- The first of the faults is the only one that is first. -/
theorem eq_error_iff (hr : Accounts faults before r) (hasymm : ∀ p q, before p q → ¬ before q p)
    {e : ResolveError} : r = .error e ↔ IsFirst faults before e := by
  constructor
  · rintro rfl
    exact hr
  · intro he
    cases r with
    | ok a => exact absurd he.fault (hr e)
    | error e' =>
      rcases hr.first e he.fault with rfl | hbefore
      · rfl
      · rcases he.first e' hr.fault with rfl | hbefore'
        · rfl
        · exact absurd hbefore' (hasymm _ _ hbefore)

end Accounts
end ResolveError

namespace Cascade

open ResolveError (Accounts IsFirst)

/-! ## Levels and faults -/

/-- The levels that are entered, each with the path to it and with what is given there. -/
inductive Enters : Cascade → Option Value → List String → Cascade → Option Value → Prop
  | here (c : Cascade) (supplied? : Option Value) : Enters c supplied? [] c supplied?
  | nested {c inner level : Cascade} {supplied? given? : Option Value}
      {entries : List (String × Value)} {f : Field Ty} {path : List String}
      (start : c.effective supplied? = .object entries) (hf : f ∈ c.shape.fields)
      (hd : c.default? f.name = some (.nested inner))
      (entered : Entered f inner (entries.lookup f.name))
      (rest : Enters inner (entries.lookup f.name) path level given?) :
      Enters c supplied? (f.name :: path) level given?

/-- A level that is entered is given a value that is no object, or lacks a field that it
requires and has no default for. -/
inductive Fault (c : Cascade) (supplied? : Option Value) : ResolveError → Prop
  | notAnObject {path : List String} {level : Cascade} {given? : Option Value} {v : Value}
      (reached : Enters c supplied? path level given?) (given : present? given? = some v)
      (nonobject : v.entries? = none) : Fault c supplied? (.notAnObject path)
  | missing {path : List String} {level : Cascade} {given? : Option Value}
      {entries : List (String × Value)} {f : Field Ty}
      (reached : Enters c supplied? path level given?)
      (start : level.effective given? = .object entries) (hf : f ∈ level.shape.fields)
      (required : f.optional = false) (absent : present? (entries.lookup f.name) = none)
      (bare : level.default? f.name = none) :
      Fault c supplied? (.missingRequiredField (path ++ [f.name]))

/-- One path comes before the other: where they part, the name on the first one is declared
earlier. -/
inductive Before : Cascade → List String → List String → Prop
  | declared {c : Cascade} {x y : String} (h : [x, y].Sublist (c.shape.fields.map (·.name)))
      (p q : List String) : Before c (x :: p) (y :: q)
  | nested {c inner : Cascade} {name : String} {p q : List String}
      (hd : c.default? name = some (.nested inner)) (h : Before inner p q) :
      Before c (name :: p) (name :: q)

/-- The faults that one field brings in. -/
inductive FieldFault (c : Cascade) (f : Field Ty) (v? : Option Value) : ResolveError → Prop
  | missing (required : f.optional = false) (absent : present? v? = none)
      (bare : c.default? f.name = none) : FieldFault c f v? (.missingRequiredField [f.name])
  | nested {inner : Cascade} {e : ResolveError} (hd : c.default? f.name = some (.nested inner))
      (entered : Entered f inner v?) (h : Fault inner v? e) :
      FieldFault c f v? (e.under f.name)

variable {c inner : Cascade} {supplied? v? : Option Value} {entries : List (String × Value)}
  {f : Field Ty} {e : ResolveError}

theorem Fault.path_under (h : Fault c supplied? e) (name : String) :
    (e.under name).path = name :: e.path := by
  cases h <;> rfl

theorem FieldFault.exists_path (h : FieldFault c f v? e) : ∃ p, e.path = f.name :: p := by
  cases h with
  | missing => exact ⟨[], rfl⟩
  | nested _ _ h => exact ⟨_, h.path_under f.name⟩

theorem Fault.tells (h : Fault c supplied? e) : e.Tells e.told := by
  cases h with
  | notAnObject => exact ResolveError.tells_notAnObject _
  | missing => exact ResolveError.tells_missingRequiredField _

theorem Fault.under (start : c.effective supplied? = .object entries) (hf : f ∈ c.shape.fields)
    (hd : c.default? f.name = some (.nested inner))
    (entered : Entered f inner (entries.lookup f.name))
    (h : Fault inner (entries.lookup f.name) e) : Fault c supplied? (e.under f.name) := by
  cases h with
  | notAnObject reached given nonobject =>
    exact .notAnObject (.nested start hf hd entered reached) given nonobject
  | missing reached start' hf' required absent bare =>
    exact .missing (.nested start hf hd entered reached) start' hf' required absent bare

/-- The faults of an object are those of its fields. -/
theorem fault_iff (start : c.effective supplied? = .object entries) :
    Fault c supplied? e ↔ ∃ f ∈ c.shape.fields, FieldFault c f (entries.lookup f.name) e := by
  constructor
  · intro h
    cases h with
    | @notAnObject path level given? v reached given nonobject =>
      cases reached with
      | here => exact absurd start (effective_ne_object given nonobject entries)
      | @nested _ inner _ _ _ entries' f path start' hf hd entered rest =>
        cases start.symm.trans start'
        have hinner : Fault inner (entries.lookup f.name) (.notAnObject path) :=
          .notAnObject rest given nonobject
        exact ⟨f, hf, .nested hd entered hinner⟩
    | @missing path level given? found g reached start' hg required absent bare =>
      cases reached with
      | here =>
        cases start.symm.trans start'
        exact ⟨g, hg, .missing required absent bare⟩
      | @nested _ inner _ _ _ entries' f path start'' hf hd entered rest =>
        cases start.symm.trans start''
        have hinner : Fault inner (entries.lookup f.name)
            (.missingRequiredField (path ++ [g.name])) :=
          .missing rest start' hg required absent bare
        exact ⟨f, hf, .nested hd entered hinner⟩
  · rintro ⟨f, hf, h⟩
    cases h with
    | missing required absent bare =>
      exact .missing (.here c supplied?) start hf required absent bare
    | nested hd entered h => exact h.under start hf hd entered

/-- What is given in place of an object is the only fault, since nothing is entered from it. -/
theorem fault_iff_of_nonobject {v : Value} (given : present? supplied? = some v)
    (nonobject : v.entries? = none) : Fault c supplied? e ↔ e = .notAnObject [] := by
  have hstart := effective_ne_object (c := c) given nonobject
  constructor
  · intro h
    cases h with
    | notAnObject reached _ _ =>
      cases reached with
      | here => rfl
      | nested start _ _ _ _ => exact absurd start (hstart _)
    | missing reached start _ _ _ _ =>
      cases reached with
      | here => exact absurd start (hstart _)
      | nested start _ _ _ _ => exact absurd start (hstart _)
  · rintro rfl
    exact .notAnObject (.here c supplied?) given nonobject

/-! ## The order of paths -/

theorem not_sublist_swap {names : List String} (hd : names.Nodup) {x y : String}
    (h : [x, y].Sublist names) : ¬ [y, x].Sublist names := by
  intro h'
  induction names with
  | nil => cases h
  | cons name names ih =>
    rw [List.nodup_cons] at hd
    cases h with
    | cons _ h =>
      cases h' with
      | cons _ h' => exact ih hd.2 h h'
      | cons_cons _ _ => exact hd.1 (h.subset (by simp))
    | cons_cons _ h =>
      cases h' with
      | cons _ h' => exact hd.1 (h'.subset (by simp))
      | cons_cons _ h' => exact hd.1 (h'.subset (by simp))

theorem Before.asymm {p q : List String} (hc : Built c) (h : Before c p q) : ¬ Before c q p := by
  induction h with
  | @declared c x y h p q =>
    have hnames : (c.shape.fields.map (·.name)).Nodup := hc.wellFormed.proper
    intro h'
    cases h' with
    | declared h' => exact not_sublist_swap hnames h h'
    | nested _ _ => exact not_sublist_swap hnames h h
  | @nested c inner name p q hd h ih =>
    have hnames : (c.shape.fields.map (·.name)).Nodup := hc.wellFormed.proper
    intro h'
    cases h' with
    | declared h' => exact not_sublist_swap hnames h' h'
    | nested hd' h' =>
      cases hd.symm.trans hd'
      exact ih (hc.nested hd).1 h'

/-! ## One field after the other -/

/-- Filling stops at the first field with a fault. Names are distinct, so that what was filled in
before does not matter to it. -/
theorem accounts_fillFields {fill : Field Ty → Option Value → Except ResolveError (Option Value)}
    {faults : Field Ty → Option Value → ResolveError → Prop}
    {before : List String → List String → Prop} {fs : List (Field Ty)}
    (hd : (fs.map (·.name)).Nodup)
    (hfill : ∀ f v?, Accounts (faults f v?) before (fill f (present? v?)))
    (horder : fs.Pairwise fun f g => ∀ v? w? e e', faults f v? e → faults g w? e' →
      before e.path e'.path)
    (entries : List (String × Value)) :
    Accounts (fun e => ∃ f ∈ fs, faults f (entries.lookup f.name) e) before
      (fillFields fill fs entries) := by
  induction fs generalizing entries with
  | nil =>
    rintro e ⟨f, hf, -⟩
    cases hf
  | cons f fs ih =>
    rw [List.map_cons, List.nodup_cons] at hd
    rw [List.pairwise_cons] at horder
    rw [fillFields_cons]
    have hf := hfill f (entries.lookup f.name)
    cases hfilled : fill f (present? (entries.lookup f.name)) with
    | error e =>
      rw [hfilled] at hf
      refine ⟨⟨f, List.mem_cons_self .., hf.fault⟩, ?_⟩
      rintro e' ⟨g, hg, he'⟩
      rcases List.mem_cons.mp hg with rfl | hg
      · exact hf.first e' he'
      · exact .inr (horder.1 g hg _ _ _ _ hf.fault he')
    | ok filled? =>
      rw [hfilled] at hf
      refine (ih hd.2 horder.2 _).congr fun e => ?_
      have hlookup : ∀ g ∈ fs,
          (put f.name filled? entries).lookup g.name = entries.lookup g.name := by
        intro g hg
        have hne : g.name ≠ f.name := fun hn => hd.1 (hn ▸ List.mem_map_of_mem hg)
        exact lookup_put_of_ne hne filled? entries
      constructor
      · rintro ⟨g, hg, he⟩
        rw [hlookup g hg] at he
        exact ⟨g, List.mem_cons_of_mem _ hg, he⟩
      · rintro ⟨g, hg, he⟩
        rcases List.mem_cons.mp hg with rfl | hg
        · exact absurd he (hf e)
        · exact ⟨g, hg, by rwa [hlookup g hg]⟩

/-- What a nested cascade reports is reported as seen from its field. -/
theorem accounts_nested {r : Except ResolveError Value}
    (hd : c.default? f.name = some (.nested inner)) (entered : Entered f inner v?)
    (hr : Accounts (Fault inner v?) (Before inner) r) :
    Accounts (FieldFault c f v?) (Before c) ((r.mapError (.under f.name)).map some) := by
  have hfaults : ∀ e, FieldFault c f v? e → ∃ e', Fault inner v? e' ∧ e = e'.under f.name := by
    intro e he
    cases he with
    | missing _ _ bare => cases hd.symm.trans bare
    | nested hd' _ h =>
      cases hd.symm.trans hd'
      exact ⟨_, h, rfl⟩
  cases r with
  | ok w =>
    intro e he
    obtain ⟨e', he', -⟩ := hfaults e he
    exact hr e' he'
  | error e =>
    refine ⟨.nested hd entered hr.fault, fun e₁ he₁ => ?_⟩
    obtain ⟨e', he', rfl⟩ := hfaults e₁ he₁
    rcases hr.first e' he' with rfl | hbefore
    · exact .inl rfl
    · right
      rw [hr.fault.path_under, he'.path_under]
      exact .nested hd hbefore

variable {limit levels : Nat}

theorem accounts_resolveField (hc : Built c) (hlevels : c.height ≤ levels)
    (ih : ∀ n < levels, ∀ inner, Built inner → inner.height ≤ n → ∀ v?,
      Accounts (Fault inner v?) (Before inner) (resolveFrom limit n v? inner))
    (f : Field Ty) (v? : Option Value) :
    Accounts (FieldFault c f v?) (Before c)
      (resolveField limit levels f (present? v?) c.defaults) := by
  rw [resolveField_eq]
  rcases hd : c.default? f.name with _ | ⟨w⟩ | ⟨inner⟩
  · dsimp only
    split
    next hpresent =>
      intro e he
      cases he with
      | missing required absent _ => simp [required, absent] at hpresent
      | nested hd' _ _ => cases hd.symm.trans hd'
    next hmissing =>
      simp only [Bool.or_eq_true, not_or, Bool.not_eq_true, Option.isSome_eq_false_iff,
        Option.isNone_iff_eq_none] at hmissing
      refine ⟨.missing hmissing.2 hmissing.1 hd, fun e he => .inl ?_⟩
      cases he with
      | missing => rfl
      | nested hd' _ _ => cases hd.symm.trans hd'
  · intro e he
    cases he with
    | missing _ _ bare => cases hd.symm.trans bare
    | nested hd' _ _ => cases hd.symm.trans hd'
  · have hentered : ((present? v?).isSome || inner.objectDefault?.isSome || !f.optional) = true ↔
        Entered f inner v? := by
      simp [Entered, or_assoc]
    dsimp only
    split
    next hyes =>
      have hlower := height_nested_lt hd
      cases levels with
      | zero => omega
      | succ n =>
        dsimp only
        rw [resolveFrom_present?]
        exact accounts_nested hd (hentered.mp hyes)
          (ih n (Nat.lt_succ_self n) inner (hc.nested hd).1 (by omega) v?)
    next hno =>
      intro e he
      cases he with
      | missing _ _ bare => cases hd.symm.trans bare
      | nested hd' entered _ =>
        cases hd.symm.trans hd'
        exact hno (hentered.mpr entered)

/-! ## All levels -/

theorem pairwise_before (c : Cascade) :
    c.shape.fields.Pairwise fun f g => ∀ v? w? e e', FieldFault c f v? e → FieldFault c g w? e' →
      Before c e.path e'.path := by
  rw [List.pairwise_iff_forall_sublist]
  intro f g hfg v? w? e e' he he'
  obtain ⟨p, hp⟩ := he.exists_path
  obtain ⟨q, hq⟩ := he'.exists_path
  rw [hp, hq]
  exact .declared (hfg.map _) p q

theorem Built.accounts_resolveFrom (hc : Built c) (hlevels : c.height ≤ levels)
    (supplied? : Option Value) :
    Accounts (Fault c supplied?) (Before c) (resolveFrom limit levels supplied? c) := by
  induction levels using Nat.strongRecOn generalizing c supplied? with
  | ind levels ih =>
    rw [resolveFrom_eq]
    cases hbase : base c.objectDefault? supplied? with
    | error e =>
      obtain ⟨rfl, v, given, nonobject⟩ := base_eq_error_iff.mp hbase
      refine ⟨(fault_iff_of_nonobject given nonobject).mpr rfl, fun e' he' => ?_⟩
      exact .inl ((fault_iff_of_nonobject given nonobject).mp he')
    | ok entries =>
      have hstart := (base_eq_ok_iff fun v hv => hc.exists_entries hv).mp hbase
      have hfill := accounts_resolveField hc hlevels fun n hn inner hinner hle v? =>
        ih n hn hinner hle v?
      have hfields : Accounts (fun e => ∃ f ∈ c.shape.fields,
          FieldFault c f (entries.lookup f.name) e) (Before c)
          (fillFields (fun f v? => resolveField limit levels f v? c.defaults) c.shape.fields
            entries) :=
        accounts_fillFields hc.wellFormed.proper hfill (pairwise_before c) entries
      exact (hfields.congr fun e => (fault_iff hstart).symm).map Value.object

/-- Resolution within the limit on levels succeeds just if there is no fault in the levels that
it enters, and else reports the first fault, by the path of the fields on the way there. -/
theorem resolve_reports_first_fault {c : Cascade} (hc : Built c) (o : Options)
    (hlimit : c.height ≤ min o.maxDepth 32) (supplied? : Option Value) :
    ((∃ out, c.apply supplied? o = .ok out) ↔ ∀ e, ¬ Fault c supplied? e) ∧
    (∀ e, c.resolve supplied? o = .error e ↔ IsFirst (Fault c supplied?) (Before c) e) ∧
    ∀ refusal, c.apply supplied? o = .error refusal ↔
      ∃ e, IsFirst (Fault c supplied?) (Before c) e ∧ e.Tells refusal := by
  rw [← o.cascadeLimit_eq] at hlimit
  have haccounts : Accounts (Fault c supplied?) (Before c) (c.resolve supplied? o) :=
    hc.accounts_resolveFrom hlimit supplied?
  have hfirst : ∀ e, c.resolve supplied? o = .error e ↔ IsFirst (Fault c supplied?) (Before c) e :=
    fun e => haccounts.eq_error_iff fun p q h => h.asymm hc
  refine ⟨?_, hfirst, fun refusal => ?_⟩
  · simp only [apply_eq_ok_iff]
    exact haccounts.exists_ok_iff
  · rw [apply_eq, Outcome.mapError_eq_error]
    constructor
    · rintro ⟨e, he, rfl⟩
      exact ⟨e, (hfirst e).mp he, ((hfirst e).mp he).fault.tells⟩
    · rintro ⟨e, he, htells⟩
      exact ⟨e, (hfirst e).mpr he, htells.eq_told.symm⟩

/-- The log may stay away and so its cascade is not entered, the socket has to be there and lacks
its port, and the mode is missing as well but declared after the socket. -/
theorem resolve_reports_first_fault_socket :
    let socket := { socketCascade with defaults := [("log", .nested (empty logShape {}))] }
    let server := { serverCascade with defaults := [("socket", .nested socket)] }
    let supplied : Value := .object [("socket", .undefined), ("extra", .null)]
    let e : ResolveError := .missingRequiredField ["socket", "port"]
    Built server ∧ server.height ≤ min 2 32 ∧
      server.apply (some supplied) { maxDepth := 2 } =
        .error (.missingRequiredField "socket.port") ∧
      IsFirst (Fault server (some supplied)) (Before server) e ∧
      Before server e.path ["mode"] ∧ e.Tells (.missingRequiredField "socket.port") := by
  intro socket server supplied e
  have hlog : Built (empty logShape {}) := .empty (by decide) {}
  have hsocket : Built socket :=
    .of_build socketShape {} [.nested "log" (empty logShape {})] (by decide)
      (by simpa [Addition.inner?] using hlog) rfl
  have hserver : Built server :=
    .of_build serverShape {} [.nested "socket" socket] (by decide)
      (by simpa [Addition.inner?] using hsocket) rfl
  have hheight : server.height ≤ min 2 32 := by decide
  have hmode : Fault server (some supplied) (.missingRequiredField ["mode"]) :=
    (fault_iff rfl).mpr ⟨_, List.mem_of_getElem? (i := 1) rfl, .missing rfl rfl rfl⟩
  obtain ⟨-, hfirst, htold⟩ :=
    resolve_reports_first_fault hserver { maxDepth := 2 } hheight (some supplied)
  have he : IsFirst (Fault server (some supplied)) (Before server) e := (hfirst e).mp rfl
  have htells : e.Tells (.missingRequiredField "socket.port") :=
    .missing (.field (.first .nil "socket") (by decide) "port")
  exact ⟨hserver, hheight, (htold _).mpr ⟨e, he, htells⟩, he,
    (he.first _ hmode).resolve_left (by simp [e]), htells⟩

end Cascade
end ShapeTyping
