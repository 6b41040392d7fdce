import Mathlib.Data.List.Induction
import ShapeTyping.Proofs.Cascade.Addition
import ShapeTyping.Proofs.Cascade.Precedence
import ShapeTyping.Proofs.Cascade.Telling
/-! The order in which a cascade is built. Whether additions succeed depends on each of them by
itself and on whether two are for one field. Resolution asks a cascade only for the default of
the whole and for that of a field by its name. So the order of additions does not show, as long
as there are not two defaults for the whole. -/
namespace ShapeTyping.Cascade

namespace Addition

/-- The default that is added for a field. -/
def forField? : Addition → Option (String × Default Cascade)
  | .objectDefault _ => none
  | .fieldDefault name v => some (name, .value v)
  | .nested name inner _ => some (name, .nested inner)

/-- The default that is added for the whole. -/
def forWhole? : Addition → Option Value
  | .objectDefault v => some v
  | .fieldDefault _ _ | .nested _ _ _ => none

/-- What an addition has to meet whatever was added before. -/
inductive Admissible (s : Shape Ty) (o : Options) : Addition → Prop
  | objectDefault {entries : List (String × Value)}
      (h : ∀ e ∈ entries, ∀ f, s.field? e.1 = some f → accepts o f e.2 = true) :
      Admissible s o (.objectDefault (.object entries))
  | fieldDefault {name : String} {v : Value} {f : Field Ty} (hf : s.field? name = some f)
      (h : accepts o f v = true) : Admissible s o (.fieldDefault name v)
  | nested {name : String} {inner : Cascade} {identity : inner.shape.Identity} {f : Field Ty}
      (hf : s.field? name = some f)
      (h : f.type.shapes.any (describesSame o inner.shape identity) = true) :
      Admissible s o (.nested name inner identity)

end Addition

open Addition (forField? forWhole? Admissible)

variable {s : Shape Ty} {o : Options} {c c' : Cascade}

/-! ## One addition -/

theorem add_eq_ok_iff {addition : Addition} :
    c.add addition = .ok c' ↔ Admissible c.shape c.options addition ∧
      (∀ e ∈ addition.forField?, c.default? e.1 = none) ∧
      c' = { c with objectDefault? := addition.forWhole?.or c.objectDefault?
                    defaults := c.defaults ++ addition.forField?.toList } := by
  cases addition with
  | objectDefault v =>
    rw [add_objectDefault_eq_ok]
    constructor
    · rintro ⟨entries, rfl, h, rfl⟩
      exact ⟨.objectDefault h, nofun, by simp [forWhole?, forField?]⟩
    · rintro ⟨hadm, -, rfl⟩
      cases hadm with
      | objectDefault h => exact ⟨_, rfl, h, by simp [forWhole?, forField?]⟩
  | fieldDefault name v =>
    rw [add_fieldDefault_eq_ok]
    constructor
    · rintro ⟨f, hf, hvacant, h, rfl⟩
      exact ⟨.fieldDefault hf h, by simpa [forField?] using hvacant, by simp [forWhole?, forField?]⟩
    · rintro ⟨hadm, hvacant, rfl⟩
      cases hadm with
      | fieldDefault hf h => exact ⟨_, hf, hvacant _ rfl, h, by simp [forWhole?, forField?]⟩
  | nested name inner identity =>
    rw [add_nested_eq_ok]
    constructor
    · rintro ⟨f, hf, hvacant, h, rfl⟩
      exact ⟨.nested hf h, by simpa [forField?] using hvacant, by simp [forWhole?, forField?]⟩
    · rintro ⟨hadm, hvacant, rfl⟩
      cases hadm with
      | nested hf h => exact ⟨_, hf, hvacant _ rfl, h, by simp [forWhole?, forField?]⟩

/-! ## All additions -/

theorem build_append (s : Shape Ty) (o : Options) (additions : List Addition)
    (addition : Addition) :
    build s o (additions ++ [addition]) = build s o additions >>= fun c => c.add addition := by
  unfold build
  rw [List.foldlM_append]
  apply bind_congr
  intro c
  rw [List.foldlM_cons]
  cases c.add addition <;> rfl

theorem filterMap_snoc {α β : Type} (g : α → Option β) (xs : List α) (x : α) :
    (xs ++ [x]).filterMap g = xs.filterMap g ++ (g x).toList := by
  rw [List.filterMap_append]
  cases h : g x <;> simp [h]

/-- No two of the additions are for one field. -/
def Apart (additions : List Addition) : Prop :=
  ((additions.filterMap forField?).map (·.1)).Nodup

theorem apart_snoc {additions : List Addition} {addition : Addition} :
    Apart (additions ++ [addition]) ↔ Apart additions ∧
      ∀ e ∈ addition.forField?, (additions.filterMap forField?).lookup e.1 = none := by
  unfold Apart
  rw [filterMap_snoc, List.map_append]
  cases addition.forField? with
  | none => simp
  | some e =>
    simp only [Option.mem_def, Option.some.injEq, forall_eq', Entries.lookup_eq_none_iff]
    rw [List.nodup_append_comm, and_comm]
    exact List.nodup_cons

/-- Additions succeed just if each is admissible by itself and no two are for one field. -/
theorem build_eq_ok_iff {additions : List Addition} :
    build s o additions = .ok c ↔
      (∀ addition ∈ additions, Admissible s o addition) ∧ Apart additions ∧
      c = ⟨s, (additions.filterMap forWhole?).getLast?, additions.filterMap forField?, o⟩ := by
  induction additions using List.reverseRecOn generalizing c with
  | nil =>
    rw [build, List.foldlM_nil, Outcome.pure_eq_ok]
    simp [empty, Apart]
  | append_singleton additions addition ih =>
    have hlast : ((additions ++ [addition]).filterMap forWhole?).getLast? =
        addition.forWhole?.or (additions.filterMap forWhole?).getLast? := by
      rw [filterMap_snoc, List.getLast?_append]
      cases addition.forWhole? <;> rfl
    rw [build_append, Outcome.bind_eq_ok, apart_snoc, hlast, filterMap_snoc,
      List.forall_mem_append, List.forall_mem_singleton]
    constructor
    · rintro ⟨b, hb, hadd⟩
      obtain ⟨hadm, hapart, rfl⟩ := ih.mp hb
      obtain ⟨ha, hvacant, rfl⟩ := add_eq_ok_iff.mp hadd
      exact ⟨⟨hadm, ha⟩, ⟨hapart, hvacant⟩, rfl⟩
    · rintro ⟨⟨hadm, ha⟩, ⟨hapart, hvacant⟩, rfl⟩
      exact ⟨_, ih.mpr ⟨hadm, hapart, rfl⟩, add_eq_ok_iff.mpr ⟨ha, hvacant, rfl⟩⟩

/-! ## Another order -/

theorem eq_of_perm_of_length_le_one {α : Type} {xs ys : List α} (h : xs.Perm ys)
    (hone : xs.length ≤ 1) : xs = ys := by
  match xs, hone with
  | [], _ => exact (List.nil_perm.mp h).symm
  | [x], _ => exact (List.singleton_perm.mp h)

/-- Cascades resolve alike if they have the same default for the whole and for each field. -/
theorem resolve_eq_of_default? (hshape : c.shape = c'.shape)
    (hwhole : c.objectDefault? = c'.objectDefault?)
    (hfields : ∀ name, c.default? name = c'.default? name) (supplied? : Option Value)
    (o : Options) : c.resolve supplied? o = c'.resolve supplied? o :=
  resolveFrom_congr c c' hshape (by rw [hwhole]) fun _ _ name => .inl (hfields name)

theorem Apart.perm {additions additions' : List Addition} (h : Apart additions)
    (hp : additions.Perm additions') : Apart additions' :=
  ((hp.filterMap forField?).map Prod.fst).nodup_iff.mp h

/-- Additions succeed or fail in any order alike, and unless there are two defaults for the
whole, the cascades that they come to resolve every argument alike. -/
theorem build_perm (s : Shape Ty) (o : Options) {additions additions' : List Addition}
    (hp : additions.Perm additions') (hone : (additions.filterMap forWhole?).length ≤ 1) :
    (∀ c, build s o additions = .ok c → ∃ c', build s o additions' = .ok c' ∧
      ∀ supplied? o', c'.resolve supplied? o' = c.resolve supplied? o' ∧
        c'.apply supplied? o' = c.apply supplied? o') ∧
    ∀ e, build s o additions = .error e → ∃ e', build s o additions' = .error e' := by
  constructor
  · intro c hc
    obtain ⟨hadm, hapart, rfl⟩ := build_eq_ok_iff.mp hc
    have hadm' : ∀ addition ∈ additions', Admissible s o addition :=
      fun addition h => hadm addition (hp.mem_iff.mpr h)
    have hwhole := eq_of_perm_of_length_le_one (hp.filterMap forWhole?) hone
    refine ⟨_, build_eq_ok_iff.mpr ⟨hadm', hapart.perm hp, rfl⟩, fun supplied? o' => ?_⟩
    rw [and_iff_left_of_imp apply_eq_of_resolve_eq]
    apply resolve_eq_of_default?
    · rfl
    · exact congrArg List.getLast? hwhole.symm
    · exact fun name => (Entries.lookup_perm (hp.filterMap forField?) hapart name).symm
  · intro e he
    cases hbuilt : build s o additions' with
    | error e' => exact ⟨e', rfl⟩
    | ok c =>
      obtain ⟨hadm, hapart, -⟩ := build_eq_ok_iff.mp hbuilt
      have hadm' : ∀ addition ∈ additions, Admissible s o addition :=
        fun addition h => hadm addition (hp.mem_iff.mp h)
      cases he.symm.trans (build_eq_ok_iff.mpr ⟨hadm', hapart.perm hp.symm, rfl⟩)

/-- The reverse order puts the defaults of the fields in another order, which does not show.
With a second default for the mode there is no order that succeeds. -/
theorem build_perm_server :
    let whole : Value := .object [("extra", .null)]
    let additions : List Addition := [.fieldDefault "mode" (.string "on"), .objectDefault whole,
      .nested "socket" socketCascade]
    let c := { serverCascade with objectDefault? := some whole }
    let out : Value := .object [("extra", .null),
      ("socket", .object [("port", .string "https"), ("log", .object [("path", .string "log")])]),
      ("mode", .string "on")]
    let repeated := .fieldDefault "mode" (.string "off") :: additions
    (additions.filterMap forWhole?).length ≤ 1 ∧ build serverShape {} additions = .ok c ∧
      c.apply none {} = .ok out ∧
      (∃ c', build serverShape {} additions.reverse = .ok c' ∧ c'.apply none {} = .ok out) ∧
      build serverShape {} repeated = .error (.duplicateField "mode") ∧
      ∃ e, build serverShape {} repeated.reverse = .error e := by
  intro whole additions c out repeated
  have hc : build serverShape {} additions = .ok c := rfl
  have hrepeated : build serverShape {} repeated = .error (.duplicateField "mode") := rfl
  have hone : (additions.filterMap forWhole?).length ≤ 1 := Nat.le_refl 1
  obtain ⟨hok, -⟩ := build_perm serverShape {} (List.reverse_perm additions).symm hone
  obtain ⟨-, herror⟩ := build_perm serverShape {} (List.reverse_perm repeated).symm hone
  obtain ⟨c', hc', hsame⟩ := hok c hc
  exact ⟨hone, hc, rfl, ⟨c', hc', (hsame none {}).2⟩, hrepeated, herror _ hrepeated⟩

-- Of two defaults for the whole the later one stands, and so their order shows.
example :
    let s : Shape Ty := ⟨[⟨"mode", false, false, .intrinsic .string⟩]⟩
    let on : Value := .object [("mode", .string "on")]
    let off : Value := .object [("mode", .string "off")]
    let resolved (v w : Value) := do
      let c ← (build s {} [.objectDefault v, .objectDefault w]).toOption
      (c.resolve none {}).toOption
    resolved on off = some off ∧ resolved off on = some on := ⟨rfl, rfl⟩

end ShapeTyping.Cascade
