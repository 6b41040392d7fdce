import ShapeTyping.Cascade.Resolution
import ShapeTyping.Proofs.Outcome
/-! What is told of a resolution that fails. The text of a path that grows on the way in is the text
of the names that are put together on the way back, and the levels that are counted up are those
that are counted down, so that both ways to resolve an argument come to the same. -/
namespace ShapeTyping

namespace ResolveError

/-- The text of a path that goes on from one whose text is known. -/
def textFrom (text : String) (path : List String) : String :=
  (path.map .field).foldl Step.append text

/-- What is told of an error where the text of a path is known already. -/
def toldFrom (text : String) : ResolveError → Refusal
  | .missingRequiredField path => .missingRequiredField (textFrom text path)
  | .notAnObject path => .notAnObject (Refusal.place (textFrom text path))
  | .depthExceeded limit => .depthExceeded limit

def told (e : ResolveError) : Refusal := e.toldFrom ""

theorem toldFrom_under (text name : String) (e : ResolveError) :
    (e.under name).toldFrom text = e.toldFrom (Step.append text (.field name)) := by
  cases e <;> rfl

end ResolveError

namespace Cascade

variable {ε ε' : Type}

theorem start_mapError (g : ε → ε') (e : ε) (objectDefault? supplied? : Option Value) :
    start (g e) objectDefault? supplied? = (start e objectDefault? supplied?).mapError g := by
  unfold start
  split
  · rfl
  · rfl
  · split <;> rfl

theorem fillFields_mapError {g : ε → ε'}
    {fill : Field Ty → Option Value → Except ε (Option Value)}
    {fill' : Field Ty → Option Value → Except ε' (Option Value)}
    (h : ∀ f v?, fill' f v? = (fill f v?).mapError g) (fs : List (Field Ty))
    (entries : List (String × Value)) :
    fillFields fill' fs entries = (fillFields fill fs entries).mapError g := by
  induction fs generalizing entries with
  | nil => rfl
  | cons f fs ih =>
    rw [fillFields, fillFields, h]
    cases fill f ((entries.lookup f.name).filter fun v => !v.isUndefined) with
    | error e => rfl
    | ok filled? =>
      cases filled? with
      | none => exact ih entries
      | some v => exact ih _

theorem applyAt_of_limit_lt {o : Options} {depth : Nat} (h : o.cascadeLimit < depth) (path : String)
    (supplied? : Option Value) (c : Cascade) :
    applyAt o path depth supplied? c = .error (.depthExceeded o.cascadeLimit) := by
  cases c
  rw [applyAt, if_pos h]

mutual
theorem applyAt_eq (o : Options) (path : String) {depth : Nat} (h : depth ≤ o.cascadeLimit)
    (supplied? : Option Value) (c : Cascade) :
    applyAt o path depth supplied? c =
      (resolveFrom o.cascadeLimit (o.cascadeLimit - depth) supplied? c).mapError
        (ResolveError.toldFrom path) :=
  match c with
  | ⟨s, objectDefault?, defaults, _⟩ => by
    have hstart := start_mapError (ResolveError.toldFrom path) (.notAnObject []) objectDefault?
      supplied?
    have hfields := fillFields_mapError (fun f v? => applyField_eq o path h f v? defaults) s.fields
    rw [applyAt, resolveFrom, if_neg (Nat.not_lt.mpr h), base, Outcome.mapError_bind, ← hstart]
    simp only [Outcome.mapError_bind, ← hfields]
    rfl
termination_by structural c
theorem applyField_eq (o : Options) (path : String) {depth : Nat} (h : depth ≤ o.cascadeLimit)
    (f : Field Ty) (v? : Option Value) (defaults : List (String × Default Cascade)) :
    applyField o (Step.append path (.field f.name)) depth f v? defaults =
      (resolveField o.cascadeLimit (o.cascadeLimit - depth) f v? defaults).mapError
        (ResolveError.toldFrom path) :=
  match defaults with
  | [] => by
    rw [applyField, resolveField]
    split <;> rfl
  | (name, .value v) :: defaults => by
    rw [applyField, resolveField.eq_def]
    dsimp only
    split
    · rfl
    · exact applyField_eq o path h f v? defaults
  | (name, .nested c) :: defaults => by
    rw [applyField, resolveField.eq_def]
    dsimp only
    split
    · split
      -- the level below is the one at which either way to count reaches the limit
      · cases hlevels : o.cascadeLimit - depth with
        | zero =>
          rw [applyAt_of_limit_lt (by omega)]
          rfl
        | succ levels =>
          have hbelow : o.cascadeLimit - (depth + 1) = levels := by omega
          rw [applyAt_eq o _ (by omega), hbelow]
          dsimp only
          cases resolveFrom o.cascadeLimit levels v? c with
          | ok v => rfl
          | error e => exact congrArg Except.error (e.toldFrom_under path f.name).symm
      · rfl
    · exact applyField_eq o path h f v? defaults
termination_by structural defaults
end

/-- What an argument comes to is what resolving it by names gives, told in text. -/
theorem apply_eq (c : Cascade) (supplied? : Option Value) (o : Options) :
    c.apply supplied? o = (c.resolve supplied? o).mapError ResolveError.told :=
  applyAt_eq o "" (Nat.zero_le _) supplied? c

theorem apply_eq_of_resolve_eq {c c' : Cascade} {supplied? : Option Value} {o : Options}
    (h : c.resolve supplied? o = c'.resolve supplied? o) :
    c.apply supplied? o = c'.apply supplied? o := by
  rw [apply_eq, apply_eq, h]

theorem apply_eq_ok_iff {c : Cascade} {supplied? : Option Value} {o : Options} {out : Value} :
    c.apply supplied? o = .ok out ↔ c.resolve supplied? o = .ok out := by
  rw [apply_eq, Outcome.mapError_eq_ok]

end Cascade
end ShapeTyping
