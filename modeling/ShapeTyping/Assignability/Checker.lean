import ShapeTyping.Assignability.Walk
/-! A checker answers one question after another. It counts the levels that it is nested in while
it works on an answer, and remembers that it had to stop at the limit. -/
namespace ShapeTyping

structure Checker where
  options : Options
  /-- The levels that the walk is nested in. -/
  depth : Nat := 0
  /-- Some walk so far gave up. -/
  gaveUp : Bool := false

namespace Checker

/-- A checker that has not been asked yet. -/
def fresh (o : Options) : Checker := { options := o }

/-- How to answer the questions about pairs of types that are smaller than two given ones. -/
abbrev Below (s t : Ty) :=
  (a b : Ty) → sizeOf a + sizeOf b < sizeOf s + sizeOf t → StateM Checker Bool

/-- The candidate's type is below the required one, and back. -/
def compareParams (variance : Variance) (there back : StateM Checker Bool) : StateM Checker Bool :=
  match variance with
  | .equivalent => there <&&> back
  | .contravariant => back
  | .bivariant => back <||> there

def compareSignatures (variance : Variance) (c r : Signature Ty)
    (below : Below (.function c) (.function r)) : StateM Checker Bool :=
  pure (c.requiredCount ≤ r.params.length : Bool) <&&>
    (c.params.zip r.params).attach.allM (fun ⟨(p, q), h⟩ =>
      have hp := Ty.sizeOf_param_lt (List.of_mem_zip h).1
      have hq := Ty.sizeOf_param_lt (List.of_mem_zip h).2
      compareParams variance (below p.type q.type (by omega)) (below q.type p.type (by omega))) <&&>
    pure ((r.params.drop c.params.length).all fun q => q.optional) <&&>
    below c.result r.result (Nat.add_lt_add (Ty.sizeOf_result_lt c) (Ty.sizeOf_result_lt r))

def compareShapes (s t : Shape Ty) (below : Below (.shape s) (.shape t)) : StateM Checker Bool :=
  t.fields.attach.allM fun ⟨g, hg⟩ =>
    match hf : s.field? g.name with
    | some f =>
      pure (!f.optional || g.optional) <&&> below f.type g.type
        (Nat.add_lt_add (Ty.sizeOf_field_lt (List.mem_of_find?_eq_some hf)) (Ty.sizeOf_field_lt hg))
    | none => pure g.optional

def compareApplications (m n : String) (ss ts : List Ty)
    (below : Below (.application m ss) (.application n ts)) : StateM Checker Bool :=
  pure (m == n && ss.length == ts.length) <&&>
    (ss.zip ts).attach.allM fun ⟨(s, t), h⟩ =>
      have hs := Ty.sizeOf_argument_lt m (List.of_mem_zip h).1
      have ht := Ty.sizeOf_argument_lt n (List.of_mem_zip h).2
      below s t (by omega) <&&> below t s (by omega)

/-- Two types that differ, one level further in. -/
def compare (o : Options) (s t : Ty) (below : Below s t) : StateM Checker Bool :=
  if t.isIntrinsic .any || t.isIntrinsic .unknown then pure true
  else if s.isIntrinsic .any || s.isIntrinsic .never then pure true
  else if !o.strictNullChecks && (s.isIntrinsic .null || s.isIntrinsic .undefined) then
    pure true
  else if s.isIntrinsic .undefined && t.isIntrinsic .void then pure true
  else match s, t with
    | .union members, t =>
      members.attach.allM fun ⟨member, h⟩ =>
        below member t (Nat.add_lt_add_right (Ty.sizeOf_member_lt h) _)
    | s, .union members =>
      members.attach.anyM fun ⟨member, h⟩ =>
        below s member (Nat.add_lt_add_left (Ty.sizeOf_member_lt h) _)
    | .literal value, .intrinsic kind => pure (value.widened == kind)
    | .shape a, .shape b => compareShapes a b below
    | .function c, .function r => compareSignatures o.parameterVariance c r below
    | .array a, .array b =>
      below a b (Nat.add_lt_add (Ty.sizeOf_element_lt a) (Ty.sizeOf_element_lt b))
    | .application m ss, .application n ts => compareApplications m n ss ts below
    | _, _ => pure false

/-- Whether `s` is assignable to `t`, as seen from the depth that the checker is at. Equal types
need no level. -/
def walk (s t : Ty) : StateM Checker Bool := do
  if s.same t then return true
  let c ← get
  if c.options.maxDepth ≤ c.depth then
    set { c with gaveUp := true }
    return false
  modify fun c => { c with depth := c.depth + 1 }
  let answer ← compare c.options s t fun a b _ => walk a b
  modify fun c => { c with depth := c.depth - 1 }
  return answer
termination_by sizeOf s + sizeOf t

def assignable (c : Checker) (s t : Ty) : Bool × Checker := (walk s t).run c

def equivalent (c : Checker) (s t : Ty) : Bool × Checker := (walk s t <&&> walk t s).run c

end Checker
end ShapeTyping
