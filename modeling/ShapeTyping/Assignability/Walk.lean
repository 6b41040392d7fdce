import ShapeTyping.Assignability.Verdict
import ShapeTyping.Options.Basic
import ShapeTyping.Signature.Basic
/-! Assignability: may a value of one type stand where another type is wanted?
Types are compared by structure, one level at a time. A walk that would nest
deeper than its limit answers no and says that it gave up. -/
namespace ShapeTyping

def Ty.isIntrinsic (t : Ty) (kind : Intrinsic) : Bool := t.intrinsic? == some kind

/-- How the results of two signatures are compared. -/
inductive ResultRelation where
  /-- The candidate's is assignable to the required one. -/
  | covariant
  /-- One of the two is assignable to the other. -/
  | either
deriving DecidableEq

namespace Assignability

/-- Two types each below the other. -/
def both (below : Ty → Ty → Verdict) (s t : Ty) : Verdict := (below s t).and fun _ => below t s

def paramsRelated (variance : Variance) (below : Ty → Ty → Verdict) (candidate required : Ty) :
    Verdict :=
  match variance with
  | .equivalent => both below candidate required
  | .contravariant => below required candidate
  | .bivariant => (below required candidate).or fun _ => below candidate required

def resultsRelated (relation : ResultRelation) (below : Ty → Ty → Verdict)
    (candidate required : Ty) : Verdict :=
  match relation with
  | .covariant => below candidate required
  | .either => (below candidate required).or fun _ => below required candidate

/-- Whether a function of signature `c` may stand where `r` is wanted: it asks for
no more arguments than `r` declares, the parameters at each shared position are
related, those of `r` past its own are optional, and the results are related. -/
def signature (variance : Variance) (relation : ResultRelation) (below : Ty → Ty → Verdict)
    (c r : Signature Ty) : Verdict :=
  (Verdict.ofBool (c.requiredCount ≤ r.params.length)).and fun _ =>
    (Verdict.all (fun (p, q) => paramsRelated variance below p.type q.type)
      (c.params.zip r.params)).and fun _ =>
      (Verdict.ofBool ((r.params.drop c.params.length).all fun q => q.optional)).and fun _ =>
        resultsRelated relation below c.result r.result

/-- Every field of the target is there and fits, or may be absent. An optional
field does not fit a required one. -/
def shape (below : Ty → Ty → Verdict) (s t : Shape Ty) : Verdict :=
  Verdict.all
    (fun g => match s.field? g.name with
      | some f =>
        (Verdict.ofBool (!f.optional || g.optional)).and fun _ => below f.type g.type
      | none => Verdict.ofBool g.optional)
    t.fields

/-- Named types are told apart by name, and their arguments may not vary. -/
def application (below : Ty → Ty → Verdict) (m n : String) (ss ts : List Ty) : Verdict :=
  (Verdict.ofBool (m == n && ss.length == ts.length)).and fun _ =>
    Verdict.all (fun (s, t) => both below s t) (ss.zip ts)

/-- Two types that differ, where `below` compares their parts. The members of a
union on the left are taken apart before a union on the right, so that each may
find its own place there. -/
def step (o : Options) (below : Ty → Ty → Verdict) (s t : Ty) : Verdict :=
  if t.isIntrinsic .any || t.isIntrinsic .unknown then .ofBool true
  else if s.isIntrinsic .any || s.isIntrinsic .never then .ofBool true
  else if !o.strictNullChecks && (s.isIntrinsic .null || s.isIntrinsic .undefined) then
    .ofBool true
  else if s.isIntrinsic .undefined && t.isIntrinsic .void then .ofBool true
  else match s, t with
    | .union members, _ => Verdict.all (fun member => below member t) members
    | _, .union members => Verdict.any (fun member => below s member) members
    | .literal value, .intrinsic kind => .ofBool (value.widened == kind)
    | .shape a, .shape b => shape below a b
    | .function c, .function r => signature o.parameterVariance .covariant below c r
    | .array a, .array b => below a b
    | .application m ss, .application n ts => application below m n ss ts
    | _, _ => .ofBool false

/-- The walk with so many levels left. Equal types need no level. -/
def walk (o : Options) : Nat → Ty → Ty → Verdict
  | levels, s, t =>
    if s.same t then .ofBool true
    else match levels with
      | 0 => .undecided
      | levels + 1 => step o (walk o levels) s t

theorem walk_zero (o : Options) (s t : Ty) :
    walk o 0 s t = if s.same t then .ofBool true else .undecided := by rw [walk]

theorem walk_succ (o : Options) (n : Nat) (s t : Ty) :
    walk o (n + 1) s t = if s.same t then .ofBool true else step o (walk o n) s t := by rw [walk]

/-- The verdict on `s` being assignable to `t`. -/
def verdict (o : Options) (s t : Ty) : Verdict := walk o o.maxDepth s t

end Assignability

def Ty.isAssignable (s t : Ty) (o : Options) : Bool := (Assignability.verdict o s t).holds

end ShapeTyping
