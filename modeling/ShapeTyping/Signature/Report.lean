import ShapeTyping.Signature.Mismatch
/-! Reporting mismatches. Checking stops at the first one, which a report keeps if
it was asked to. -/
namespace ShapeTyping

inductive Report where
  /-- Keeps nothing. -/
  | silent
  /-- Keeps the first mismatch it is told of. -/
  | first (kept? : Option Mismatch)

namespace Report

/-- Tells of a mismatch. The answer says whether to go on checking. -/
def tell (report : Report) (m : Mismatch) : Bool × Report :=
  match report with
  | .silent => (false, .silent)
  | .first none => (false, .first (some m))
  | .first (some kept) => (false, .first (some kept))

def kept? : Report → Option Mismatch
  | .silent => none
  | .first kept? => kept?

/-- Hands over what was kept and starts again. -/
def take : Report → Option Mismatch × Report
  | .silent => (none, .silent)
  | .first kept? => (kept?, .first none)

/-- Looks into conditions in order and tells of those not met, until told to
stop. -/
def run (report : Report) : List Condition → Bool × Report
  | [] => (true, report)
  | condition :: rest =>
    match condition () with
    | none => report.run rest
    | some m =>
      match report.tell m with
      | (true, report) => report.run rest
      | (false, report) => (false, report)

theorem fst_tell (report : Report) (m : Mismatch) : (report.tell m).1 = false := by
  rcases report with _ | _ | _ <;> rfl

theorem fst_take (report : Report) : report.take.1 = report.kept? := by
  cases report <;> rfl

/-- Whatever a report keeps, it lets pass what meets all conditions. -/
theorem fst_run (report : Report) (conditions : List Condition) :
    (report.run conditions).1 = (conditions.findSome? fun condition => condition ()).isNone := by
  induction conditions with
  | nil => rfl
  | cons condition rest ih =>
    cases h : condition () with
    | none => simpa [run, h] using ih
    | some m =>
      have hstop := report.fst_tell m
      cases htell : report.tell m with
      | mk goOn told => simp_all [run]

/-- A report that starts empty keeps the first mismatch there is. -/
theorem kept?_run_first (conditions : List Condition) :
    ((first none).run conditions).2.kept? = conditions.findSome? fun condition => condition () := by
  induction conditions with
  | nil => rfl
  | cons condition rest ih =>
    cases h : condition () with
    | none => simpa [run, h] using ih
    | some m => simp [run, tell, kept?, h]

/-- Where the answer is no, such a report has a mismatch to hand over. -/
theorem exists_taken_of_run {conditions : List Condition}
    (h : ((first none).run conditions).1 = false) :
    ∃ m, ((first none).run conditions).2.take.1 = some m := by
  rw [fst_run, Option.isNone_eq_false_iff, Option.isSome_iff_exists] at h
  rwa [fst_take, kept?_run_first]

end Report

namespace Signature

/-- The mismatch that a report of `c` standing for `r` keeps. -/
def firstMismatch? (o : Options) (relation : ResultRelation) (c r : Signature Ty) :
    Option Mismatch :=
  ((Report.first none).run (conditions o relation c r)).2.kept?

/-- The first reason why `c` may not stand where `r` is wanted. -/
def explain? (c r : Signature Ty) (o : Options) : Option Mismatch :=
  firstMismatch? o .covariant c r

end Signature

end ShapeTyping
