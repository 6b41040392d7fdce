import ShapeTyping.Signature.Report
/-! Overloaded functions: one implementation behind several declared signatures. -/
namespace ShapeTyping

structure Overloads where
  declared : List (Signature Ty)
  implementation : Signature Ty

/-- The implementation does not serve the overload at an index. -/
structure OverloadError where
  index : Nat
  reason : Mismatch

def OverloadError.message (e : OverloadError) : String :=
  "this overload signature (#" ++ toString e.index ++
    ") is not compatible with its implementation signature: " ++ e.reason.message

namespace Overloads

/-- At least one signature has to be declared. -/
def ofSignatures (declared : List (Signature Ty)) (implementation : Signature Ty) :
    Except SchemaError Overloads :=
  if declared.isEmpty then .error .emptyOverloadSet else .ok ⟨declared, implementation⟩

/-- Why the implementation does not serve a declared signature. Its result may be
the wider or the narrower one. Were no mismatch kept, the results would be blamed. -/
def refusal? (o : Options) (implementation s : Signature Ty) : Option Mismatch :=
  match (Report.first none).run (Signature.conditions o .either implementation s) with
  | (true, _) => none
  | (false, report) => some (report.take.1.getD (.returnType implementation.result s.result))

/-- Checks the signatures from an index on. -/
def validateFrom (o : Options) (implementation : Signature Ty) (index : Nat) :
    List (Signature Ty) → Except OverloadError Unit
  | [] => .ok ()
  | s :: declared =>
    match refusal? o implementation s with
    | some reason => .error ⟨index, reason⟩
    | none => validateFrom o implementation (index + 1) declared

def validate (overloads : Overloads) (o : Options) : Except OverloadError Unit :=
  validateFrom o overloads.implementation 0 overloads.declared

end Overloads
end ShapeTyping
