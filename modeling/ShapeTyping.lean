import ShapeTyping.Assignability.Checker
import ShapeTyping.Cascade.Resolution
import ShapeTyping.Conformance.Walker
import ShapeTyping.Guard.Display
import ShapeTyping.Json.Reader
import ShapeTyping.Narrowing.Selection
import ShapeTyping.Options.Document
import ShapeTyping.Shape.Derived
import ShapeTyping.Signature.Overload
import ShapeTyping.Value.Json
import ShapeTyping.Proofs.Nested
import ShapeTyping.Proofs.Ty.WellFormed
import ShapeTyping.Proofs.Ty.Same
import ShapeTyping.Proofs.Assignability.Related
import ShapeTyping.Proofs.Conformance.Acceptance
import ShapeTyping.Proofs.Conformance.Soundness
import ShapeTyping.Proofs.Conformance.Budget
import ShapeTyping.Proofs.Ty.Union
import ShapeTyping.Proofs.Assignability.Congruence
import ShapeTyping.Proofs.Conformance.Singleton
import ShapeTyping.Proofs.Assignability.Inversion
import ShapeTyping.Proofs.Assignability.Transitivity
import ShapeTyping.Proofs.Cascade.Resolution
import ShapeTyping.Proofs.Cascade.Addition
import ShapeTyping.Proofs.Cascade.WellTyped
import ShapeTyping.Proofs.Cascade.Idempotence
import ShapeTyping.Proofs.Cascade.Completeness
import ShapeTyping.Proofs.Assignability.Checker
import ShapeTyping.Proofs.Value.Same
import ShapeTyping.Proofs.Conformance.Congruence
import ShapeTyping.Proofs.Interchange
import ShapeTyping.Proofs.Signature.Mismatch
import ShapeTyping.Proofs.Signature.Compatibility
import ShapeTyping.Proofs.Signature.Explanation
import ShapeTyping.Proofs.Options.Loosening
import ShapeTyping.Proofs.Shape.Intersection
import ShapeTyping.Proofs.Cascade.Precedence
import ShapeTyping.Proofs.Conformance.Walker
import ShapeTyping.Proofs.Conformance.Culprit
import ShapeTyping.Proofs.Guard.Calls
import ShapeTyping.Proofs.Narrowing.Machine
import ShapeTyping.Proofs.Narrowing.FirstMatch
import ShapeTyping.Proofs.Guard.Unvarying
import ShapeTyping.Proofs.Narrowing.Partition
import ShapeTyping.Proofs.Ty.Construction
import ShapeTyping.Proofs.Conformance.Union
import ShapeTyping.Proofs.Conformance.Limit
import ShapeTyping.Proofs.Shape.OperandOrder
import ShapeTyping.Proofs.Shape.CommonValues
import ShapeTyping.Proofs.Cascade.Frame
import ShapeTyping.Proofs.Cascade.Telling
import ShapeTyping.Proofs.Cascade.Faults
import ShapeTyping.Proofs.Cascade.Limit
import ShapeTyping.Proofs.Cascade.BuildOrder
import ShapeTyping.Proofs.Guard.Algebra
import ShapeTyping.Proofs.Shape.Modification
import ShapeTyping.Proofs.Shape.Selection
import ShapeTyping.Proofs.Signature.Construction
import ShapeTyping.Proofs.Assignability.Overrun
import ShapeTyping.Proofs.Json.Complete
import ShapeTyping.Proofs.Json.Reader
import ShapeTyping.Proofs.Options.Document
import ShapeTyping.Proofs.Ty.Marks
import ShapeTyping.Proofs.Ty.Reading
import ShapeTyping.Proofs.Shape.Table
import ShapeTyping.Proofs.Shape.Derivation
