import ShapeTyping.Options.Basic
/-! Options in the order of what they let pass. -/
namespace ShapeTyping

/-- Each way to compare parameters asks for no more than the ones before it. -/
def Variance.looseness : Variance → Nat
  | .equivalent => 0
  | .contravariant => 1
  | .bivariant => 2

/-- The options `o'` are at least as loose as `o` in all that a comparison of types
or a check of a value reads. -/
structure Options.AtMost (o o' : Options) : Prop where
  strictNullChecks : o'.strictNullChecks = true → o.strictNullChecks = true
  parameterVariance : o.parameterVariance.looseness ≤ o'.parameterVariance.looseness
  exactOptionalPropertyTypes :
    o'.exactOptionalPropertyTypes = true → o.exactOptionalPropertyTypes = true
  maxDepth : o.maxDepth ≤ o'.maxDepth

namespace Options.AtMost

theorem refl (o : Options) : o.AtMost o := ⟨id, Nat.le_refl _, id, Nat.le_refl _⟩

variable {o o' : Options}

theorem looseNulls (h : o.AtMost o') (ho : o.strictNullChecks = false) :
    o'.strictNullChecks = false := by
  cases hs : o'.strictNullChecks with
  | false => rfl
  | true => rw [h.strictNullChecks hs] at ho; cases ho

theorem looseOptionals (h : o.AtMost o') (ho : o.exactOptionalPropertyTypes = false) :
    o'.exactOptionalPropertyTypes = false := by
  cases hs : o'.exactOptionalPropertyTypes with
  | false => rfl
  | true => rw [h.exactOptionalPropertyTypes hs] at ho; cases ho

theorem conformanceLimit (h : o.AtMost o') : o.conformanceLimit ≤ o'.conformanceLimit := by
  have := h.maxDepth
  unfold Options.conformanceLimit
  split <;> split <;> omega

end Options.AtMost
end ShapeTyping
