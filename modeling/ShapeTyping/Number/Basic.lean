/-! Binary64 numbers, held as their words. Everything the checker asks of a
number (is it zero, is it the same number as that one) is read off the word's
three fields, so no floating-point operation is needed. -/
namespace ShapeTyping

/-- A binary64 number by its word: a sign bit, eleven exponent bits and 52
fraction bits. -/
structure Number where
  word : UInt64

namespace Number

def isNegative (x : Number) : Bool := 0x8000000000000000 ≤ x.word.toNat

def exponentField (x : Number) : Nat := x.word.toNat / 0x10000000000000 % 0x800

def fractionField (x : Number) : Nat := x.word.toNat % 0x10000000000000

def isNaN (x : Number) : Bool := x.exponentField == 2047 && x.fractionField != 0

def isInfinite (x : Number) : Bool := x.exponentField == 2047 && x.fractionField == 0

/-- Both zeros. -/
def isZero (x : Number) : Bool := x.word.toNat % 0x8000000000000000 == 0

/-- Numeric equality: the two zeros are one number, and a NaN is no number at
all, so it equals nothing. -/
def same (x y : Number) : Bool :=
  !x.isNaN && !y.isNaN && (x.word == y.word || (x.isZero && y.isZero))

theorem same_iff {x y : Number} :
    x.same y = true ↔ x.isNaN = false ∧ y.isNaN = false ∧
      (x.word = y.word ∨ (x.isZero = true ∧ y.isZero = true)) := by
  simp [same, and_assoc]

theorem same_self (x : Number) : x.same x = !x.isNaN := by simp [same]

theorem same_comm (x y : Number) : x.same y = y.same x := by
  rw [Bool.eq_iff_iff, same_iff, same_iff]
  constructor
  · rintro ⟨hx, hy, h⟩
    exact ⟨hy, hx, h.imp Eq.symm And.symm⟩
  · rintro ⟨hy, hx, h⟩
    exact ⟨hx, hy, h.imp Eq.symm And.symm⟩

private theorem isZero_eq_of_word {x y : Number} (h : x.word = y.word) : x.isZero = y.isZero := by
  simp [isZero, h]

theorem same_trans {x y z : Number} (hxy : x.same y = true) (hyz : y.same z = true) :
    x.same z = true := by
  obtain ⟨hx, _, h⟩ := same_iff.1 hxy
  obtain ⟨_, hz, k⟩ := same_iff.1 hyz
  refine same_iff.2 ⟨hx, hz, ?_⟩
  rcases h with h | ⟨h, h'⟩ <;> rcases k with k | ⟨k, k'⟩
  · exact .inl (h.trans k)
  · exact .inr ⟨isZero_eq_of_word h ▸ k, k'⟩
  · exact .inr ⟨h, isZero_eq_of_word k ▸ h'⟩
  · exact .inr ⟨h, k'⟩

def nan : Number := ⟨0x7ff8000000000000⟩

def zero (negative : Bool) : Number :=
  ⟨if negative then 0x8000000000000000 else 0⟩

def infinity (negative : Bool) : Number :=
  ⟨if negative then 0xfff0000000000000 else 0x7ff0000000000000⟩

/-- A finite number is `significand * 2 ^ (scale - 1074)`, up to its sign. -/
def significand (x : Number) : Nat :=
  if x.exponentField = 0 then x.fractionField else 0x10000000000000 + x.fractionField

def scale (x : Number) : Nat := x.exponentField - 1

end Number
end ShapeTyping
