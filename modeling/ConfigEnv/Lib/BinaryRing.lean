/-
Module: ConfigEnv.Lib.BinaryRing
Layer: Lib
Purpose: The words of `BinaryField` as elements of a commutative ring of characteristic two, so that
  sums over rows and polynomial arguments can be made with Mathlib's algebra. The carrier is the
  word itself: `Elem.of` only changes the type, and no operation is redefined.
Trusted boundary: none
Main exports: mul_one, xor_mul, Elem, Elem.of, of_xor, of_mul, of_injective
Open obligations: none
-/
import ConfigEnv.Lib.BinaryField
import Mathlib.Algebra.Ring.Defs

namespace ConfigEnv.BinaryField

variable {w : Nat}

/-- One is neutral on the right. -/
theorem mul_one (poly a : BitVec w) : mul poly a 1 = a :=
  (mul_comm poly a 1).trans (one_mul poly a)

/-- Multiplication distributes over addition on the left. -/
theorem xor_mul (poly a b x : BitVec w) :
    mul poly (a ^^^ b) x = mul poly a x ^^^ mul poly b x := by
  rw [mul_comm poly _ x, mul_xor, mul_comm poly x a, mul_comm poly x b]

/-- A word read as a residue of GF(2)[x] modulo `x^w + poly`. -/
def Elem (_poly : BitVec w) : Type := BitVec w

namespace Elem

variable {poly : BitVec w}

/-- A word as a ring element. -/
def of (poly : BitVec w) (a : BitVec w) : Elem poly := a

instance : Zero (Elem poly) := ⟨of poly 0#w⟩
instance : One (Elem poly) := ⟨of poly 1#w⟩
instance : Add (Elem poly) := ⟨fun a b => of poly (BitVec.xor a b)⟩
instance : Neg (Elem poly) := ⟨fun a => a⟩
instance : Mul (Elem poly) := ⟨fun a b => of poly (BinaryField.mul poly a b)⟩

/-- Addition is exclusive or, and every element is its own opposite. -/
instance : CommRing (Elem poly) where
  add_assoc := BitVec.xor_assoc
  zero_add _ := BitVec.zero_xor
  add_zero _ := BitVec.xor_zero
  add_comm := BitVec.xor_comm
  neg_add_cancel _ := BitVec.xor_self
  mul_assoc := BinaryField.mul_assoc poly
  mul_comm := BinaryField.mul_comm poly
  one_mul := BinaryField.one_mul poly
  mul_one := BinaryField.mul_one poly
  zero_mul := BinaryField.zero_mul poly
  mul_zero := BinaryField.mul_zero poly
  left_distrib := BinaryField.mul_xor poly
  right_distrib := BinaryField.xor_mul poly
  nsmul := nsmulRec
  zsmul := zsmulRec

theorem of_injective : Function.Injective (of poly) := fun _ _ h => h

@[simp] theorem of_inj {a b : BitVec w} : of poly a = of poly b ↔ a = b := Iff.rfl

@[simp] theorem of_zero : of poly 0#w = 0 := rfl

@[simp] theorem of_one : of poly 1#w = 1 := rfl

@[simp] theorem of_xor (a b : BitVec w) : of poly (a ^^^ b) = of poly a + of poly b := rfl

@[simp] theorem of_mul (a b : BitVec w) :
    of poly (BinaryField.mul poly a b) = of poly a * of poly b := rfl

/-- In characteristic two every element is its own negative. -/
@[simp] theorem neg_eq (a : Elem poly) : -a = a := rfl

/-- In characteristic two subtraction is addition. -/
theorem sub_eq_add (a b : Elem poly) : a - b = a + b := by
  rw [sub_eq_add_neg, neg_eq]

end Elem

end ConfigEnv.BinaryField
