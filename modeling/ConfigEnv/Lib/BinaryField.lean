/-
Module: ConfigEnv.Lib.BinaryField
Layer: Lib
Purpose: Multiplication of `w`-bit words as polynomials over GF(2) modulo `x^w + poly`, by shift and
  add. `xtime` is multiplication by `x`; a product is the sum of the iterates of `xtime` selected by
  the bits of the second factor. Every additive map that commutes with `xtime` passes through a
  product (`map_mul_of_xtime`); commutativity and associativity are two instances of it. Nothing
  here assumes the modulus irreducible, so inverses are a property of the two words concerned.
Trusted boundary: none
Main exports: xtime, mul, mul_xor, one_mul, mul_comm, mul_assoc, mul_cancel
Open obligations: none
-/
import Mathlib.Data.List.Basic
import Mathlib.Tactic.Common

namespace ConfigEnv.BinaryField

variable {w : Nat}

/-- Multiplication by `x`: shift left, and reduce by the modulus when the top bit falls out. -/
def xtime (poly a : BitVec w) : BitVec w :=
  (a <<< 1) ^^^ (if a.msb then poly else 0)

/-- The product `x^i * a`. -/
def xpow (poly a : BitVec w) : Nat → BitVec w
  | 0 => a
  | i + 1 => xtime poly (xpow poly a i)

/-- The part of a product that comes from the low `n` bits of the second factor. -/
def mulBits (poly a b : BitVec w) : Nat → BitVec w
  | 0 => 0
  | n + 1 => mulBits poly a b n ^^^ (if b.getLsbD n then xpow poly a n else 0)

/-- Product of two words modulo `x^w + poly`. -/
def mul (poly a b : BitVec w) : BitVec w := mulBits poly a b w

/-! ### `xtime` is additive -/

theorem xor_cancel_left (a b : BitVec w) : a ^^^ (a ^^^ b) = b := by
  rw [← BitVec.xor_assoc, BitVec.xor_self, BitVec.zero_xor]

theorem xor_cancel_right (a b : BitVec w) : a ^^^ b ^^^ b = a := by
  rw [BitVec.xor_assoc, BitVec.xor_self, BitVec.xor_zero]

theorem xtime_zero (poly : BitVec w) : xtime poly 0 = 0 := by
  simp [xtime]

/-- Doubling is additive. -/
theorem xtime_xor (poly a b : BitVec w) :
    xtime poly (a ^^^ b) = xtime poly a ^^^ xtime poly b := by
  have hshift : (a ^^^ b) <<< 1 = (a <<< 1) ^^^ (b <<< 1) := BitVec.shiftLeft_xor_distrib a b 1
  unfold xtime
  rw [hshift, BitVec.msb_xor]
  cases a.msb <;> cases b.msb <;> simp <;> ac_nf
  -- both top bits fall out: the two reductions cancel
  exact (xor_cancel_left poly _).symm

/-- A map is additive when it respects `0` and exclusive or. -/
structure Additive (f : BitVec w → BitVec w) : Prop where
  zero : f 0 = 0
  xor (a b : BitVec w) : f (a ^^^ b) = f a ^^^ f b

theorem xtime_additive (poly : BitVec w) : Additive (xtime poly) :=
  ⟨xtime_zero poly, xtime_xor poly⟩

theorem Additive.ite {f : BitVec w → BitVec w} (hf : Additive f) (c : Bool) (a : BitVec w) :
    f (if c then a else 0) = if c then f a else 0 := by
  cases c
  · exact hf.zero
  · rfl

/-- Repeated doubling is additive. -/
theorem xpow_additive (poly : BitVec w) (i : Nat) : Additive (fun a => xpow poly a i) := by
  induction i with
  | zero => exact ⟨rfl, fun _ _ => rfl⟩
  | succ i ih =>
      refine ⟨?_, fun a b => ?_⟩
      · simp only [xpow, ih.zero, xtime_zero]
      · simp only [xpow, ih.xor, xtime_xor]

/-! ### Maps that commute with `xtime` pass through products -/

/-- A map that commutes with doubling commutes with repeated doubling. -/
theorem map_xpow {poly : BitVec w} {f : BitVec w → BitVec w}
    (hx : ∀ a, f (xtime poly a) = xtime poly (f a)) (a : BitVec w) (i : Nat) :
    f (xpow poly a i) = xpow poly (f a) i := by
  induction i with
  | zero => rfl
  | succ i ih => simp only [xpow, hx, ih]

/-- An additive map that commutes with doubling commutes with the partial products. -/
theorem map_mulBits {poly : BitVec w} {f : BitVec w → BitVec w} (hf : Additive f)
    (hx : ∀ a, f (xtime poly a) = xtime poly (f a)) (a b : BitVec w) (n : Nat) :
    f (mulBits poly a b n) = mulBits poly (f a) b n := by
  induction n with
  | zero => exact hf.zero
  | succ n ih => simp only [mulBits, hf.xor, hf.ite, ih, map_xpow hx]

/-- An additive map that commutes with doubling commutes with multiplication. -/
theorem map_mul_of_xtime {poly : BitVec w} {f : BitVec w → BitVec w} (hf : Additive f)
    (hx : ∀ a, f (xtime poly a) = xtime poly (f a)) (a b : BitVec w) :
    f (mul poly a b) = mul poly (f a) b :=
  map_mulBits hf hx a b w

/-- Reducing before or after multiplying by `x` is the same. -/
theorem xtime_mul (poly a b : BitVec w) :
    xtime poly (mul poly a b) = mul poly (xtime poly a) b :=
  map_mul_of_xtime (xtime_additive poly) (fun _ => rfl) a b

/-! ### Both factors are additive -/

theorem mulBits_left_additive (poly b : BitVec w) (n : Nat) :
    Additive (fun a => mulBits poly a b n) := by
  induction n with
  | zero => exact ⟨rfl, fun _ _ => (BitVec.xor_self).symm⟩
  | succ n ih =>
      refine ⟨?_, fun x y => ?_⟩
      · simp only [mulBits, ih.zero, (xpow_additive poly n).zero]
        simp
      · simp only [mulBits, ih.xor, (xpow_additive poly n).xor]
        cases b.getLsbD n
        · simp
        · simp only [if_true]
          ac_rfl

/-- The partial products are additive in the second factor. -/
theorem mulBits_xor_right (poly a x y : BitVec w) (n : Nat) :
    mulBits poly a (x ^^^ y) n = mulBits poly a x n ^^^ mulBits poly a y n := by
  induction n with
  | zero => exact (BitVec.xor_self).symm
  | succ n ih =>
      simp only [mulBits, ih, BitVec.getLsbD_xor]
      cases x.getLsbD n <;> cases y.getLsbD n <;> simp <;> ac_nf
      exact (xor_cancel_left _ _).symm

/-- Multiplication distributes over addition on the right. -/
theorem mul_xor (poly a x y : BitVec w) :
    mul poly a (x ^^^ y) = mul poly a x ^^^ mul poly a y :=
  mulBits_xor_right poly a x y w

theorem zero_mul (poly b : BitVec w) : mul poly 0 b = 0 :=
  (mulBits_left_additive poly b w).zero

theorem mul_zero (poly a : BitVec w) : mul poly a 0 = 0 := by
  have h := mul_xor poly a 0 0
  simpa using h

/-! ### The unit, commutativity and associativity

The iterates of `xtime` on `1` are the powers of two below the width, so multiplying `1` by `b`
reassembles `b` bit by bit.  Both ring laws follow from that and from `map_mul_of_xtime`. -/

/-- Below the width, repeated doubling of one is a single bit. -/
theorem xpow_one (poly : BitVec w) {i : Nat} (hi : i < w) : xpow poly 1 i = BitVec.twoPow w i := by
  induction i with
  | zero => simp [xpow, BitVec.twoPow]
  | succ i ih =>
      have hmsb : (BitVec.twoPow w i).msb = false := by
        simp [BitVec.msb_twoPow]
        omega
      rw [xpow, ih (by omega), xtime, hmsb]
      ext k hk
      simp only [BitVec.getElem_xor, BitVec.getElem_shiftLeft, BitVec.getElem_twoPow]
      cases k <;> simp

/-- The partial products of one copy the low bits of the other factor. -/
theorem mulBits_one (poly b : BitVec w) {n : Nat} (hn : n ≤ w) (k : Nat) :
    (mulBits poly 1 b n).getLsbD k = (decide (k < n) && b.getLsbD k) := by
  induction n with
  | zero => simp [mulBits]
  | succ n ih =>
      rw [mulBits, xpow_one poly (by omega), BitVec.getLsbD_xor, ih (by omega)]
      by_cases hk : k = n
      · subst hk
        cases b.getLsbD k <;> simp [BitVec.getLsbD_twoPow]
        omega
      · have hlt : decide (k < n + 1) = decide (k < n) := by
          simp only [decide_eq_decide]
          omega
        have hbit : (BitVec.twoPow w n).getLsbD k = false := by
          simp [BitVec.getLsbD_twoPow]
          omega
        rw [hlt]
        cases b.getLsbD n <;> simp [hbit]

/-- One is neutral on the left. -/
theorem one_mul (poly b : BitVec w) : mul poly 1 b = b := by
  refine BitVec.eq_of_getLsbD_eq fun k hk => ?_
  rw [mul, mulBits_one poly b (Nat.le_refl w)]
  simp [hk]

/-- Multiplication is commutative. -/
theorem mul_comm (poly a b : BitVec w) : mul poly a b = mul poly b a := by
  -- `x ↦ x * b` commutes with `xtime`, so it passes through `a = 1 * a`
  have h := map_mul_of_xtime (f := fun x => mul poly x b) (mulBits_left_additive poly b w)
    (fun x => (xtime_mul poly x b).symm) 1 a
  simpa only [one_mul] using h

theorem mul_xtime (poly a b : BitVec w) :
    mul poly a (xtime poly b) = xtime poly (mul poly a b) := by
  rw [mul_comm poly a, ← xtime_mul, mul_comm poly b]

/-- Multiplication is associative. -/
theorem mul_assoc (poly a b c : BitVec w) :
    mul poly (mul poly a b) c = mul poly a (mul poly b c) := by
  have h := map_mul_of_xtime (f := fun x => mul poly a x) ⟨mul_zero poly a, mul_xor poly a⟩
    (mul_xtime poly a) b c
  exact h.symm

/-- Multiplying by a word and then by an inverse of it gives back the other factor. -/
theorem mul_cancel {poly u v : BitVec w} (h : mul poly v u = 1) (x : BitVec w) :
    mul poly v (mul poly u x) = x := by
  rw [← mul_assoc, h, one_mul]

end ConfigEnv.BinaryField
