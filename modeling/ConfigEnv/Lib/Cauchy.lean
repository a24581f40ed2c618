/-
Module: ConfigEnv.Lib.Cauchy
Layer: Lib
Purpose: Matrices with entries `(a i + b j)⁻¹`, over any field. A combination of rows that vanishes
  on a block is, up to a factor that does not vanish there, a polynomial with as many roots as the
  block has columns and a smaller degree, so it is zero. Every leading block is regular in the sense
  of `Pivot.Regular`, whichever rows and columns were picked.
Trusted boundary: none
Main exports: numerator, cauchy_regular
Open obligations: none
-/
import ConfigEnv.Lib.Pivot
import Mathlib.Algebra.Polynomial.Roots

namespace ConfigEnv.Cauchy

open Finset Polynomial

variable {F : Type*} [Field F]

/-- A combination of the rows `0, …, x` of `(a k + z)⁻¹` over the common denominator. -/
noncomputable def numerator (a l : ℕ → F) (x : ℕ) : F[X] :=
  ∑ k ∈ range (x + 1), C (l k) * ∏ i ∈ (range (x + 1)).erase k, (C (a i) + X)

/-- The numerator over the rows up to `x` has degree at most `x`. -/
theorem natDegree_numerator (a l : ℕ → F) (x : ℕ) : (numerator a l x).natDegree ≤ x := by
  unfold numerator
  apply natDegree_sum_le_of_forall_le
  intro k hk
  calc (C (l k) * ∏ i ∈ (range (x + 1)).erase k, (C (a i) + X)).natDegree
      ≤ (∏ i ∈ (range (x + 1)).erase k, (C (a i) + X)).natDegree := natDegree_C_mul_le _ _
    _ ≤ ∑ i ∈ (range (x + 1)).erase k, (C (a i) + X : F[X]).natDegree := natDegree_prod_le _ _
    _ ≤ ∑ _i ∈ (range (x + 1)).erase k, 1 := by
        refine sum_le_sum fun i _ => ?_
        rw [add_comm, natDegree_X_add_C]
    _ = x := by rw [sum_const, card_erase_of_mem hk, card_range, smul_eq_mul, mul_one]; rfl

/-- The value of the numerator at a point. -/
theorem eval_numerator (a l : ℕ → F) (x : ℕ) (z : F) :
    (numerator a l x).eval z =
      ∑ k ∈ range (x + 1), l k * ∏ i ∈ (range (x + 1)).erase k, (a i + z) := by
  simp only [numerator, eval_finsetSum, eval_mul, eval_C, eval_prod, eval_add, eval_X]

/-- Where no denominator vanishes, the numerator is the combination times all of them. -/
theorem eval_numerator_of_ne {a : ℕ → F} (l : ℕ → F) {x : ℕ} {z : F}
    (hne : ∀ k ≤ x, a k + z ≠ 0) :
    (numerator a l x).eval z =
      (∑ k ∈ range (x + 1), l k * (a k + z)⁻¹) * ∏ i ∈ range (x + 1), (a i + z) := by
  rw [eval_numerator, sum_mul]
  refine sum_congr rfl fun k hk => ?_
  rw [← mul_prod_erase _ _ hk, mul_assoc, inv_mul_cancel_left₀]
  exact hne k (Nat.le_of_lt_succ (mem_range.1 hk))

/-- At minus the last point only the last term is left. -/
theorem eval_numerator_neg (a l : ℕ → F) (x : ℕ) :
    (numerator a l x).eval (-a x) = l x * ∏ i ∈ range x, (a i - a x) := by
  rw [eval_numerator, sum_range_succ, sum_eq_zero, zero_add]
  · rw [range_add_one, erase_insert notMem_range_self]
    simp only [sub_eq_add_neg]
  · intro k hk
    have hxk : x ∈ (range (x + 1)).erase k :=
      mem_erase.2 ⟨(mem_range.1 hk).ne', self_mem_range_succ x⟩
    rw [prod_eq_zero hxk (add_neg_cancel _), mul_zero]

/-- The rows and columns of a Cauchy matrix may be picked freely, as long as they are distinct. -/
theorem cauchy_regular {W : ℕ} {a b : ℕ → F} (ha : ∀ i < W, ∀ k < W, a i = a k → i = k)
    (hb : ∀ i < W, ∀ k < W, b i = b k → i = k) (hne : ∀ i < W, ∀ j < W, a i + b j ≠ 0) :
    Pivot.Regular W fun i j => (a i + b j)⁻¹ := by
  intro x hx l hsupp hsum
  have hshort : ∀ j ≤ x, ∑ k ∈ range (x + 1), l k * (a k + b j)⁻¹ = 0 := by
    intro j hj
    rw [← hsum j hj]
    refine sum_subset (range_subset_range.2 hx) fun k _ hk => ?_
    rw [hsupp k (by simpa using hk), zero_mul]
  have hroots : ∀ j : Fin (x + 1), (numerator a l x).eval (b j) = 0 := by
    intro j
    rw [eval_numerator_of_ne l fun k hk => hne k (by omega) j (by omega),
      hshort j (Nat.le_of_lt_succ j.isLt), zero_mul]
  have hinj : Function.Injective fun j : Fin (x + 1) => b j :=
    fun i j hij => Fin.ext (hb i (by omega) j (by omega) hij)
  have hdegree : (numerator a l x).natDegree < Fintype.card (Fin (x + 1)) := by
    rw [Fintype.card_fin]
    exact Nat.lt_succ_of_le (natDegree_numerator a l x)
  have hzero := eq_zero_of_natDegree_lt_card_of_eval_eq_zero _ hinj hroots hdegree
  have hlast := eval_numerator_neg a l x
  rw [hzero, eval_zero, eq_comm, mul_eq_zero] at hlast
  refine hlast.resolve_right (prod_ne_zero_iff.2 fun i hi => ?_)
  have hix := mem_range.1 hi
  exact sub_ne_zero.2 fun heq => hix.ne (ha i (by omega) x hx heq)

end ConfigEnv.Cauchy
