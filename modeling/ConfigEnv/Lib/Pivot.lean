/-
Module: ConfigEnv.Lib.Pivot
Layer: Lib
Purpose: Gaussian elimination that never exchanges rows, over any field. A sweep goes down the
  diagonal, scales each pivot row to a unit pivot and clears the column below it; a second sweep
  goes up and clears the right-hand sides. The steps are relations on the first `W` rows and
  columns, so that a program may do what it likes with the rest of its memory. The invariant of the
  way down says that the unknowns still solve the system and that every row is a combination of the
  original rows up to its own, in which its own row occurs. A matrix whose leading blocks have no
  left kernel therefore never meets a zero pivot.
Trusted boundary: none
Main exports: System, Step, BackStep, Regular, Inv, Inv.init, Inv.pivot_ne_zero, Inv.step, Pending,
  Inv.pending, Pending.step, Pending.done
Open obligations: none
-/
import Mathlib.Algebra.BigOperators.Ring.Finset
import Mathlib.Algebra.Field.Basic
import Mathlib.Tactic.Ring

namespace ConfigEnv.Pivot

open Finset

variable {F ι : Type*} [Field F]

/-- Coefficient rows, with a row of right-hand sides for each. -/
structure System (F ι : Type*) where
  coef : ℕ → ℕ → F
  rhs : ℕ → ι → F

/-- One entry of row `i` after step `x`: `top` is the entry of row `x` in the same column. -/
def entry (x i : ℕ) (pivot lead top own : F) : F :=
  if i < x then own
  else if i = x then pivot⁻¹ * top
  else own - lead * (pivot⁻¹ * top)

/-- Step `x` of the way down. -/
structure Step (W x : ℕ) (s s' : System F ι) : Prop where
  coef : ∀ i < W, ∀ j < W,
    s'.coef i j = entry x i (s.coef x x) (s.coef i x) (s.coef x j) (s.coef i j)
  rhs : ∀ i < W, ∀ t,
    s'.rhs i t = entry x i (s.coef x x) (s.coef i x) (s.rhs x t) (s.rhs i t)

/-- Step `x` of the way up: only the right-hand sides above row `x` change. -/
structure BackStep (W x : ℕ) (s s' : System F ι) : Prop where
  coef : ∀ i < W, ∀ j < W, s'.coef i j = s.coef i j
  rhs : ∀ i < W, ∀ t,
    s'.rhs i t = if i < x then s.rhs i t - s.coef i x * s.rhs x t else s.rhs i t

/-- No leading block of the first `W` rows has a left kernel that involves its last row. -/
def Regular (W : ℕ) (m : ℕ → ℕ → F) : Prop :=
  ∀ x < W, ∀ l : ℕ → F, (∀ k, x < k → l k = 0) →
    (∀ j ≤ x, ∑ k ∈ range W, l k * m k j = 0) → l x = 0

/-- A row is a combination of the rows of `m` up to `i`, and row `i` takes part in it. -/
def Leads (W : ℕ) (m : ℕ → ℕ → F) (i : ℕ) (r : ℕ → F) : Prop :=
  ∃ l : ℕ → F, l i ≠ 0 ∧ (∀ k, i < k → l k = 0) ∧ ∀ j < W, r j = ∑ k ∈ range W, l k * m k j

/-- The way down with the columns before `x` done: `m` is the matrix it began with and `d` the
unknowns. -/
structure Inv (W : ℕ) (m : ℕ → ℕ → F) (d : ℕ → ι → F) (x : ℕ) (s : System F ι) : Prop where
  holds : ∀ i < W, ∀ t, s.rhs i t = ∑ j ∈ range W, s.coef i j * d j t
  leads : ∀ i < W, Leads W m i (s.coef i)
  diag : ∀ j < x, s.coef j j = 1
  below : ∀ j < x, ∀ i < W, j < i → s.coef i j = 0

/-- The way up with the columns from `x` on done: row `i` still owes the unknowns between `i` and
`x`. -/
structure Pending (W : ℕ) (d : ℕ → ι → F) (x : ℕ) (s : System F ι) : Prop where
  owed : ∀ i < W, ∀ t,
    s.rhs i t = d i t + ∑ j ∈ range x, if i < j then s.coef i j * d j t else 0

/-- Only the first `W` rows and columns matter. -/
theorem Regular.congr {W : ℕ} {m m' : ℕ → ℕ → F} (h : Regular W m)
    (heq : ∀ i < W, ∀ j < W, m' i j = m i j) : Regular W m' := by
  intro x hx l hsupp hsum
  refine h x hx l hsupp fun j hj => ?_
  rw [← hsum j hj]
  refine sum_congr rfl fun k hk => ?_
  rw [heq k (mem_range.1 hk) j (by omega)]

/-! ### The way down -/

/-- An entry of a step is linear in the two rows it comes from. -/
theorem entry_sum (x i : ℕ) (pivot lead : F) (W : ℕ) (top own v : ℕ → F) :
    entry x i pivot lead (∑ j ∈ range W, top j * v j) (∑ j ∈ range W, own j * v j) =
      ∑ j ∈ range W, entry x i pivot lead (top j) (own j) * v j := by
  unfold entry
  split_ifs
  · rfl
  · rw [mul_sum]
    exact sum_congr rfl fun j _ => by ring
  · rw [mul_sum, mul_sum, ← sum_sub_distrib]
    exact sum_congr rfl fun j _ => by ring

/-- The untouched rows lead themselves. -/
theorem Leads.self {W : ℕ} (m : ℕ → ℕ → F) {i : ℕ} (hi : i < W) : Leads W m i (m i) := by
  refine ⟨Pi.single i 1, ?_, ?_, ?_⟩
  · simp
  · intro k hk
    exact Pi.single_eq_of_ne (by omega) 1
  · intro j _
    rw [sum_eq_single i]
    · simp
    · intro k _ hk
      rw [Pi.single_eq_of_ne hk, zero_mul]
    · intro hmem
      exact absurd (mem_range.2 hi) hmem

/-- A system that is built from the unknowns starts in the invariant. -/
theorem Inv.init {W : ℕ} {m : ℕ → ℕ → F} {d : ℕ → ι → F} {s : System F ι}
    (hcoef : ∀ i < W, ∀ j < W, s.coef i j = m i j)
    (hrhs : ∀ i < W, ∀ t, s.rhs i t = ∑ j ∈ range W, m i j * d j t) : Inv W m d 0 s where
  holds i hi t := by
    rw [hrhs i hi t]
    refine sum_congr rfl fun j hj => ?_
    rw [hcoef i hi j (mem_range.1 hj)]
  leads i hi := by
    obtain ⟨l, hne, hzero, hsum⟩ := Leads.self m hi
    exact ⟨l, hne, hzero, fun j hj => (hcoef i hi j hj).trans (hsum j hj)⟩
  diag j hj := absurd hj (Nat.not_lt_zero j)
  below j hj := absurd hj (Nat.not_lt_zero j)

/-- A regular matrix never meets a zero pivot. -/
theorem Inv.pivot_ne_zero {W : ℕ} {m : ℕ → ℕ → F} {d : ℕ → ι → F} {x : ℕ} {s : System F ι}
    (hreg : Regular W m) (hx : x < W) (h : Inv W m d x s) : s.coef x x ≠ 0 := by
  intro hzero
  obtain ⟨l, hne, hsupp, hsum⟩ := h.leads x hx
  apply hne
  apply hreg x hx l hsupp
  intro j hj
  rw [← hsum j (by omega)]
  -- left of the pivot the row is cleared already
  rcases Nat.lt_or_eq_of_le hj with hlt | rfl
  · exact h.below j hlt x hx hlt
  · exact hzero

/-- A step keeps every row led by its own. -/
theorem Leads.step {W : ℕ} {m : ℕ → ℕ → F} {x i : ℕ} {s s' : System F ι} (hstep : Step W x s s')
    (hpivot : s.coef x x ≠ 0) (hi : i < W) (hrow : Leads W m i (s.coef i))
    (htop : x ≤ i → Leads W m x (s.coef x)) : Leads W m i (s'.coef i) := by
  by_cases hix : i < x
  · obtain ⟨l, hne, hzero, hsum⟩ := hrow
    refine ⟨l, hne, hzero, fun j hj => ?_⟩
    rw [hstep.coef i hi j hj, entry, if_pos hix, hsum j hj]
  · obtain ⟨l, hne, hzero, hsum⟩ := hrow
    obtain ⟨p, hpne, hpzero, hpsum⟩ := htop (by omega)
    refine ⟨fun k => entry x i (s.coef x x) (s.coef i x) (p k) (l k), ?_, ?_, ?_⟩
    · rcases Nat.lt_or_eq_of_le (Nat.le_of_not_lt hix) with hlt | rfl
      · -- the pivot row does not reach this one
        simpa only [entry, if_neg hix, if_neg hlt.ne', hpzero i hlt, mul_zero, sub_zero] using hne
      · simpa only [entry, if_neg hix, if_true] using mul_ne_zero (inv_ne_zero hpivot) hpne
    · intro k hk
      simp only [entry, hzero k hk, hpzero k (by omega), mul_zero, sub_zero, ite_self]
    · intro j hj
      rw [hstep.coef i hi j hj, hsum j hj, hpsum j hj, entry_sum]

/-- One pivot keeps the invariant, since the matrix is regular. -/
theorem Inv.step {W : ℕ} {m : ℕ → ℕ → F} {d : ℕ → ι → F} {x : ℕ} {s s' : System F ι}
    (hreg : Regular W m) (hx : x < W) (h : Inv W m d x s) (hstep : Step W x s s') :
    Inv W m d (x + 1) s' := by
  have hpivot := h.pivot_ne_zero hreg hx
  refine ⟨fun i hi t => ?_, fun i hi => ?_, fun j hj => ?_, fun j hj i hi hji => ?_⟩
  · rw [hstep.rhs i hi t, h.holds i hi t, h.holds x hx t, entry_sum]
    refine sum_congr rfl fun j hj => ?_
    rw [hstep.coef i hi j (mem_range.1 hj)]
  · exact (h.leads i hi).step hstep hpivot hi fun _ => h.leads x hx
  · rw [hstep.coef j (by omega) j (by omega)]
    rcases Nat.lt_or_eq_of_le (Nat.le_of_lt_succ hj) with hlt | rfl
    · rw [entry, if_pos hlt]
      exact h.diag j hlt
    · rw [entry, if_neg (Nat.lt_irrefl j), if_pos rfl]
      exact inv_mul_cancel₀ hpivot
  · rw [hstep.coef i hi j (by omega)]
    rcases Nat.lt_or_eq_of_le (Nat.le_of_lt_succ hj) with hlt | rfl
    · -- an earlier column is zero in both rows
      have hown : s.coef i j = 0 := h.below j hlt i hi hji
      have htop : s.coef x j = 0 := h.below j hlt x hx hlt
      unfold entry
      split_ifs <;> simp [hown, htop]
    · rw [entry, if_neg (by omega), if_neg (by omega), inv_mul_cancel₀ hpivot, mul_one, sub_self]

/-! ### The way up -/

/-- With every column cleared, what a row owes lies to the right of its pivot. -/
theorem Inv.pending {W : ℕ} {m : ℕ → ℕ → F} {d : ℕ → ι → F} {s : System F ι}
    (h : Inv W m d W s) : Pending W d W s where
  owed i hi t := by
    have hone : ∑ j ∈ range W, (if j = i then d j t else 0) = d i t := by
      rw [sum_ite_eq' (range W) i fun j => d j t, if_pos (mem_range.2 hi)]
    rw [h.holds i hi t, ← hone, ← sum_add_distrib]
    refine sum_congr rfl fun j hj => ?_
    rcases Nat.lt_trichotomy i j with hlt | rfl | hgt
    · rw [if_neg (by omega), if_pos hlt, zero_add]
    · rw [if_pos rfl, if_neg (Nat.lt_irrefl i), h.diag i hi, one_mul, add_zero]
    · rw [if_neg (by omega), if_neg (by omega), h.below j (mem_range.1 hj) i hi hgt, zero_mul,
        add_zero]

/-- One step of the back substitution settles one more unknown. -/
theorem Pending.step {W : ℕ} {d : ℕ → ι → F} {x : ℕ} {s s' : System F ι} (hx : x < W)
    (h : Pending W d (x + 1) s) (hstep : BackStep W x s s') : Pending W d x s' where
  owed i hi t := by
    -- row `x` itself owes nothing any more
    have hx_owes : s.rhs x t = d x t := by
      rw [h.owed x hx t, sum_eq_zero, add_zero]
      intro j hj
      exact if_neg (by have := mem_range.1 hj; omega)
    have hcoef : ∀ j ∈ range x, (if i < j then s'.coef i j * d j t else 0) =
        if i < j then s.coef i j * d j t else 0 := by
      intro j hj
      rw [hstep.coef i hi j (by have := mem_range.1 hj; omega)]
    rw [hstep.rhs i hi t, h.owed i hi t, sum_range_succ, hx_owes, sum_congr rfl hcoef]
    by_cases hix : i < x
    · rw [if_pos hix, if_pos hix]
      ring
    · rw [if_neg hix, if_neg hix, add_zero]

/-- Once no column is left the right-hand sides are the unknowns. -/
theorem Pending.done {W : ℕ} {d : ℕ → ι → F} {s : System F ι} (h : Pending W d 0 s) :
    ∀ i < W, ∀ t, s.rhs i t = d i t := by
  intro i hi t
  rw [h.owed i hi t, sum_range_zero, add_zero]

end ConfigEnv.Pivot
