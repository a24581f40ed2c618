/-
Module: ConfigEnv.Lib.Fletcher
Layer: Lib
Purpose: A checksum of two running sums: of the data, and of the first sum. The first is the sum of
  the data, the second weighs every symbol with the number of symbols from it to the end. Both are
  additive, so that an alteration of the data goes unnoticed when the sums of its differences are
  the differences of the two check symbols. From this the alterations of one or two symbols, and
  those within a burst, that go unnoticed. Over any commutative group of symbols.
Trusted boundary: none
Main exports: sums, moment, sums_eq, sums_append, diff, sums_diff, diff_append,
  sums_within_eq_zero_iff, sums_two_iff
Open obligations: none
-/
import Mathlib.Algebra.BigOperators.Group.List.Basic
import Mathlib.Algebra.Group.Prod
import Mathlib.Algebra.Module.NatInt
import Mathlib.Tactic.Abel
import Mathlib.Tactic.Common

namespace ConfigEnv.Fletcher

variable {R : Type*} [AddCommGroup R]

/-- One more symbol. -/
def step (s : R × R) (x : R) : R × R := (s.1 + x, s.2 + (s.1 + x))

/-- The two sums. -/
def sums (xs : List R) : R × R := xs.foldl step (0, 0)

/-- Every symbol as often as there are symbols from it to the end. -/
def moment : List R → R
  | [] => 0
  | x :: xs => (xs.length + 1) • x + moment xs

/-- The two sums after a list, from any start. -/
theorem foldl_step (xs : List R) (a b : R) :
    xs.foldl step (a, b) = (a + xs.sum, b + xs.length • a + moment xs) := by
  induction xs generalizing a b with
  | nil => simp [moment]
  | cons x xs ih =>
      rw [List.foldl_cons, step, ih, List.sum_cons, moment, List.length_cons]
      ext
      · exact add_assoc a x xs.sum
      · simp only [smul_add, add_smul, one_smul]
        abel

/-- The two sums are the sum and the moment of the list. -/
theorem sums_eq (xs : List R) : sums xs = (xs.sum, moment xs) := by
  rw [sums, foldl_step, zero_add, smul_zero, zero_add, zero_add]

/-- The moment of two lists end to end. -/
theorem moment_append (xs ys : List R) :
    moment (xs ++ ys) = moment xs + ys.length • xs.sum + moment ys := by
  induction xs with
  | nil => simp [moment]
  | cons x xs ih =>
      rw [List.cons_append, moment, ih, moment, List.sum_cons, List.length_append]
      simp only [smul_add, add_smul, one_smul]
      abel

/-- The sums of two lists end to end. -/
theorem sums_append (xs ys : List R) :
    sums (xs ++ ys) = sums xs + sums ys + ((0 : R), ys.length • xs.sum) := by
  rw [sums_eq, sums_eq, sums_eq, List.sum_append, moment_append]
  ext
  · exact (add_zero _).symm
  · change moment xs + ys.length • xs.sum + moment ys = moment xs + moment ys + ys.length • xs.sum
    abel

@[simp] theorem sums_replicate_zero (n : ℕ) : sums (List.replicate n (0 : R)) = 0 := by
  induction n with
  | zero => rfl
  | succ n ih =>
      rw [List.replicate_succ, sums, List.foldl_cons]
      have hstep : step ((0, 0) : R × R) 0 = (0, 0) := by
        simp [step]
      rw [hstep]
      exact ih

/-! ### Differences -/

/-- The alteration that leads from `xs` to `ys`. -/
def diff (ys xs : List R) : List R := List.zipWith (· - ·) ys xs

@[simp] theorem length_diff {ys xs : List R} (h : ys.length = xs.length) :
    (diff ys xs).length = xs.length := by
  simp [diff, h]

theorem sum_diff {ys xs : List R} (h : ys.length = xs.length) :
    (diff ys xs).sum = ys.sum - xs.sum := by
  induction ys generalizing xs with
  | nil =>
      obtain rfl : xs = [] := List.length_eq_zero_iff.1 h.symm
      simp [diff]
  | cons y ys ih =>
      cases xs with
      | nil => cases h
      | cons x xs =>
          have htail := ih (Nat.succ.inj h)
          rw [diff] at htail ⊢
          rw [List.zipWith_cons_cons, List.sum_cons, htail, List.sum_cons, List.sum_cons]
          abel

theorem moment_diff {ys xs : List R} (h : ys.length = xs.length) :
    moment (diff ys xs) = moment ys - moment xs := by
  induction ys generalizing xs with
  | nil =>
      obtain rfl : xs = [] := List.length_eq_zero_iff.1 h.symm
      simp [diff, moment]
  | cons y ys ih =>
      cases xs with
      | nil => cases h
      | cons x xs =>
          have hlen : ys.length = xs.length := Nat.succ.inj h
          have htail := ih hlen
          have hcount := length_diff hlen
          rw [diff] at htail hcount ⊢
          rw [List.zipWith_cons_cons, moment, htail, hcount, moment, moment, hlen, smul_sub]
          abel

/-- The sums of an alteration are what it changes the sums by. -/
theorem sums_diff {ys xs : List R} (h : ys.length = xs.length) :
    sums (diff ys xs) = sums ys - sums xs := by
  rw [sums_eq, sums_eq, sums_eq, sum_diff h, moment_diff h]
  rfl

/-- A list differs from itself by zeros. -/
theorem diff_self (xs : List R) : diff xs xs = List.replicate xs.length 0 := by
  induction xs with
  | nil => rfl
  | cons x xs ih =>
      rw [diff] at ih ⊢
      rw [List.zipWith_cons_cons, ih, sub_self, List.length_cons, List.replicate_succ]

/-- Differences of lists end to end are taken piece by piece. -/
theorem diff_append {ys xs ys' xs' : List R} (h : ys.length = xs.length) :
    diff (ys ++ ys') (xs ++ xs') = diff ys xs ++ diff ys' xs' := by
  rw [diff, List.zipWith_append h]
  rfl

/-! ### Alterations within a part -/

/-- An alteration within a part changes the sums as the part alone would, and the second sum also by
the first one as often as there are symbols behind. -/
theorem sums_within (pre post : List R) {ys xs : List R} (h : ys.length = xs.length) :
    sums (diff (pre ++ (ys ++ post)) (pre ++ (xs ++ post))) =
      sums (diff ys xs) + ((0 : R), post.length • (diff ys xs).sum) := by
  have hzero : (List.replicate pre.length (0 : R)).sum = 0 := by simp
  rw [diff_append rfl, diff_append h, diff_self, diff_self, sums_append, sums_append,
    sums_replicate_zero, sums_replicate_zero, hzero, smul_zero, List.length_replicate]
  simp

/-- Where it starts does not matter for whether it is noticed. -/
theorem sums_within_eq_zero_iff (pre post : List R) {ys xs : List R} (h : ys.length = xs.length) :
    sums (diff (pre ++ (ys ++ post)) (pre ++ (xs ++ post))) = 0 ↔ sums (diff ys xs) = 0 := by
  rw [sums_within pre post h, sums_eq]
  simp only [Prod.mk_add_mk, Prod.mk_eq_zero, add_zero]
  constructor
  · rintro ⟨hsum, hmoment⟩
    rw [hsum, smul_zero, add_zero] at hmoment
    exact ⟨hsum, hmoment⟩
  · rintro ⟨hsum, hmoment⟩
    rw [hsum, smul_zero, add_zero]
    exact ⟨rfl, hmoment⟩

/-- Two symbols with `mid` between them: what the first one gains the second one has to lose, and
their distance times this has to vanish. -/
theorem sums_two_iff (mid : List R) (x x' y y' : R) :
    sums (diff (x' :: (mid ++ [y'])) (x :: (mid ++ [y]))) = 0 ↔
      x' + y' = x + y ∧ (mid.length + 1) • (x' - x) = 0 := by
  have hdiff : diff (x' :: (mid ++ [y'])) (x :: (mid ++ [y])) =
      (x' - x) :: (List.replicate mid.length 0 ++ [y' - y]) := by
    have htail : diff (mid ++ [y']) (mid ++ [y]) = diff mid mid ++ diff [y'] [y] :=
      diff_append rfl
    rw [diff_self] at htail
    rw [diff] at htail ⊢
    rw [List.zipWith_cons_cons, htail]
    rfl
  have hzeros : moment (List.replicate mid.length (0 : R)) = 0 := by
    have h := sums_replicate_zero (R := R) mid.length
    rw [sums_eq] at h
    exact (Prod.mk.inj h).2
  have hsum : (diff (x' :: (mid ++ [y'])) (x :: (mid ++ [y]))).sum = x' - x + (y' - y) := by
    rw [hdiff]
    simp
  have hmoment : moment (diff (x' :: (mid ++ [y'])) (x :: (mid ++ [y]))) =
      (mid.length + 1) • (x' - x) + (x' - x + (y' - y)) := by
    rw [hdiff, moment, moment_append, hzeros]
    simp only [List.length_append, List.length_replicate, List.length_singleton,
      List.sum_replicate, smul_zero, moment, List.length_nil, add_smul, one_smul, zero_smul]
    abel
  have hzero : x' - x + (y' - y) = 0 ↔ x' + y' = x + y := by
    have hsub : x' - x + (y' - y) = x' + y' - (x + y) := by abel
    rw [hsub, sub_eq_zero]
  rw [sums_eq, Prod.mk_eq_zero, hsum, hmoment, ← hzero]
  constructor
  · rintro ⟨hs, hm⟩
    rw [hs, add_zero] at hm
    exact ⟨hs, hm⟩
  · rintro ⟨hs, hm⟩
    rw [hs, add_zero]
    exact ⟨rfl, hm⟩

end ConfigEnv.Fletcher
