/-
Module: ConfigEnv.Lib.Deadline
Layer: Lib
Purpose: Loops that wait for a deadline by a clock that wraps. A clock is read after every round of
  a loop, and both its reading and the deadline are kept modulo `M` and compared as they are. The
  loop keeps the deadline, whatever its rounds take up to a bound, exactly when the clock does not
  wrap between its start and the last round that there can be.
Trusted boundary: none
Main exports: Pending, Readings, EndsAt, Meets, pending_iff, Meets.of_no_wrap, meets_iff
Open obligations: none
-/
import Mathlib.Order.Nat
import Mathlib.Tactic.Common
import Mathlib.Tactic.Push

namespace ConfigEnv.Deadline

variable {M start timeout D now n : Nat} {t : Nat → Nat}

/-- The test of the loop: the deadline seems to lie ahead. -/
def Pending (M start timeout now : Nat) : Prop := now % M < (start + timeout) % M

/-- Readings of a clock that goes on, at most `D` apart. -/
structure Readings (start D : Nat) (t : Nat → Nat) : Prop where
  zero : t 0 = start
  le_succ : ∀ k, t k ≤ t (k + 1)
  succ_le : ∀ k, t (k + 1) ≤ t k + D
  unbounded : ∀ m, ∃ k, m ≤ t k

/-- The loop ends after `n` rounds; it makes one round at least. -/
structure EndsAt (M start timeout : Nat) (t : Nat → Nat) (n : Nat) : Prop where
  pos : 0 < n
  ended : ¬ Pending M start timeout (t n)
  before : ∀ k, 0 < k → k < n → Pending M start timeout (t k)

/-- The loop ends when the time is over, and not a whole round later. -/
def Meets (M start timeout D : Nat) (t : Nat → Nat) : Prop :=
  ∃ n, EndsAt M start timeout t n ∧ start + timeout ≤ t n ∧ t n < start + timeout + D

/-- A wait ends at one reading. -/
theorem EndsAt.unique {m : Nat} (h : EndsAt M start timeout t n) (h' : EndsAt M start timeout t m) :
    n = m := by
  rcases Nat.lt_trichotomy n m with hlt | heq | hgt
  · exact absurd (h'.before n h.pos hlt) h.ended
  · exact heq
  · exact absurd (h.before m h'.pos hgt) h'.ended

/-- A time `d` after the start, as long as the clock does not wrap. -/
theorem add_mod_of_no_wrap {d : Nat} (h : start % M + d < M) :
    (start + d) % M = start % M + d := by
  rw [Nat.add_mod, Nat.mod_eq_of_lt (Nat.lt_of_le_of_lt (Nat.le_add_left d (start % M)) h),
    Nat.mod_eq_of_lt h]

/-- And behind the wrap. -/
theorem add_mod_of_wrap {d : Nat} (hM : 0 < M) (hd : d ≤ M) (h : M ≤ start % M + d) :
    (start + d) % M + M = start % M + d := by
  have hstart : start % M < M := Nat.mod_lt start hM
  rw [← Nat.mod_add_mod, Nat.mod_eq_sub_mod h, Nat.mod_eq_of_lt (by omega)]
  omega

/-- Where the clock does not wrap the test is right. -/
theorem pending_iff (hwrap : start % M + timeout + D ≤ M) (hD : 0 < D) (hle : start ≤ now)
    (hlt : now < start + timeout + D) :
    Pending M start timeout now ↔ now < start + timeout := by
  obtain ⟨d, rfl⟩ := Nat.exists_eq_add_of_le hle
  rw [Pending, add_mod_of_no_wrap (by omega), add_mod_of_no_wrap (by omega)]
  omega

namespace Readings

/-- The clock never reads before the start. -/
theorem start_le (h : Readings start D t) (k : Nat) : start ≤ t k := by
  induction k with
  | zero => exact h.zero.ge
  | succ k ih => exact Nat.le_trans ih (h.le_succ k)

/-- The first reading that is not before `m`. -/
theorem exists_first (h : Readings start D t) (m : Nat) : ∃ n, m ≤ t n ∧ ∀ k < n, t k < m := by
  obtain ⟨hn, hbefore⟩ : m ≤ t (Nat.find (h.unbounded m)) ∧
      ∀ k < Nat.find (h.unbounded m), ¬ m ≤ t k :=
    ⟨Nat.find_spec (h.unbounded m), fun _ => Nat.find_min (h.unbounded m)⟩
  exact ⟨_, hn, fun k hk => Nat.not_le.1 (hbefore k hk)⟩

end Readings

/-- Without a wrap the loop keeps the deadline. -/
theorem Meets.of_no_wrap (ht : Readings start D t) (htimeout : 0 < timeout) (hD : 0 < D)
    (hwrap : start % M + timeout + D ≤ M) : Meets M start timeout D t := by
  obtain ⟨n, hn, hbefore⟩ := ht.exists_first (start + timeout)
  have hpos : 0 < n := by
    rw [Nat.pos_iff_ne_zero]
    rintro rfl
    rw [ht.zero] at hn
    omega
  have hlast : t n < start + timeout + D := by
    have hprev := hbefore (n - 1) (by omega)
    have hstep := ht.succ_le (n - 1)
    rw [Nat.sub_add_cancel hpos] at hstep
    omega
  refine ⟨n, ⟨hpos, ?_, fun k _ hk => ?_⟩, hn, hlast⟩
  · rw [pending_iff hwrap hD (ht.start_le n) hlast]
    omega
  · have hk := hbefore k hk
    exact (pending_iff hwrap hD (ht.start_le k) (by omega)).2 hk

/-- Readings one apart, but for the one after `n` rounds, which is `D` after the one before. -/
def jumpAt (start n D : Nat) : Nat → Nat := fun k =>
  if k < n then start + k else start + (k - 1) + D

/-- A clock that jumps once is a sequence of readings. -/
theorem readings_jumpAt (hn : 0 < n) (hD : 0 < D) : Readings start D (jumpAt start n D) where
  zero := by rw [jumpAt, if_pos hn, Nat.add_zero]
  le_succ k := by
    rw [jumpAt, jumpAt]
    split <;> split <;> omega
  succ_le k := by
    rw [jumpAt, jumpAt]
    split <;> split <;> omega
  unbounded m := ⟨m + n, by rw [jumpAt, if_neg (by omega)]; omega⟩

/-- Readings one apart behind a first round that takes no time. -/
theorem readings_pred (hD : 0 < D) : Readings start D fun k => start + (k - 1) where
  zero := rfl
  le_succ k := by omega
  succ_le k := by omega
  unbounded m := ⟨m + 1, by omega⟩

/-- When the clock wraps before the deadline the loop can end at once. -/
theorem not_meets_of_wrap_before (htimeout : 0 < timeout) (hlt : timeout < M)
    (hwrap : M ≤ start % M + timeout) :
    ¬ Meets M start timeout D fun k => start + (k - 1) := by
  have hend := add_mod_of_wrap (by omega) hlt.le hwrap
  have hone : EndsAt M start timeout (fun k => start + (k - 1)) 1 := by
    refine ⟨Nat.one_pos, ?_, fun k hk hlt => by omega⟩
    change ¬ start % M < (start + timeout) % M
    omega
  rintro ⟨n, hn, hge, -⟩
  rw [hn.unique hone] at hge
  change start + timeout ≤ start at hge
  omega

/-- When it wraps in the last round there can be, that round can go unnoticed. -/
theorem not_meets_of_wrap_after (htimeout : 0 < timeout) (hle : timeout + D ≤ M)
    (hbefore : start % M + timeout < M) (hwrap : M < start % M + timeout + D) :
    ¬ Meets M start timeout D (jumpAt start timeout D) := by
  rintro ⟨n, hn, hge, hlt⟩
  have hlate : jumpAt start timeout D timeout = start + (timeout - 1 + D) := by
    rw [jumpAt, if_neg (Nat.lt_irrefl timeout)]
    omega
  have heq : n = timeout := by
    rw [jumpAt] at hge hlt
    split_ifs at hge hlt <;> omega
  subst heq
  apply hn.ended
  rw [Pending, hlate, add_mod_of_no_wrap hbefore]
  have hend : (start + (n - 1 + D)) % M + M = start % M + (n - 1 + D) :=
    add_mod_of_wrap (by omega) (by omega) (by omega)
  omega

/-- The loop keeps the deadline, whatever its rounds take up to `D`, exactly when the clock does not
wrap up to the end of the last round that there can be. -/
theorem meets_iff (htimeout : 0 < timeout) (hD : 0 < D) (hle : timeout + D ≤ M) :
    (∀ t, Readings start D t → Meets M start timeout D t) ↔ start % M + timeout + D ≤ M := by
  constructor
  · intro h
    by_contra hwrap
    rw [Nat.not_le] at hwrap
    by_cases hbefore : start % M + timeout < M
    · exact not_meets_of_wrap_after htimeout hle hbefore hwrap
        (h _ (readings_jumpAt htimeout hD))
    · exact not_meets_of_wrap_before htimeout (by omega) (Nat.not_lt.1 hbefore)
        (h _ (readings_pred hD))
  · intro hwrap t ht
    exact .of_no_wrap ht htimeout hD hwrap

end ConfigEnv.Deadline
