/-
Module: ConfigEnv.Lib.Window
Layer: Lib
Purpose: Numbered arrivals that are displaced by less than a window. Numbers that are equal modulo
  the window then never arrive out of order, so a table with one place for each remainder sees the
  arrivals of one number as one uninterrupted stretch.
Trusted boundary: none
Main exports: Displaced, Displaced.between, exists_first
Open obligations: none
-/
import Mathlib.Data.List.Basic
import Mathlib.Tactic.Common

namespace ConfigEnv.Window

variable {α : Type} {W : Nat}

/-- Nothing arrives after a number that is ahead of it by `W` or more. -/
def Displaced (W : Nat) (ns : List Nat) : Prop := ns.Pairwise fun m n => m < n + W

/-- A number that shares its remainder with a later arrival is not greater. -/
theorem le_of_mod_eq {m n : Nat} (h : m < n + W) (hmod : m % W = n % W) : m ≤ n := by
  by_contra hlt
  have hzero : (m - n) % W = 0 := Nat.sub_mod_eq_zero_of_mod_eq hmod
  have hsmall : m - n < W := by omega
  rw [Nat.mod_eq_of_lt hsmall] at hzero
  omega

/-- Between two arrivals of a number, every number with its remainder is that number. -/
theorem Displaced.between {f : α → Nat} {pre mid post : List α} {x y z : α}
    (h : Displaced W ((pre ++ x :: (mid ++ y :: post)).map f)) (hxy : f x = f y) (hz : z ∈ mid)
    (hmod : f z % W = f x % W) : f z = f x := by
  unfold Displaced at h
  rw [List.pairwise_map, List.pairwise_append, List.pairwise_cons, List.pairwise_append] at h
  obtain ⟨-, ⟨hx, -, -, hmid⟩, -⟩ := h
  have hxz : f x < f z + W := hx z (List.mem_append_left _ hz)
  have hzy : f z < f y + W := hmid z hz y List.mem_cons_self
  apply Nat.le_antisymm
  · rw [hxy]
    apply le_of_mod_eq hzy
    rw [hmod, hxy]
  · exact le_of_mod_eq hxz hmod.symm

/-- The first entry with a property, when some entry has it. -/
theorem exists_first {p : α → Prop} {l : List α} {y : α} (hy : y ∈ l) (hp : p y) :
    ∃ pre x post, l = pre ++ x :: post ∧ p x ∧ ∀ z ∈ pre, ¬ p z := by
  induction l with
  | nil => cases hy
  | cons a l ih =>
      by_cases ha : p a
      · exact ⟨[], a, l, rfl, ha, by simp⟩
      · rcases List.mem_cons.1 hy with rfl | hy
        · exact absurd hp ha
        · obtain ⟨pre, x, post, rfl, hx, hpre⟩ := ih hy
          refine ⟨a :: pre, x, post, rfl, hx, ?_⟩
          intro z hz
          rcases List.mem_cons.1 hz with rfl | hz
          · exact ha
          · exact hpre z hz

end ConfigEnv.Window
