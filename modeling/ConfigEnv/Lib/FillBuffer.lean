/-
Module: ConfigEnv.Lib.FillBuffer
Layer: Lib
Purpose: A buffer that is filled from its front and emptied at once. It has `N` cells, and a length
  below which they have been filled since it was emptied last; the cells above hold whatever was
  there before. A push past the end is a fault, and so is a load from a cell that has not been
  filled. `Holds` says which list the filled part is; each access has one rule for it.
Trusted boundary: none
Main exports: FillBuffer, Fault, FillBuffer.push, FillBuffer.load, FillBuffer.loads,
  FillBuffer.clear, FillBuffer.filled, FillBuffer.Holds, Holds.push, Holds.load, Holds.loads,
  Holds.filled_eq
Open obligations: none
-/
import Mathlib.Data.List.GetD
import Mathlib.Data.List.OfFn
import Mathlib.Logic.Function.Basic

namespace ConfigEnv

/-- The cells of a buffer, and how many of them have been filled since it was emptied. -/
structure FillBuffer (N : Nat) (β : Type) where
  cells : Fin N → β
  len : Nat

namespace FillBuffer

variable {N : Nat} {β : Type}

/-- An access at an index where there is no cell, or none that has been filled. -/
inductive Fault where
  | store (index : Nat)
  | load (index : Nat)
deriving DecidableEq, Repr

/-- One more cell, if there is room. -/
def push (m : FillBuffer N β) (b : β) : Except Fault (FillBuffer N β) :=
  if h : m.len < N then
    .ok { cells := Function.update m.cells ⟨m.len, h⟩ b, len := m.len + 1 }
  else .error (.store m.len)

/-- A cell that has been written. -/
def load (m : FillBuffer N β) (i : Nat) : Except Fault β :=
  if h : i < N ∧ i < m.len then .ok (m.cells ⟨i, h.1⟩) else .error (.load i)

/-- `n` cells from `i` on, one after another. -/
def loads (m : FillBuffer N β) (i : Nat) : Nat → Except Fault (List β)
  | 0 => .ok []
  | n + 1 => do
      let b ← m.load i
      let bs ← m.loads (i + 1) n
      .ok (b :: bs)

/-- The buffer is empty again; the cells stay as they are. -/
def clear (m : FillBuffer N β) : FillBuffer N β := { m with len := 0 }

/-- The part that has been filled. -/
def filled (m : FillBuffer N β) : List β := (List.ofFn m.cells).take m.len

/-- The filled part is the list `l`. -/
structure Holds (m : FillBuffer N β) (l : List β) : Prop where
  len_eq : m.len = l.length
  le : l.length ≤ N
  cell : ∀ (i : Nat) (h : i < N), i < l.length → l[i]? = some (m.cells ⟨i, h⟩)

namespace Holds

variable {m : FillBuffer N β} {l : List β}

/-- The buffer is empty again; the cells stay as they are. -/
theorem clear (m : FillBuffer N β) : m.clear.Holds [] :=
  ⟨rfl, Nat.zero_le N, fun _ _ h => absurd h (Nat.not_lt_zero _)⟩

/-- One more cell, if there is room. -/
theorem push (h : m.Holds l) (hroom : l.length < N) (b : β) :
    ∃ m', m.push b = .ok m' ∧ m'.Holds (l ++ [b]) := by
  have hlen : m.len < N := h.len_eq ▸ hroom
  refine ⟨_, dif_pos hlen, ?_, ?_, fun i hi hlt => ?_⟩
  · simp [h.len_eq]
  · rw [List.length_append, List.length_singleton]
    exact hroom
  · rw [List.length_append, List.length_singleton] at hlt
    dsimp only
    by_cases hlast : i = l.length
    · subst hlast
      have hcell : (⟨l.length, hi⟩ : Fin N) = ⟨m.len, hlen⟩ := Fin.ext h.len_eq.symm
      rw [hcell, Function.update_self, List.getElem?_concat_length]
    · have hold : i < l.length := by omega
      have hother : (⟨i, hi⟩ : Fin N) ≠ ⟨m.len, hlen⟩ := fun heq =>
        hlast ((Fin.mk.inj heq).trans h.len_eq)
      rw [Function.update_of_ne hother, List.getElem?_append_left hold]
      exact h.cell i hi hold

/-- A cell that has been written. -/
theorem load (h : m.Holds l) {i : Nat} (hi : i < l.length) (z : β) :
    m.load i = .ok (l.getD i z) := by
  have hN : i < N := Nat.lt_of_lt_of_le hi h.le
  rw [FillBuffer.load, dif_pos ⟨hN, h.len_eq ▸ hi⟩, List.getD_eq_getElem?_getD, h.cell i hN hi]
  rfl

/-- Loading a range of a filled buffer gives that range of its contents. -/
theorem loads (h : m.Holds l) {i n : Nat} (hn : i + n ≤ l.length) :
    m.loads i n = .ok ((l.drop i).take n) := by
  induction n generalizing i with
  | zero => rfl
  | succ n ih =>
      have hi : i < l.length := by omega
      rw [FillBuffer.loads, h.load hi l[i], ih (by omega), List.drop_eq_getElem_cons hi,
        List.take_succ_cons, List.getD_eq_getElem _ _ hi]
      rfl

theorem filled_eq (h : m.Holds l) : m.filled = l := by
  apply List.ext_getElem?
  intro i
  rw [filled, List.getElem?_take, h.len_eq]
  split
  · next hi =>
      have hN : i < N := Nat.lt_of_lt_of_le hi h.le
      rw [h.cell i hN hi, List.getElem?_ofFn, dif_pos hN]
  · next hi => rw [List.getElem?_eq_none (Nat.le_of_not_lt hi)]

end Holds

end FillBuffer

end ConfigEnv
