/-
Module: ConfigEnv.Lib.Memory
Layer: Lib
Purpose: How far into a memory a function looks. A memory is a list that is read with a default past
  its end; two memories agree below `n` when they read the same at every place below it, and a
  function reads below `n` when it cannot tell such memories apart. The rules follow the ways in
  which readers are put together: a single place, several readers side by side, a family of readers.
  Agreement follows a cut, a common beginning and a step into the memory.
Trusted boundary: none
Main exports: Agree, Agree.append, Agree.take, ReadsBelow, ReadsBelow.getD, ReadsBelow.map,
  ReadsBelow.map₂, ReadsBelow.pi, ReadsBelow.mono
Open obligations: none
-/
import Mathlib.Data.List.GetD
import Mathlib.Tactic.Common

namespace ConfigEnv.Memory

variable {β γ δ ε : Type} {z : β} {n k : Nat} {m m' : List β}

/-- The memories read the same below `n`. -/
def Agree (z : β) (n : Nat) (m m' : List β) : Prop := ∀ k < n, m.getD k z = m'.getD k z

namespace Agree

theorem mono (h : Agree z n m m') (hk : k ≤ n) : Agree z k m m' :=
  fun i hi => h i (Nat.lt_of_lt_of_le hi hk)

/-- Memories with a common beginning agree there. -/
theorem append (z : β) (d rest rest' : List β) : Agree z d.length (d ++ rest) (d ++ rest') := by
  intro i hi
  rw [List.getD_append _ _ _ _ hi, List.getD_append _ _ _ _ hi]

theorem append_nil (z : β) (d rest : List β) : Agree z d.length (d ++ rest) d := by
  have h := append z d rest []
  rwa [List.append_nil] at h

theorem trans {m'' : List β} (h : Agree z n m m') (h' : Agree z n m' m'') : Agree z n m m'' :=
  fun i hi => (h i hi).trans (h' i hi)

/-- A memory cut off agrees with the whole one before the cut. -/
theorem take (z : β) (n : Nat) (m : List β) : Agree z n (m.take n) m := by
  intro i hi
  rw [List.getD_eq_getElem?_getD, List.getElem?_take_of_lt hi, ← List.getD_eq_getElem?_getD]

/-- Agreement is kept when both drop their first cells. -/
theorem drop (h : Agree z (k + n) m m') : Agree z n (m.drop k) (m'.drop k) := by
  intro i hi
  have hki := h (k + i) (Nat.add_lt_add_left hi k)
  simpa only [List.getD_eq_getElem?_getD, List.getElem?_drop] using hki

end Agree

/-- The function looks at the places below `n` only. -/
def ReadsBelow (z : β) (n : Nat) (f : List β → γ) : Prop := ∀ m m', Agree z n m m' → f m = f m'

namespace ReadsBelow

variable {f : List β → γ} {g : List β → δ}

theorem mono (h : ReadsBelow z k f) (hk : k ≤ n) : ReadsBelow z n f :=
  fun m m' hagree => h m m' (hagree.mono hk)

/-- A single place. -/
theorem getD (hk : k < n) : ReadsBelow z n fun m => m.getD k z := fun _ _ h => h k hk

theorem map (h : ReadsBelow z n f) (F : γ → ε) : ReadsBelow z n fun m => F (f m) := by
  intro m m' hagree
  change F (f m) = F (f m')
  rw [h m m' hagree]

/-- A result computed from two readers reads no further than both of them. -/
theorem map₂ (hf : ReadsBelow z n f) (hg : ReadsBelow z n g) (F : γ → δ → ε) :
    ReadsBelow z n fun m => F (f m) (g m) := by
  intro m m' hagree
  change F (f m) (g m) = F (f m') (g m')
  rw [hf m m' hagree, hg m m' hagree]

/-- A family of readers. -/
theorem pi {ι : Type} {f : List β → ι → γ} (h : ∀ i, ReadsBelow z n fun m => f m i) :
    ReadsBelow z n f := by
  intro m m' hagree
  funext i
  exact h i m m' hagree

end ReadsBelow

end ConfigEnv.Memory
