/-
Module: ConfigEnv.Lib.Lanes
Layer: Lib
Purpose: Vector registers as their bytes, lowest first, with the few operations a table lookup
  needs: a shift inside 64-bit words, which moves bits across bytes, and a byte shuffle inside
  128-bit lanes. An additive map of bytes can be looked up a nibble at a time: the low nibble in one
  table of sixteen entries, the high one in another, and the results added. Rows of bytes in one
  memory are combined cell by cell, in blocks of any width.
Trusted boundary: none
Main exports: Vec, word, srli64, shuffle, broadcast, srli64_and_nibble, lookup_additive, rowMap,
  Apart, foldl_rowMap
Open obligations: none
-/
import ConfigEnv.Lib.BinaryField
import Mathlib.Tactic.Common

namespace ConfigEnv.Lanes

open BinaryField (Additive)

/-- The bytes of a register; how many of them there are is up to the operation. -/
abbrev Vec := Nat → BitVec 8

/-- The first `m` bytes as the low end of a 64-bit word. -/
def word (v : Vec) : Nat → BitVec 64
  | 0 => 0
  | m + 1 => word v m ||| (v m).setWidth 64 <<< (8 * m)

/-- The bits of a word of lanes are the bits of its bytes. -/
theorem getLsbD_word (v : Vec) {m k : Nat} (hm : m ≤ 8) (hk : k < 8 * m) :
    (word v m).getLsbD k = (v (k / 8)).getLsbD (k % 8) := by
  have hzero : ∀ m ≤ 8, ∀ k, 8 * m ≤ k → (word v m).getLsbD k = false := by
    intro m hm k hk
    induction m with
    | zero => exact BitVec.getLsbD_zero
    | succ m ih =>
        rw [word, BitVec.getLsbD_or, ih (by omega) (by omega), BitVec.getLsbD_shiftLeft,
          BitVec.getLsbD_setWidth, BitVec.getLsbD_of_ge (v m) (k - 8 * m) (by omega)]
        simp
  induction m with
  | zero => exact absurd hk (by omega)
  | succ m ih =>
      rw [word, BitVec.getLsbD_or, BitVec.getLsbD_shiftLeft, BitVec.getLsbD_setWidth]
      by_cases hlow : k < 8 * m
      · rw [ih (by omega) hlow]
        simp [hlow]
      · have hdiv : k / 8 = m := by omega
        have hmod : k % 8 = k - 8 * m := by omega
        rw [hzero m (by omega) k (by omega), hdiv, hmod]
        simp [hlow, show k < 64 by omega, show k - 8 * m < 64 by omega]

/-- Shift every 64-bit word right. -/
def srli64 (v : Vec) (s : Nat) : Vec := fun i =>
  ((word (fun j => v (8 * (i / 8) + j)) 8) >>> s).extractLsb' (8 * (i % 8)) 8

/-- Bytewise conjunction. -/
def and (v mask : Vec) : Vec := fun i => v i &&& mask i

/-- Bytewise exclusive or. -/
def xor (v w : Vec) : Vec := fun i => v i ^^^ w i

/-- A vector of one byte. -/
def set1 (b : BitVec 8) : Vec := fun _ => b

/-- Pick bytes of the same 128-bit lane; an index with its top bit set gives zero. -/
def shuffle (table index : Vec) : Vec := fun i =>
  if (index i).msb then 0 else table (16 * (i / 16) + (index i).toNat % 16)

/-- Sixteen bytes repeated in every lane. -/
def broadcast (table : Nat → BitVec 8) : Vec := fun i => table (i % 16)

/-- Behind the mask the shift by four leaves the high nibble of each byte, whatever came down from
the byte above. -/
theorem srli64_and_nibble (v : Vec) (i : Nat) :
    and (srli64 v 4) (set1 0x0f#8) i = v i >>> 4 := by
  apply BitVec.eq_of_getLsbD_eq
  intro b hb
  have hbyte : ∀ k, 8 * (i % 8) ≤ k → k < 8 * (i % 8) + 8 →
      (word (fun j => v (8 * (i / 8) + j)) 8).getLsbD k = (v i).getLsbD (k - 8 * (i % 8)) := by
    intro k hlow hhigh
    rw [getLsbD_word _ (Nat.le_refl 8) (by omega)]
    congr 1
    · congr 1
      omega
    · omega
  have hmask : ∀ b < 8, (0x0f#8).getLsbD b = decide (b < 4) := by decide
  rw [and, set1, srli64, BitVec.getLsbD_and, BitVec.getLsbD_extractLsb', BitVec.getLsbD_ushiftRight,
    BitVec.getLsbD_ushiftRight, hmask b hb, decide_eq_true hb, Bool.true_and]
  by_cases hlow : b < 4
  · rw [decide_eq_true hlow, Bool.and_true, hbyte _ (by omega) (by omega)]
    congr 1
    omega
  · -- these bits belong to the byte above
    rw [decide_eq_false hlow, Bool.and_false, BitVec.getLsbD_of_ge _ _ (by omega)]

/-- A nibble picks the same entry of the broadcast table in every lane. -/
theorem shuffle_broadcast (table : Nat → BitVec 8) (index : Vec) {i : Nat}
    (hi : (index i).toNat < 16) :
    shuffle (broadcast table) index i = table (index i).toNat := by
  have hmsb : (index i).msb = false := by
    rw [BitVec.msb_eq_false_iff_two_mul_lt]
    omega
  have hlane : (16 * (i / 16) + (index i).toNat % 16) % 16 = (index i).toNat := by omega
  rw [shuffle, hmsb, if_neg Bool.false_ne_true, broadcast, hlane]

theorem toNat_and_nibble (x : BitVec 8) : (x &&& 0x0f#8).toNat = x.toNat % 16 := by
  rw [BitVec.toNat_and]
  exact Nat.and_two_pow_sub_one_eq_mod x.toNat 4

theorem toNat_high_nibble (x : BitVec 8) : (x >>> 4).toNat = x.toNat / 16 := by
  rw [BitVec.toNat_ushiftRight, Nat.shiftRight_eq_div_pow]

/-- A byte is the exclusive or of its nibbles, each in its place. -/
theorem nibbles_xor (x : BitVec 8) :
    BitVec.ofNat 8 (x.toNat % 16) ^^^ BitVec.ofNat 8 (x.toNat / 16) <<< 4 = x := by
  revert x
  decide

/-- Two lookups and an exclusive or compute an additive map of bytes. -/
theorem lookup_additive {f : BitVec 8 → BitVec 8} (hf : Additive f) {lo hi : Nat → BitVec 8}
    (hlo : ∀ x < 16, lo x = f (BitVec.ofNat 8 x))
    (hhi : ∀ x < 16, hi x = f (BitVec.ofNat 8 x <<< 4)) (v : Vec) (i : Nat) :
    xor (shuffle (broadcast lo) (and v (set1 0x0f#8)))
      (shuffle (broadcast hi) (and (srli64 v 4) (set1 0x0f#8))) i = f (v i) := by
  have hbyte := (v i).isLt
  have hlow : (and v (set1 0x0f#8) i).toNat = (v i).toNat % 16 := toNat_and_nibble (v i)
  have hhigh : (and (srli64 v 4) (set1 0x0f#8) i).toNat = (v i).toNat / 16 := by
    rw [srli64_and_nibble, toNat_high_nibble]
  rw [xor, shuffle_broadcast _ _ (by omega), shuffle_broadcast _ _ (by omega), hlow, hhigh,
    hlo _ (by omega), hhi _ (by omega), ← hf.xor, nibbles_xor]

/-! ### Rows in one memory

A row operation reads the bytes of one row and changes those of another. Done in blocks, each block
reads what the blocks before it left. -/

section Rows

variable {α : Type}

/-- Combine the `k` cells from `b` on into the `k` cells from `a` on. -/
def rowMap (f : α → α → α) (mem : Nat → α) (a b k : Nat) : Nat → α := fun i =>
  if a ≤ i ∧ i < a + k then f (mem i) (mem (b + (i - a))) else mem i

/-- The two rows are the same or have no cell in common. -/
def Apart (a b k : Nat) : Prop := a = b ∨ a + k ≤ b ∨ b + k ≤ a

theorem Apart.mono {a b k k' : Nat} (h : Apart a b k) (hk : k' ≤ k) : Apart a b k' := by
  unfold Apart at *
  omega

theorem Apart.drop {a b m k : Nat} (h : Apart a b (m + k)) : Apart (a + m) (b + m) k := by
  unfold Apart at *
  omega

theorem rowMap_zero (f : α → α → α) (mem : Nat → α) (a b : Nat) : rowMap f mem a b 0 = mem := by
  funext i
  exact if_neg (by omega)

/-- One step of the row map changes one cell. -/
theorem rowMap_one (f : α → α → α) (mem : Nat → α) (a b : Nat) :
    rowMap f mem a b 1 = Function.update mem a (f (mem a) (mem b)) := by
  funext i
  by_cases hi : i = a
  · subst hi
    rw [rowMap, if_pos (by omega), Function.update_self, Nat.sub_self, Nat.add_zero]
  · rw [rowMap, if_neg (by omega), Function.update_of_ne hi]

/-- Two blocks one behind the other are one block. -/
theorem rowMap_append (f : α → α → α) (mem : Nat → α) {a b m k : Nat} (h : Apart a b (m + k)) :
    rowMap f (rowMap f mem a b m) (a + m) (b + m) k = rowMap f mem a b (m + k) := by
  funext i
  unfold rowMap Apart at *
  by_cases hlow : a ≤ i ∧ i < a + m
  · rw [if_neg (by omega), if_pos hlow, if_pos (by omega)]
  · by_cases hhigh : a + m ≤ i ∧ i < a + m + k
    · -- the first block has changed neither this cell nor the one it is combined with
      have hread : b + m + (i - (a + m)) = b + (i - a) := by omega
      have hkept : ¬ (a ≤ b + (i - a) ∧ b + (i - a) < a + m) := by omega
      have hboth : a ≤ i ∧ i < a + (m + k) := by omega
      rw [if_pos hhigh, if_neg hlow, hread, if_neg hkept, if_pos hboth]
    · rw [if_neg hhigh, if_neg hlow, if_neg (by omega)]

/-- A row in blocks of one width is the row as a whole. -/
theorem foldl_rowMap (f : α → α → α) (mem : Nat → α) {a b width : Nat} (n : Nat)
    (h : Apart a b (n * width)) :
    (List.range n).foldl (fun mem p => rowMap f mem (a + p * width) (b + p * width) width) mem =
      rowMap f mem a b (n * width) := by
  induction n with
  | zero => rw [Nat.zero_mul, rowMap_zero]; rfl
  | succ n ih =>
      rw [Nat.succ_mul] at h ⊢
      rw [List.range_succ, List.foldl_append, ih (h.mono (Nat.le_add_right _ _)), List.foldl_cons,
        List.foldl_nil, rowMap_append f mem h]

end Rows

end ConfigEnv.Lanes
