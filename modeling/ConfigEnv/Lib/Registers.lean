/-
Module: ConfigEnv.Lib.Registers
Layer: Lib
Purpose: A bank of byte registers with reads and writes of several registers in a row, and numbers
  that are laid out in bytes: 16 bits with the high byte first, 32 bits with the low byte first. A
  write changes what it covers and nothing else.
Trusted boundary: none
Main exports: Bank, bulkRead, bulkWrite, bulkWrite_same, bulkWrite_frame, be16, be16Bytes,
  be16_be16Bytes, bulkWrite_be16, be16_bulkWrite, toInt_ofInt_iff, toInt_be16_iff, word32Bytes,
  word32At, word32At_flatMap
Open obligations: none
-/
import Mathlib.Data.Int.Notation
import Mathlib.Tactic.Common

namespace ConfigEnv.Registers

/-- The registers of a device. -/
abbrev Bank (β : Type) := ℕ → β

/-! ### Reads and writes -/

section Bank

variable {β : Type} {m : Bank β} {r a : ℕ} {vals : List β}

/-- The registers from `r` on, `n` of them. -/
def bulkRead (m : Bank β) (r n : ℕ) : List β := (List.range n).map fun i => m (r + i)

/-- The registers from `r` on take these values. -/
def bulkWrite (m : Bank β) (r : ℕ) (vals : List β) : Bank β :=
  fun a => if r ≤ a then vals[a - r]?.getD (m a) else m a

/-- A bulk write stores its values one after another. -/
theorem bulkWrite_same (m : Bank β) (r : ℕ) (vals : List β) {i : ℕ} (h : i < vals.length) :
    bulkWrite m r vals (r + i) = vals[i] := by
  rw [bulkWrite, if_pos (Nat.le_add_right r i), Nat.add_sub_cancel_left,
    List.getElem?_eq_getElem h, Option.getD_some]

/-- A bulk write changes no register outside its range. -/
theorem bulkWrite_frame (h : a < r ∨ r + vals.length ≤ a) : bulkWrite m r vals a = m a := by
  rw [bulkWrite]
  split
  · next hle =>
      rw [List.getElem?_eq_none (by omega), Option.getD_none]
  · rfl

end Bank

/-! ### 16 bits, the high byte first -/

/-- Two bytes, the high one first. -/
def be16 (hi lo : BitVec 8) : BitVec 16 := hi ++ lo

/-- The bytes of a number, the high one first. -/
def be16Bytes (v : BitVec 16) : List (BitVec 8) := [v.extractLsb' 8 8, v.extractLsb' 0 8]

theorem be16_be16Bytes (v : BitVec 16) :
    be16 (v.extractLsb' 8 8) (v.extractLsb' 0 8) = v :=
  BitVec.extractLsb'_append_extractLsb'

theorem bulkWrite_be16_high (m : Bank (BitVec 8)) (r : ℕ) (v : BitVec 16) :
    bulkWrite m r (be16Bytes v) r = v.extractLsb' 8 8 :=
  bulkWrite_same m r (be16Bytes v) (by decide : 0 < 2)

theorem bulkWrite_be16_low (m : Bank (BitVec 8)) (r : ℕ) (v : BitVec 16) :
    bulkWrite m r (be16Bytes v) (r + 1) = v.extractLsb' 0 8 :=
  bulkWrite_same m r (be16Bytes v) (by decide : 1 < 2)

/-- What every register holds after 16 bits are written. -/
theorem bulkWrite_be16 (m : Bank (BitVec 8)) (r a : ℕ) (v : BitVec 16) :
    bulkWrite m r (be16Bytes v) a = if a = r then v.extractLsb' 8 8
      else if a = r + 1 then v.extractLsb' 0 8 else m a := by
  by_cases ha : a = r
  · rw [if_pos ha, ha, bulkWrite_be16_high]
  · by_cases hnext : a = r + 1
    · rw [if_neg ha, if_pos hnext, hnext, bulkWrite_be16_low]
    · rw [if_neg ha, if_neg hnext]
      have houtside : a < r ∨ r + (be16Bytes v).length ≤ a := by
        change a < r ∨ r + 2 ≤ a
        omega
      exact bulkWrite_frame houtside

/-- A word that is written big-endian reads back from its two registers. -/
theorem be16_bulkWrite (m : Bank (BitVec 8)) (r : ℕ) (v : BitVec 16) :
    be16 (bulkWrite m r (be16Bytes v) r) (bulkWrite m r (be16Bytes v) (r + 1)) = v := by
  rw [bulkWrite_be16_high, bulkWrite_be16_low, be16_be16Bytes]

/-- The numbers that 16 bits hold. -/
theorem toInt_ofInt_iff (v : ℤ) :
    (BitVec.ofInt 16 v).toInt = v ↔ -32768 ≤ v ∧ v ≤ 32767 := by
  rw [BitVec.toInt_ofInt, Int.bmod_def]
  split <;> omega

/-- Read without its sign a number is the same exactly if its top bit is clear. -/
theorem toInt_be16_iff (hi lo : BitVec 8) :
    (((hi.toNat <<< 8 ||| lo.toNat : ℕ)) : ℤ) = (be16 hi lo).toInt ↔ hi.toNat < 0x80 := by
  have hnat : (be16 hi lo).toNat = hi.toNat <<< 8 ||| lo.toNat := BitVec.toNat_append hi lo
  rw [BitVec.toInt_eq_toNat_cond, hnat, ← Nat.shiftLeft_add_eq_or_of_lt lo.isLt, Nat.shiftLeft_eq]
  have hlo := lo.isLt
  split <;> omega

/-! ### 32 bits, the low byte first -/

/-- The bytes of a 32-bit number in the order of a little-endian machine. -/
def word32Bytes (v : ℤ) : List (BitVec 8) :=
  let w := BitVec.ofInt 32 v
  [w.extractLsb' 0 8, w.extractLsb' 8 8, w.extractLsb' 16 8, w.extractLsb' 24 8]

/-- The `i`-th word in a buffer. -/
def word32At (buf : List (BitVec 8)) (i : ℕ) : Option ℤ :=
  match buf.drop (4 * i) with
  | b₀ :: b₁ :: b₂ :: b₃ :: _ => some (b₃ ++ b₂ ++ b₁ ++ b₀ : BitVec 32).toInt
  | _ => none

theorem word32_bytes (w : BitVec 32) : (w.extractLsb' 24 8 ++ w.extractLsb' 16 8 ++
    w.extractLsb' 8 8 ++ w.extractLsb' 0 8 : BitVec 32) = w := by
  rw [BitVec.extractLsb'_append_extractLsb'_eq_extractLsb' (by rfl),
    BitVec.extractLsb'_append_extractLsb'_eq_extractLsb' (by rfl),
    BitVec.extractLsb'_append_extractLsb'_eq_extractLsb' (by rfl)]
  exact BitVec.extractLsb'_eq_self

/-- A buffer of words, of which at least `i + 1` are copied. -/
theorem word32At_flatMap (words : List ℤ) {i n : ℕ} (h : 4 * (i + 1) ≤ n) :
    word32At ((words.flatMap word32Bytes).take n) i =
      words[i]?.map fun v => (BitVec.ofInt 32 v).toInt := by
  induction words generalizing i n with
  | nil => simp [word32At]
  | cons v words ih =>
      obtain ⟨n, rfl⟩ := Nat.exists_eq_add_of_le (Nat.le_trans (by omega : 4 ≤ 4 * (i + 1)) h)
      rw [List.flatMap_cons]
      have htake : (word32Bytes v ++ words.flatMap word32Bytes).take
          ((word32Bytes v).length + n) = _ := List.take_length_add_append n
      change word32At ((word32Bytes v ++ words.flatMap word32Bytes).take
        ((word32Bytes v).length + n)) i = _
      rw [htake]
      cases i with
      | zero =>
          rw [List.getElem?_cons_zero, Option.map_some, ← word32_bytes (BitVec.ofInt 32 v)]
          rfl
      | succ i =>
          rw [List.getElem?_cons_succ, ← ih (by omega : 4 * (i + 1) ≤ n), word32At, word32At]
          have hdrop : (word32Bytes v ++ (words.flatMap word32Bytes).take n).drop
              ((word32Bytes v).length + 4 * i) = _ := List.drop_length_add_append _
          have hindex : 4 * (i + 1) = (word32Bytes v).length + 4 * i := by
            rw [Nat.mul_succ, Nat.add_comm]
            rfl
          rw [hindex, hdrop]

end ConfigEnv.Registers
