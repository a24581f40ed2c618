/-
Module: ConfigEnv.Lib.Numerals
Layer: Lib
Purpose: Numbers as text, by the rules of C: digits in a base, constants that show their base by
  their first characters, and words as printf writes them. What is written is read back.
Trusted boundary: none
Main exports: digit, read, read_digits, pad, read_pad, constant, constant_digits, word, decimal,
  hex, word_decimal, word_hex, decimal_inj, hex_append_inj
Open obligations: none
-/
import Mathlib.Data.Int.Notation
import Mathlib.Data.Nat.Notation

namespace ConfigEnv.Numerals

/-- Text by its characters. -/
abbrev Text := List Char

variable {b n k w : ℕ} {f : Char → Char}

/-! ### Digits -/

/-- The value of a digit in a base up to 16. -/
def digit (c : Char) : Option ℕ :=
  if '0' ≤ c ∧ c ≤ '9' then some (c.toNat - '0'.toNat)
  else if 'a' ≤ c ∧ c ≤ 'f' then some (c.toNat - 'a'.toNat + 10)
  else if 'A' ≤ c ∧ c ≤ 'F' then some (c.toNat - 'A'.toNat + 10)
  else none

/-- One more digit behind a number. -/
def readDigit (b n : ℕ) (c : Char) : Option ℕ :=
  (digit c).bind fun d => if d < b then some (b * n + d) else none

/-- The number that the digits stand for, if they all are digits of the base. -/
def read (b : ℕ) (text : Text) : Option ℕ := text.foldlM (readDigit b) 0

theorem readDigit_of_digit {c : Char} {d : ℕ} (hc : digit c = some d) (hd : d < b) :
    readDigit b n c = some (b * n + d) := by
  rw [readDigit, hc]
  exact if_pos hd

/-- The digits of a number, with letters of either case, are read as the number. -/
theorem read_digits (hf : ∀ d < 16, digit (f d.digitChar) = some d) (hb : 1 < b) (hb' : b ≤ 16)
    (n : ℕ) : read b ((Nat.toDigits b n).map f) = some n := by
  induction n using Nat.strongRecOn with
  | ind n ih =>
      by_cases hn : n < b
      · rw [Nat.toDigits_of_lt_base hn, List.map_singleton, read, List.foldlM_cons,
          readDigit_of_digit (hf n (Nat.lt_of_lt_of_le hn hb')) hn, Nat.mul_zero, Nat.zero_add]
        rfl
      · have hle : b ≤ n := Nat.not_lt.1 hn
        have hlast : n % b < b := Nat.mod_lt n (Nat.zero_lt_of_lt hb)
        have hfront := ih (n / b) (Nat.div_lt_self (by omega) hb)
        rw [read] at hfront
        rw [Nat.toDigits_of_base_le hb hle, List.map_append, List.map_singleton, read,
          List.foldlM_append, hfront]
        change [f (n % b).digitChar].foldlM (readDigit b) (n / b) = some n
        rw [List.foldlM_cons, readDigit_of_digit (hf _ (Nat.lt_of_lt_of_le hlast hb')) hlast,
          Nat.div_add_mod]
        rfl

theorem digit_digitChar : ∀ d < 16, digit d.digitChar = some d := by decide

theorem digit_toUpper : ∀ d < 16, digit d.digitChar.toUpper = some d := by decide

/-- Zeros in front up to `k` characters. -/
def pad (k : ℕ) (text : Text) : Text := List.replicate (k - text.length) '0' ++ text

/-- Leading zeros change nothing. -/
theorem read_pad (hb : 0 < b) (k : ℕ) (text : Text) : read b (pad k text) = read b text := by
  have hzeros : ∀ m, (List.replicate m '0').foldlM (readDigit b) 0 = some 0 := by
    intro m
    induction m with
    | zero => rfl
    | succ m ih =>
        have hzero : readDigit b 0 '0' = some 0 := readDigit_of_digit (by decide) hb
        rw [List.replicate_succ, List.foldlM_cons, hzero]
        exact ih
  rw [read, pad, List.foldlM_append, hzeros]
  rfl

/-- A number but zero does not begin with the digit zero. -/
theorem toDigits_head (hb : 1 < b) (hn : n ≠ 0) :
    ∃ c text, Nat.toDigits b n = c :: text ∧ c ≠ '0' := by
  induction n using Nat.strongRecOn with
  | ind n ih =>
      by_cases hlt : n < b
      · have hne : n.digitChar ≠ '0' := fun h => hn (Nat.digitChar_eq_zero.1 h)
        exact ⟨n.digitChar, [], Nat.toDigits_of_lt_base hlt, hne⟩
      · have hle : b ≤ n := Nat.not_lt.1 hlt
        have hfront : n / b ≠ 0 := Nat.ne_of_gt (Nat.div_pos hle (Nat.zero_lt_of_lt hb))
        obtain ⟨c, text, hdigits, hc⟩ := ih (n / b) (Nat.div_lt_self (by omega) hb) hfront
        refine ⟨c, text ++ [(n % b).digitChar], ?_, hc⟩
        rw [Nat.toDigits_of_base_le hb hle, hdigits, List.cons_append]

/-! ### Constants -/

/-- A constant with `0x` in front is hexadecimal, another with a `0` octal. -/
def constant : Text → Option ℕ
  | '0' :: 'x' :: text => read 16 text
  | '0' :: 'X' :: text => read 16 text
  | '0' :: text => read 8 text
  | text => read 10 text

/-- Decimal digits read as the number that they write. -/
theorem constant_digits (n : ℕ) : constant (Nat.toDigits 10 n) = some n := by
  by_cases hn : n = 0
  · rw [hn]
    rfl
  · obtain ⟨c, text, hdigits, hc⟩ := toDigits_head (by decide : 1 < 10) hn
    have hread := read_digits (f := id) digit_digitChar (by decide : 1 < 10) (by decide) n
    rw [List.map_id, hdigits] at hread
    rw [hdigits, ← hread]
    rw [constant]
    all_goals
      rintro text ⟨⟩
      exact hc rfl

/-! ### Words -/

/-- A word as a constant, perhaps with a sign in front; a constant that is too long wraps around. -/
def word (w : ℕ) : Text → Option (BitVec w)
  | '-' :: c :: text => (constant (c :: text)).map fun n => -BitVec.ofNat w n
  | text => (constant text).map fun n => BitVec.ofNat w n

/-- `%d` of a word. -/
def decimal (v : BitVec w) : Text :=
  if v.toInt < 0 then '-' :: Nat.toDigits 10 v.toInt.natAbs else Nat.toDigits 10 v.toInt.natAbs

/-- `0x%0kX` of a word. -/
def hex (k : ℕ) (v : BitVec w) : Text :=
  '0' :: 'x' :: pad k ((Nat.toDigits 16 v.toNat).map Char.toUpper)

theorem word_digits (n : ℕ) : word w (Nat.toDigits 10 n) = some (BitVec.ofNat w n) := by
  have hconstant := constant_digits n
  rw [word, hconstant]
  · rfl
  · intro c text htext
    rw [htext] at hconstant
    have hsign : constant ('-' :: c :: text) = none := rfl
    rw [hsign] at hconstant
    cases hconstant

/-- A word written in decimal reads as itself. -/
theorem word_decimal (v : BitVec w) : word w (decimal v) = some v := by
  rw [decimal]
  split
  · next hneg =>
      have habs : v.toInt = -(v.toInt.natAbs : ℤ) := by omega
      have hvalue : -BitVec.ofNat w v.toInt.natAbs = v := by
        rw [← BitVec.ofInt_natCast, ← BitVec.ofInt_neg, ← habs, BitVec.ofInt_toInt]
      obtain ⟨c, text, hdigits⟩ := List.exists_cons_of_ne_nil
        (Nat.toDigits_ne_nil (b := 10) (n := v.toInt.natAbs))
      rw [hdigits, word, ← hdigits, constant_digits, Option.map_some, hvalue]
  · next hpos =>
      have habs : v.toInt = (v.toInt.natAbs : ℤ) := by omega
      rw [word_digits, ← BitVec.ofInt_natCast, ← habs, BitVec.ofInt_toInt]

/-- A word written in hexadecimal reads as itself. -/
theorem word_hex (k : ℕ) (v : BitVec w) : word w (hex k v) = some v := by
  have hconstant : constant (hex k v) = some v.toNat :=
    (read_pad (by decide) k _).trans (read_digits digit_toUpper (by decide) (by decide) v.toNat)
  change (constant (hex k v)).map (fun n => BitVec.ofNat w n) = some v
  rw [hconstant, Option.map_some, BitVec.ofNat_toNat, BitVec.setWidth_eq]

/-- Two words with the same decimal text are equal. -/
theorem decimal_inj {u v : BitVec w} (h : decimal u = decimal v) : u = v := by
  have hread := word_decimal u
  rw [h, word_decimal] at hread
  exact (Option.some.inj hread).symm

/-- A text with a blank is no constant. -/
theorem read_blank {text : Text} (h : ' ' ∈ text) (b n : ℕ) :
    text.foldlM (readDigit b) n = none := by
  induction text generalizing n with
  | nil => cases h
  | cons c text ih =>
      rw [List.foldlM_cons]
      rcases List.mem_cons.1 h with rfl | htail
      · rfl
      · cases readDigit b n c with
        | none => rfl
        | some m => exact ih htail m

theorem blank_notMem_hex (k : ℕ) (v : BitVec w) : ' ' ∉ hex k v := by
  intro hblank
  have hdigits : ' ' ∈ pad k ((Nat.toDigits 16 v.toNat).map Char.toUpper) := by
    rcases List.mem_cons.1 hblank with h | h
    · cases h
    · exact (List.mem_cons.1 h).resolve_left (by decide)
  have hread := word_hex k v
  change (read 16 (pad k ((Nat.toDigits 16 v.toNat).map Char.toUpper))).map _ = some v at hread
  rw [read, read_blank hdigits] at hread
  cases hread

/-- A blank behind it ends a hexadecimal number. -/
theorem hex_append_inj {u v : BitVec w} {text text' : Text}
    (h : hex k u ++ ' ' :: text = hex k v ++ ' ' :: text') : u = v := by
  have hfront : ∀ (v : BitVec w) (text : Text),
      (hex k v ++ ' ' :: text).takeWhile (fun c => c ≠ ' ') = hex k v := by
    intro v text
    have hno : ∀ c ∈ hex k v, decide (c ≠ ' ') = true := fun c hc =>
      decide_eq_true fun heq : c = ' ' => blank_notMem_hex k v (heq ▸ hc)
    rw [List.takeWhile_append_of_pos hno]
    simp
  have hread := word_hex k u
  rw [← hfront u text, h, hfront v text', word_hex] at hread
  exact (Option.some.inj hread).symm

end ConfigEnv.Numerals
