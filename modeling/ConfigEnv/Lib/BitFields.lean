/-
Module: ConfigEnv.Lib.BitFields
Layer: Lib
Purpose: Fields of bits in a word. Values that fit are put into fields that do not overlap, and each
  is found again in its field; the fields of a word put together again give its bits in them.
Trusted boundary: none
Main exports: Field, Field.Apart, get, sshiftRight_and_mask, and_mask, toNat_get, clear,
  clear_eq_iff, clear_iff, Fits, Layout, put, get_put, put_get
Open obligations: none
-/
import Mathlib.Algebra.Ring.Nat
import Mathlib.Data.List.Pairwise

namespace ConfigEnv.BitFields

variable {n lo width i : ℕ} {x v : BitVec n}

/-- Where a field lies in a word. -/
structure Field where
  lo : ℕ
  width : ℕ
deriving DecidableEq, Repr

/-- The field has this bit. -/
def Field.Has (f : Field) (i : ℕ) : Prop := f.lo ≤ i ∧ i < f.lo + f.width

instance (f : Field) (i : ℕ) : Decidable (f.Has i) := inferInstanceAs (Decidable (_ ∧ _))

/-- The fields do not overlap. -/
def Field.Apart (f g : Field) : Prop := f.lo + f.width ≤ g.lo ∨ g.lo + g.width ≤ f.lo

instance (f g : Field) : Decidable (f.Apart g) := inferInstanceAs (Decidable (_ ∨ _))

variable {f g : Field}

theorem Field.Apart.symm (h : f.Apart g) : g.Apart f := Or.symm h

/-- Two fields that are apart share no bit. -/
theorem Field.Apart.not_has (h : f.Apart g) (hf : f.Has i) : ¬ g.Has i := by
  rintro ⟨hlo, hhi⟩
  obtain ⟨hlo', hhi'⟩ := hf
  rcases h with h | h <;> omega

/-! ### Reading a field -/

/-- The value of a field, at the low end of the word. -/
def get (x : BitVec n) (f : Field) : BitVec n := (x.extractLsb' f.lo f.width).setWidth n

/-- The bits of a field that was read. -/
@[simp] theorem getLsbD_get (x : BitVec n) (f : Field) (i : ℕ) :
    (get x f).getLsbD i = (decide (i < f.width) && x.getLsbD (f.lo + i)) := by
  rw [get, BitVec.getLsbD_setWidth, BitVec.getLsbD_extractLsb']
  by_cases hi : i < n
  · rw [decide_eq_true hi, Bool.true_and]
  · rw [x.getLsbD_of_ge _ (by omega), Bool.and_false, Bool.and_false]

/-- A shift and a mask read a field, also a shift that keeps the sign. -/
theorem sshiftRight_and_mask (x : BitVec n) (h : lo + width ≤ n) :
    x.sshiftRight lo &&& BitVec.ofNat n (2 ^ width - 1) = get x ⟨lo, width⟩ := by
  refine BitVec.eq_of_getLsbD_eq fun i hi => ?_
  rw [BitVec.getLsbD_and, BitVec.getLsbD_sshiftRight, BitVec.getLsbD_ofNat,
    Nat.testBit_two_pow_sub_one, getLsbD_get]
  by_cases hwidth : i < width
  · have hin : lo + i < n := by omega
    simp [hi, hwidth, hin, Nat.not_le.2 hi]
  · simp [hwidth]

/-- Masking with `2 ^ width - 1` reads the lowest field. -/
theorem and_mask (x : BitVec n) (h : width ≤ n) :
    x &&& BitVec.ofNat n (2 ^ width - 1) = get x ⟨0, width⟩ := by
  rw [← sshiftRight_and_mask x (by omega), BitVec.sshiftRight_zero]

/-- A field read as a number: shifted down and reduced. -/
theorem toNat_get (x : BitVec n) (f : Field) :
    (get x f).toNat = x.toNat / 2 ^ f.lo % 2 ^ f.width := by
  refine Nat.eq_of_testBit_eq fun i => ?_
  change (get x f).getLsbD i = _
  rw [getLsbD_get, Nat.testBit_mod_two_pow, Nat.testBit_div_two_pow, Nat.add_comm]
  rfl

/-! ### Clearing a bit -/

/-- The word without bit `i`. -/
def clear (x : BitVec n) (i : ℕ) : BitVec n := x &&& ~~~BitVec.twoPow n i

theorem getLsbD_clear (x : BitVec n) (i j : ℕ) :
    (clear x i).getLsbD j = (decide (j ≠ i) && x.getLsbD j) := by
  rw [clear, BitVec.getLsbD_and, BitVec.getLsbD_not, BitVec.getLsbD_twoPow]
  by_cases hj : j < n
  · by_cases heq : j = i
    · subst heq
      simp [hj]
    · simp [hj, heq, Ne.symm heq]
  · rw [x.getLsbD_of_ge _ (Nat.not_lt.1 hj), Bool.false_and, Bool.and_false]

/-- Clearing a bit changes nothing exactly when the bit was clear. -/
theorem clear_eq_iff : clear x i = x ↔ x.getLsbD i = false := by
  constructor
  · intro h
    rw [← h, getLsbD_clear]
    simp
  · intro h
    refine BitVec.eq_of_getLsbD_eq fun j _ => ?_
    rw [getLsbD_clear]
    by_cases heq : j = i
    · rw [heq, h, Bool.and_false]
    · rw [decide_eq_true heq, Bool.true_and]

/-- A property of `clear x i` and of no other word is one of `x` when the bit was clear. -/
theorem clear_iff {P : BitVec n → Prop} (hclear : P (clear x i))
    (hunique : ∀ v, P v → clear x i = v) : P x ↔ x.getLsbD i = false := by
  rw [← clear_eq_iff]
  constructor
  · exact hunique x
  · intro heq
    rwa [heq] at hclear

/-- A field that does not hold the cleared bit keeps its value. -/
theorem get_clear (h : ¬ f.Has i) : get (clear x i) f = get x f := by
  refine BitVec.eq_of_getLsbD_eq fun j _ => ?_
  rw [getLsbD_get, getLsbD_get, getLsbD_clear]
  by_cases hj : j < f.width
  · have hne : f.lo + j ≠ i := by
      rintro rfl
      exact h ⟨Nat.le_add_right _ _, Nat.add_lt_add_left hj _⟩
    rw [decide_eq_true hne, Bool.true_and]
  · rw [decide_eq_false hj, Bool.false_and, Bool.false_and]

/-! ### Putting fields together -/

/-- The value has no bits behind the width. -/
def Fits (v : BitVec n) (width : ℕ) : Prop := v.toNat < 2 ^ width

instance (v : BitVec n) (width : ℕ) : Decidable (Fits v width) :=
  inferInstanceAs (Decidable (_ < _))

theorem Fits.getLsbD (h : Fits v width) (hi : width ≤ i) : v.getLsbD i = false :=
  Nat.testBit_lt_two_pow (Nat.lt_of_lt_of_le h (Nat.pow_le_pow_right (by decide) hi))

/-- What is read from a field fits its width. -/
theorem fits_get (x : BitVec n) (f : Field) : Fits (get x f) f.width := by
  refine Nat.lt_pow_two_of_testBit _ fun i hi => ?_
  change (get x f).getLsbD i = false
  rw [getLsbD_get, decide_eq_false (Nat.not_lt.2 hi), Bool.false_and]

/-- Fields of a word that do not overlap. -/
structure Layout (n : ℕ) where
  fields : List Field
  apart : fields.Pairwise Field.Apart
  within : ∀ f ∈ fields, f.lo + f.width ≤ n

/-- Values in their fields. -/
def put : List (Field × BitVec n) → BitVec n
  | [] => 0#n
  | (f, v) :: parts => v <<< f.lo ||| put parts

/-- A bit of the word is set exactly when some part sets it. -/
theorem getLsbD_put_iff {parts : List (Field × BitVec n)} (hi : i < n) :
    (put parts).getLsbD i = true ↔
      ∃ p ∈ parts, p.1.lo ≤ i ∧ p.2.getLsbD (i - p.1.lo) = true := by
  induction parts with
  | nil => simp [put]
  | cons p parts ih =>
      rw [put, BitVec.getLsbD_or, BitVec.getLsbD_shiftLeft, Bool.or_eq_true, ih]
      simp [hi]

/-- Different parts of a layout are apart. -/
theorem Layout.apart_of_ne (layout : Layout n) {parts : List (Field × BitVec n)}
    {p q : Field × BitVec n} (hparts : parts.map Prod.fst = layout.fields) (hp : p ∈ parts)
    (hq : q ∈ parts) (hne : p ≠ q) : p.1.Apart q.1 := by
  have hsymm : Std.Symm fun p q : Field × BitVec n => p.1.Apart q.1 := ⟨fun _ _ h => h.symm⟩
  exact (List.pairwise_map.1 (hparts ▸ layout.apart)).forall hp hq hne

/-- A value that is put into its field of a layout is found there. -/
theorem get_put (layout : Layout n) {parts : List (Field × BitVec n)} {p : Field × BitVec n}
    (hparts : parts.map Prod.fst = layout.fields) (hfits : ∀ q ∈ parts, Fits q.2 q.1.width)
    (hp : p ∈ parts) : get (put parts) p.1 = p.2 := by
  have hn : p.1.lo + p.1.width ≤ n :=
    layout.within p.1 (hparts ▸ List.mem_map_of_mem hp)
  refine BitVec.eq_of_getLsbD_eq fun i _ => ?_
  rw [getLsbD_get]
  by_cases hwidth : i < p.1.width
  · rw [decide_eq_true hwidth, Bool.true_and, Bool.eq_iff_iff, getLsbD_put_iff (by omega)]
    constructor
    · rintro ⟨q, hq, hlo, hbit⟩
      by_cases heq : p = q
      · rwa [← heq, Nat.add_sub_cancel_left] at hbit
      · -- A bit of another part lies in a field that does not have it.
        have hnot : ¬ q.1.Has (p.1.lo + i) := (layout.apart_of_ne hparts hp hq heq).not_has
          ⟨Nat.le_add_right _ _, Nat.add_lt_add_left hwidth _⟩
        have hbehind : q.1.width ≤ p.1.lo + i - q.1.lo := by
          by_contra hwithin
          exact hnot ⟨hlo, by omega⟩
        rw [(hfits q hq).getLsbD hbehind] at hbit
        cases hbit
    · intro hbit
      exact ⟨p, hp, Nat.le_add_right _ _, by rwa [Nat.add_sub_cancel_left]⟩
  · rw [decide_eq_false hwidth, Bool.false_and, (hfits p hp).getLsbD (Nat.not_lt.1 hwidth)]

/-- The fields of a word put together again give the bits that the fields have. -/
theorem put_get (x : BitVec n) (fields : List Field) (hi : i < n) :
    (put (fields.map fun f => (f, get x f))).getLsbD i =
      (fields.any (fun f => decide (f.Has i)) && x.getLsbD i) := by
  rw [Bool.eq_iff_iff, getLsbD_put_iff hi, Bool.and_eq_true, List.any_eq_true]
  constructor
  · rintro ⟨p, hp, hlo, hbit⟩
    obtain ⟨f, hf, rfl⟩ := List.mem_map.1 hp
    rw [getLsbD_get, Bool.and_eq_true, decide_eq_true_iff] at hbit
    obtain ⟨hwidth, hbit⟩ := hbit
    rw [Nat.add_sub_cancel' hlo] at hbit
    exact ⟨⟨f, hf, decide_eq_true ⟨hlo, by dsimp only at hwidth hlo; omega⟩⟩, hbit⟩
  · rintro ⟨⟨f, hf, hhas⟩, hbit⟩
    obtain ⟨hlo, hhi⟩ := of_decide_eq_true hhas
    refine ⟨(f, get x f), List.mem_map.2 ⟨f, hf, rfl⟩, hlo, ?_⟩
    rw [getLsbD_get, Bool.and_eq_true, decide_eq_true_iff]
    dsimp only
    rw [Nat.add_sub_cancel' hlo]
    exact ⟨by omega, hbit⟩

end ConfigEnv.BitFields
