/-
Module: ConfigEnv.Lib.Utf16
Layer: Lib
Purpose: Strings of 16 bit code units and the characters in them. A surrogate without its partner
  stands for no character and is replaced, so the conversion to characters is exact on well-formed
  strings only: those that consist of the units of some characters.
Trusted boundary: none
Main exports: IsHigh, IsLow, units, utf16, usv, usv_units_append, usv_utf16, WellFormed,
  WellFormed.append, WellFormed.flatten, WellFormed.intercalate, toNat_of_mem_units, utf8, utf8_inj
Open obligations: none
-/
import Mathlib.Data.Nat.Notation
import Mathlib.Tactic.Common

namespace ConfigEnv.Utf16

/-! ### Code units -/

/-- A high surrogate. -/
def IsHigh (u : UInt16) : Prop := 0xD800 ≤ u.toNat ∧ u.toNat < 0xDC00

/-- A low surrogate. -/
def IsLow (u : UInt16) : Prop := 0xDC00 ≤ u.toNat ∧ u.toNat < 0xE000

instance (u : UInt16) : Decidable (IsHigh u) := inferInstanceAs (Decidable (_ ∧ _))

instance (u : UInt16) : Decidable (IsLow u) := inferInstanceAs (Decidable (_ ∧ _))

/-- The units of a character. -/
def units (c : Char) : List UInt16 :=
  if c.toNat < 0x10000 then [UInt16.ofNat c.toNat]
  else [UInt16.ofNat (0xD800 + (c.toNat - 0x10000) / 0x400),
    UInt16.ofNat (0xDC00 + (c.toNat - 0x10000) % 0x400)]

/-- The code units of some characters. -/
def utf16 (cs : List Char) : List UInt16 := cs.flatMap units

/-- What a surrogate without a partner becomes. -/
def replacement : Char := '\uFFFD'

/-- The characters of a string. -/
def usv : List UInt16 → List Char
  | [] => []
  | [u] => [if IsHigh u ∨ IsLow u then replacement else Char.ofNat u.toNat]
  | u :: l :: rest =>
      if IsHigh u then
        if IsLow l then
          Char.ofNat (0x10000 + (u.toNat - 0xD800) * 0x400 + (l.toNat - 0xDC00)) :: usv rest
        else replacement :: usv (l :: rest)
      else if IsLow u then replacement :: usv (l :: rest)
      else Char.ofNat u.toNat :: usv (l :: rest)

/-! ### Well-formed strings -/

theorem toNat_ofNat {n : ℕ} (h : n < 65536) : (UInt16.ofNat n).toNat = n :=
  UInt16.toNat_ofNat_of_lt h

theorem usv_units_append (c : Char) (s : List UInt16) : usv (units c ++ s) = c :: usv s := by
  have hvalid : c.toNat < 0xD800 ∨ (0xDFFF < c.toNat ∧ c.toNat < 0x110000) := c.valid
  rw [units]
  by_cases hbmp : c.toNat < 0x10000
  · have hnat : (UInt16.ofNat c.toNat).toNat = c.toNat := toNat_ofNat hbmp
    have hhigh : ¬ IsHigh (UInt16.ofNat c.toNat) := by
      rw [IsHigh, hnat]
      omega
    have hlow : ¬ IsLow (UInt16.ofNat c.toNat) := by
      rw [IsLow, hnat]
      omega
    rw [if_pos hbmp, List.singleton_append]
    cases s with
    | nil => rw [usv, usv, if_neg (not_or.2 ⟨hhigh, hlow⟩), hnat, Char.ofNat_toNat]
    | cons l rest => rw [usv, if_neg hhigh, if_neg hlow, hnat, Char.ofNat_toNat]
  · have hdiv : (c.toNat - 0x10000) / 0x400 < 0x400 := by omega
    have hu : (UInt16.ofNat (0xD800 + (c.toNat - 0x10000) / 0x400)).toNat =
        0xD800 + (c.toNat - 0x10000) / 0x400 := toNat_ofNat (by omega)
    have hl : (UInt16.ofNat (0xDC00 + (c.toNat - 0x10000) % 0x400)).toNat =
        0xDC00 + (c.toNat - 0x10000) % 0x400 := toNat_ofNat (by omega)
    have hhigh : IsHigh (UInt16.ofNat (0xD800 + (c.toNat - 0x10000) / 0x400)) := by
      rw [IsHigh, hu]
      omega
    have hlow : IsLow (UInt16.ofNat (0xDC00 + (c.toNat - 0x10000) % 0x400)) := by
      rw [IsLow, hl]
      omega
    have hsum : 0x10000 + (0xD800 + (c.toNat - 0x10000) / 0x400 - 0xD800) * 0x400 +
        (0xDC00 + (c.toNat - 0x10000) % 0x400 - 0xDC00) = c.toNat := by
      omega
    rw [if_neg hbmp, List.cons_append, List.cons_append, List.nil_append, usv, if_pos hhigh,
      if_pos hlow, hu, hl, hsum, Char.ofNat_toNat]

/-- Decoding what was encoded gives the characters back. -/
theorem usv_utf16 (cs : List Char) : usv (utf16 cs) = cs := by
  induction cs with
  | nil => rfl
  | cons c cs ih => rw [utf16, List.flatMap_cons, usv_units_append, ← utf16, ih]

/-- The string consists of the units of characters. -/
def WellFormed (s : List UInt16) : Prop := ∃ cs, s = utf16 cs

/-- Two well-formed strings end to end are well formed. -/
theorem WellFormed.append {s t : List UInt16} (hs : WellFormed s) (ht : WellFormed t) :
    WellFormed (s ++ t) := by
  obtain ⟨cs, rfl⟩ := hs
  obtain ⟨cs', rfl⟩ := ht
  exact ⟨cs ++ cs', (List.flatMap_append ..).symm⟩

/-- A string of well-formed pieces. -/
theorem WellFormed.flatten {l : List (List UInt16)} (h : ∀ s ∈ l, WellFormed s) :
    WellFormed l.flatten := by
  induction l with
  | nil => exact ⟨[], rfl⟩
  | cons s l ih =>
      obtain ⟨hs, hl⟩ := List.forall_mem_cons.1 h
      rw [List.flatten_cons]
      exact hs.append (ih hl)

/-- Well-formed strings joined by a well-formed separator are well formed. -/
theorem WellFormed.intercalate {sep : List UInt16} {l : List (List UInt16)} (hsep : WellFormed sep)
    (h : ∀ s ∈ l, WellFormed s) : WellFormed (sep.intercalate l) := by
  induction l with
  | nil => exact ⟨[], rfl⟩
  | cons s l ih =>
      obtain ⟨hs, hl⟩ := List.forall_mem_cons.1 h
      cases l with
      | nil =>
          rw [List.intercalate_singleton]
          exact hs
      | cons t l =>
          rw [List.intercalate_cons_cons]
          exact (hs.append hsep).append (ih hl)

/-- A unit below 128 stands for itself only. -/
theorem toNat_of_mem_units {u : UInt16} {c : Char} (hu : u.toNat < 0x80) (h : u ∈ units c) :
    c.toNat = u.toNat := by
  rw [units] at h
  split at h
  · next hbmp =>
      rw [List.mem_singleton.1 h, toNat_ofNat hbmp]
  · exfalso
    have hvalid : c.toNat < 0xD800 ∨ (0xDFFF < c.toNat ∧ c.toNat < 0x110000) := c.valid
    rcases List.mem_cons.1 h with rfl | h
    · rw [toNat_ofNat (by omega)] at hu
      omega
    · rw [List.mem_singleton.1 h, toNat_ofNat (by omega)] at hu
      omega

/-! ### Bytes -/

/-- The bytes of a string in a file. -/
def utf8 (s : List UInt16) : ByteArray := (String.ofList (usv s)).toUTF8

/-- On well-formed strings the encoding is injective. -/
theorem utf8_inj {s t : List UInt16} (hs : WellFormed s) (ht : WellFormed t) :
    utf8 s = utf8 t ↔ s = t := by
  obtain ⟨cs, rfl⟩ := hs
  obtain ⟨cs', rfl⟩ := ht
  rw [utf8, utf8, String.toUTF8_eq_toByteArray, String.toUTF8_eq_toByteArray,
    String.toByteArray_inj, String.ofList_inj]
  constructor
  · intro h
    rw [usv_utf16, usv_utf16] at h
    rw [h]
  · intro h
    rw [h]

end ConfigEnv.Utf16
