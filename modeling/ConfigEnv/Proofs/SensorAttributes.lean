/-
Module: ConfigEnv.Proofs.SensorAttributes
Layer: Proofs
Purpose: What an attribute of the sensor reads back after it was written. A scale is found in its
  table by the fraction alone, an offset keeps 16 bits of the integer alone, and neither write looks
  at the other part; so the pair comes back exactly if that part is zero and the offset fits. A
  write that fails changes no register.
Trusted boundary: none
Main exports: Value.pair, Accepts, ReadsBack, readBack, writeScale_cases, sensorSet_cases,
  writeRaw_cases, attributes_read_back_iff
Open obligations: none
-/
import ConfigEnv.Icm20608.Iio
import Mathlib.Data.List.GetD

namespace ConfigEnv.Icm20608

open Registers (Bank bulkWrite be16Bytes)

variable {t : Transfer} {regs : Bank u8} {chan : Channel} {mask : Mask} {val val2 : ℤ}

/-- The two parts of a value; an integer has no second part. -/
def Value.pair : Value → ℤ × ℤ
  | .int val => (val, 0)
  | .intPlusMicro val val2 => (val, val2)
  | .intPlusNano val val2 => (val, val2)

/-- The driver has this attribute for writing, and a scale with this fraction. -/
def Accepts (chan : Channel) (val2 : ℤ) : Mask → Prop
  | .scale =>
      match chan with
      | .motion .anglVel _ => val2 ∈ gyroScale
      | .motion .accel _ => val2 ∈ accelScale
      | .temp => False
  | .calibbias => chan ≠ .temp
  | _ => False

/-- What is written is read back, or nothing has changed. -/
def ReadsBack (t : Transfer) (regs : Bank u8) (chan : Channel) (val val2 : ℤ) (mask : Mask) :
    Prop :=
  ((writeRaw t regs chan val val2 mask).1 = 0 →
    ∃ v, readRaw .ok (writeRaw t regs chan val val2 mask).2 chan mask = .ok v ∧
      v.pair = (val, val2)) ∧
  ((writeRaw t regs chan val val2 mask).1 ≠ 0 → (writeRaw t regs chan val val2 mask).2 = regs)

/-- The pair that is read after a write of `val` and `val2`. -/
def readBack (val val2 : ℤ) : Mask → ℤ × ℤ
  | .scale => (0, val2)
  | _ => ((BitVec.ofInt 16 val).toInt, 0)

/-! ### The writes -/

/-- A scale index that is written reads back. -/
theorem scaleIndex_write {reg i : ℕ} (hi : i < 4) :
    scaleIndex .ok (bulkWrite regs reg [BitVec.ofNat 8 (i <<< 3)]) reg = i := by
  have hread : readOnereg .ok (bulkWrite regs reg [BitVec.ofNat 8 (i <<< 3)]) reg =
      BitVec.ofNat 8 (i <<< 3) :=
    Registers.bulkWrite_same regs reg [BitVec.ofNat 8 (i <<< 3)] Nat.one_pos
  have hfield : ∀ i < 4, ((BitVec.ofNat 8 (i <<< 3) &&& 0x18#8) >>> 3).toNat = i := by decide
  rw [scaleIndex, hread, hfield i hi]

/-- A scale of the table is written where it is read; another is refused. -/
theorem writeScale_cases (table : List ℤ) (hlen : table.length ≤ 4) (reg : ℕ) (t : Transfer)
    (regs : Bank u8) (val : ℤ) :
    (t.result = 0 ∧ val ∈ table ∧ ∃ regs', writeScale table reg t regs val = (0, regs') ∧
      table.getD (scaleIndex .ok regs' reg) 0 = val) ∨
    ((t.result ≠ 0 ∨ val ∉ table) ∧ ∃ e ≠ 0, writeScale table reg t regs val = (e, regs)) := by
  rw [writeScale]
  cases hfind : table.findIdx? (· = val) with
  | none =>
      have hnot : val ∉ table := fun hmem =>
        of_decide_eq_false (List.findIdx?_eq_none_iff.1 hfind val hmem) rfl
      exact .inr ⟨.inr hnot, einval, by decide, rfl⟩
  | some i =>
      obtain ⟨hi, hval, -⟩ := List.findIdx?_eq_some_iff_getElem.1 hfind
      have heq : table[i] = val := of_decide_eq_true hval
      by_cases ht : t.result = 0
      · refine .inl ⟨ht, heq ▸ List.getElem_mem hi, _, if_pos ht, ?_⟩
        rw [scaleIndex_write (Nat.lt_of_lt_of_le hi hlen), List.getD_eq_getElem _ _ hi, heq]
      · exact .inr ⟨.inl ht, t.result, ht, if_neg ht⟩

/-- A write of an offset stores both bytes, or fails and changes nothing. -/
theorem sensorSet_cases (t : Transfer) (regs : Bank u8) (reg : ℕ) (axis : Axis) (val : ℤ) :
    (t.result = 0 ∧ sensorSet t regs reg axis val =
      (0, bulkWrite regs (reg + axisInd axis) (be16Bytes (BitVec.ofInt 16 val)))) ∨
    (t.result ≠ 0 ∧ sensorSet t regs reg axis val = (einval, regs)) := by
  by_cases ht : t.result = 0
  · refine .inl ⟨ht, ?_⟩
    rw [sensorSet, regmapBulkWrite, if_pos ht]
    rfl
  · refine .inr ⟨ht, ?_⟩
    rw [sensorSet, regmapBulkWrite, if_neg ht]
    exact if_pos ht

/-- An offset that is written reads back as a signed word. -/
theorem sensorShow_set (regs : Bank u8) (reg : ℕ) (axis : Axis) (val : ℤ) :
    sensorShow .ok (bulkWrite regs (reg + axisInd axis) (be16Bytes (BitVec.ofInt 16 val))) reg
      axis = .ok (.int (BitVec.ofInt 16 val).toInt) := by
  rw [sensorShow, Registers.be16_bulkWrite]
  rfl

/-- An accepted write over a working bus is read back in part; every other write returns an error
and changes nothing. -/
theorem writeRaw_cases (t : Transfer) (regs : Bank u8) (chan : Channel) (val val2 : ℤ)
    (mask : Mask) :
    (t.result = 0 ∧ Accepts chan val2 mask ∧ ∃ regs' v,
      writeRaw t regs chan val val2 mask = (0, regs') ∧ readRaw .ok regs' chan mask = .ok v ∧
        v.pair = readBack val val2 mask) ∨
    ((t.result ≠ 0 ∨ ¬ Accepts chan val2 mask) ∧ ∃ e ≠ 0,
      writeRaw t regs chan val val2 mask = (e, regs)) := by
  have hrefused : ∀ {P : Prop}, ¬ P → (t.result ≠ 0 ∨ ¬ P) ∧ ∃ e ≠ 0, (einval, regs) = (e, regs) :=
    fun h => ⟨.inr h, einval, by decide, rfl⟩
  have hset : ∀ (reg : ℕ) (axis : Axis), chan ≠ .temp →
      (t.result = 0 ∧ chan ≠ .temp ∧ ∃ regs' v, sensorSet t regs reg axis val = (0, regs') ∧
        sensorShow .ok regs' reg axis = .ok v ∧ v.pair = readBack val val2 .calibbias) ∨
      ((t.result ≠ 0 ∨ ¬ chan ≠ .temp) ∧ ∃ e ≠ 0, sensorSet t regs reg axis val = (e, regs)) := by
    intro reg axis hchan
    rcases sensorSet_cases t regs reg axis val with ⟨ht, hset⟩ | ⟨ht, hset⟩
    · exact .inl ⟨ht, hchan, _, _, hset, sensorShow_set regs reg axis val, rfl⟩
    · exact .inr ⟨.inl ht, einval, by decide, hset⟩
  cases mask with
  | scale =>
      cases chan with
      | temp => exact .inr (hrefused not_false)
      | motion sensor axis =>
          cases sensor with
          | anglVel =>
              rcases writeScale_cases gyroScale (by decide) gyroConfig t regs val2 with
                ⟨ht, hmem, regs', hwrite, hread⟩ | hno
              · exact .inl ⟨ht, hmem, regs', _, hwrite, rfl, congrArg (Prod.mk 0) hread⟩
              · exact .inr hno
          | accel =>
              rcases writeScale_cases accelScale (by decide) accelConfig t regs val2 with
                ⟨ht, hmem, regs', hwrite, hread⟩ | hno
              · exact .inl ⟨ht, hmem, regs', _, hwrite, rfl, congrArg (Prod.mk 0) hread⟩
              · exact .inr hno
  | calibbias =>
      cases chan with
      | temp => exact .inr (hrefused fun h => h rfl)
      | motion sensor axis =>
          cases sensor with
          | anglVel => exact hset xgOffsUsrh axis (by rintro ⟨⟩)
          | accel => exact hset xaOffsetH axis (by rintro ⟨⟩)
  | raw => exact .inr (hrefused not_false)
  | offset => exact .inr (hrefused not_false)
  | other => exact .inr (hrefused not_false)

/-! ### The pair -/

/-- When an accepted value reads back as it was written. -/
theorem readBack_iff (h : Accepts chan val2 mask) : readBack val val2 mask = (val, val2) ↔
    (mask = .scale ∧ val = 0) ∨ (mask = .calibbias ∧ -32768 ≤ val ∧ val ≤ 32767 ∧ val2 = 0) := by
  cases mask with
  | scale =>
      simp only [readBack, Prod.mk.injEq, and_true, true_and, reduceCtorEq, false_and, or_false]
      exact eq_comm
  | calibbias =>
      simp only [readBack, Prod.mk.injEq, true_and, reduceCtorEq, false_and, false_or,
        Registers.toInt_ofInt_iff, and_assoc]
      rw [eq_comm (a := (0 : ℤ))]
  | raw => exact h.elim
  | offset => exact h.elim
  | other => exact h.elim

/-- A write is read back, or changes nothing, exactly if it is refused, or the part that the driver
does not look at is zero and the other fits. -/
theorem attributes_read_back_iff (t : Transfer) (regs : Bank u8) (chan : Channel) (val val2 : ℤ)
    (mask : Mask) :
    ReadsBack t regs chan val val2 mask ↔
      t.result ≠ 0 ∨ ¬ Accepts chan val2 mask ∨ (mask = .scale ∧ val = 0) ∨
        (mask = .calibbias ∧ -32768 ≤ val ∧ val ≤ 32767 ∧ val2 = 0) := by
  rw [ReadsBack]
  rcases writeRaw_cases t regs chan val val2 mask with
    ⟨ht, haccepts, regs', v, hwrite, hread, hpair⟩ | ⟨hno, e, he, hwrite⟩
  · rw [hwrite, ← readBack_iff haccepts]
    constructor
    · rintro ⟨hback, -⟩
      obtain ⟨v', hv', hpair'⟩ := hback rfl
      obtain rfl : v = v' := Except.ok.inj (hread.symm.trans hv')
      exact .inr (.inr (hpair.symm.trans hpair'))
    · intro hwhen
      have hpart := (hwhen.resolve_left fun h => h ht).resolve_left fun h => h haccepts
      exact ⟨fun _ => ⟨v, hread, hpair.trans hpart⟩, fun h => absurd rfl h⟩
  · rw [hwrite]
    refine iff_of_true ⟨fun h => absurd h he, fun _ => rfl⟩ ?_
    exact hno.elim .inl fun h => .inr (.inl h)

/-- 1.007629 is taken for the scale 0.007629. -/
theorem whole_part_is_lost : ¬ ∀ (t : Transfer) (regs : Bank u8) (chan : Channel) (val val2 : ℤ)
    (mask : Mask), ReadsBack t regs chan val val2 mask := by
  intro hall
  obtain ⟨v, hread, hpair⟩ :=
    (hall .ok (fun _ => 0) (.motion .anglVel .x) 1 7629 .scale).1 (by decide)
  cases hread
  revert hpair
  decide

end ConfigEnv.Icm20608
