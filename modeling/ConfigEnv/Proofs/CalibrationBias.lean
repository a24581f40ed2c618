/-
Module: ConfigEnv.Proofs.CalibrationBias
Layer: Proofs
Purpose: Which registers a calibration write hits. The driver finds the offset of an axis two
  registers behind that of the axis before it. The offsets of the gyroscope lie so; those of the
  accelerometer have a register between them, so that only its X axis is where the header says.
Trusted boundary: none
Main exports: named, SetsNamed, KeepsReadings, ReadsNamed, HitsOwn, reads, readRaw_congr,
  address_named_iff, hitsOwn_iff
Open obligations: none
-/
import ConfigEnv.Proofs.SensorAttributes

namespace ConfigEnv.Icm20608

open Registers (Bank bulkWrite be16Bytes)

variable {t : Transfer} {regs regs' : Bank u8} {sensor : Sensor} {axis : Axis} {val val2 : ℤ}

/-! ### The offsets of an axis -/

/-- The high and the low offset register of an axis in the header. -/
def named : Sensor → Axis → ℕ × ℕ
  | .anglVel, .x => (xgOffsUsrh, xgOffsUsrl)
  | .anglVel, .y => (ygOffsUsrh, ygOffsUsrl)
  | .anglVel, .z => (zgOffsUsrh, zgOffsUsrl)
  | .accel, .x => (xaOffsetH, xaOffsetL)
  | .accel, .y => (yaOffsetH, yaOffsetL)
  | .accel, .z => (zaOffsetH, zaOffsetL)

/-- A successful write leaves the value in the named registers, and every other register alone. -/
def SetsNamed (sensor : Sensor) (axis : Axis) : Prop :=
  ∀ (t : Transfer) (regs : Bank u8) (val val2 : ℤ),
    (writeRaw t regs (.motion sensor axis) val val2 .calibbias).1 = 0 →
      ∀ r, (writeRaw t regs (.motion sensor axis) val val2 .calibbias).2 r =
        if r = (named sensor axis).1 then (BitVec.ofInt 16 val).extractLsb' 8 8
        else if r = (named sensor axis).2 then (BitVec.ofInt 16 val).extractLsb' 0 8
        else regs r

/-- Every other attribute reads the same after a successful write. -/
def KeepsReadings (sensor : Sensor) (axis : Axis) : Prop :=
  ∀ (t : Transfer) (regs : Bank u8) (val val2 : ℤ),
    (writeRaw t regs (.motion sensor axis) val val2 .calibbias).1 = 0 →
      ∀ (t' : Transfer) (chan : Channel) (mask : Mask),
        (chan, mask) ≠ (.motion sensor axis, .calibbias) →
          readRaw t' (writeRaw t regs (.motion sensor axis) val val2 .calibbias).2 chan mask =
            readRaw t' regs chan mask

/-- The offset depends on the named registers only. -/
def ReadsNamed (sensor : Sensor) (axis : Axis) : Prop :=
  ∀ (t : Transfer) (regs regs' : Bank u8),
    regs (named sensor axis).1 = regs' (named sensor axis).1 →
    regs (named sensor axis).2 = regs' (named sensor axis).2 →
      readRaw t regs (.motion sensor axis) .calibbias =
        readRaw t regs' (.motion sensor axis) .calibbias

/-- The bias of the axis is about its own registers: a write sets them and leaves the other
attributes, and a read reads them. -/
structure HitsOwn (sensor : Sensor) (axis : Axis) : Prop where
  sets : SetsNamed sensor axis
  keeps : KeepsReadings sensor axis
  reads : ReadsNamed sensor axis

/-! ### Addresses -/

/-- The first offset register of a sensor. -/
def offsetBase : Sensor → ℕ
  | .anglVel => xgOffsUsrh
  | .accel => xaOffsetH

/-- Where the driver puts the offset. -/
def address (sensor : Sensor) (axis : Axis) : ℕ := offsetBase sensor + axisInd axis

/-- The address is the one that the header names, except for Y and Z of the accelerometer. -/
theorem address_named_iff : named sensor axis = (address sensor axis, address sensor axis + 1) ↔
    ¬ (sensor = .accel ∧ (axis = .y ∨ axis = .z)) := by
  cases sensor <;> cases axis <;> decide

/-- A write of a bias is a write of the two registers at the channel's address. -/
theorem writeRaw_calibbias (t : Transfer) (regs : Bank u8) (sensor : Sensor) (axis : Axis)
    (val val2 : ℤ) : writeRaw t regs (.motion sensor axis) val val2 .calibbias =
      sensorSet t regs (offsetBase sensor) axis val := by
  cases sensor <;> rfl

/-- A read of a bias is a read of the two registers at the channel's address. -/
theorem readRaw_calibbias (t : Transfer) (regs : Bank u8) (sensor : Sensor) (axis : Axis) :
    readRaw t regs (.motion sensor axis) .calibbias =
      sensorShow t regs (offsetBase sensor) axis := by
  cases sensor <;> rfl

/-! ### What an attribute reads -/

/-- The registers that an attribute is read from. -/
def reads (chan : Channel) : Mask → List ℕ
  | .raw =>
      match chan with
      | .motion .anglVel axis => [gyroXoutH + axisInd axis, gyroXoutH + axisInd axis + 1]
      | .motion .accel axis => [accelXoutH + axisInd axis, accelXoutH + axisInd axis + 1]
      | .temp => [tempOutH, tempOutH + 1]
  | .scale =>
      match chan with
      | .motion .anglVel _ => [gyroConfig]
      | .motion .accel _ => [accelConfig]
      | .temp => []
  | .calibbias =>
      match chan with
      | .motion sensor axis => [address sensor axis, address sensor axis + 1]
      | .temp => []
  | _ => []

theorem sensorShow_congr {reg : ℕ} (h : regs (reg + axisInd axis) = regs' (reg + axisInd axis))
    (h' : regs (reg + axisInd axis + 1) = regs' (reg + axisInd axis + 1)) :
    sensorShow t regs reg axis = sensorShow t regs' reg axis := by
  rw [sensorShow, sensorShow, h, h']

theorem scaleIndex_congr {reg : ℕ} (h : regs reg = regs' reg) :
    scaleIndex t regs reg = scaleIndex t regs' reg := by
  rw [scaleIndex, scaleIndex, readOnereg, readOnereg, h]

/-- An attribute depends on these registers only. -/
theorem readRaw_congr {chan : Channel} {mask : Mask}
    (h : ∀ r ∈ reads chan mask, regs r = regs' r) :
    readRaw t regs chan mask = readRaw t regs' chan mask := by
  cases mask with
  | raw =>
      cases chan with
      | temp => exact sensorShow_congr (h _ (.head _)) (h _ (.tail _ (.head _)))
      | motion sensor axis =>
          cases sensor <;> exact sensorShow_congr (h _ (.head _)) (h _ (.tail _ (.head _)))
  | scale =>
      cases chan with
      | temp => rfl
      | motion sensor axis =>
          cases sensor <;> rw [readRaw, readRaw, scaleIndex_congr (h _ (.head _))]
  | calibbias =>
      cases chan with
      | temp => rfl
      | motion sensor axis =>
          cases sensor <;> exact sensorShow_congr (h _ (.head _)) (h _ (.tail _ (.head _)))
  | offset => cases chan <;> rfl
  | other => rfl

/-! ### What a calibration write leaves alone -/

theorem axisInd_le (axis : Axis) : axisInd axis ≤ 4 := by
  cases axis <;> decide

/-- The other attributes are read from the registers between the two groups of offsets. -/
theorem reads_between {chan : Channel} {mask : Mask} {r : ℕ} (hmask : mask ≠ .calibbias)
    (hr : r ∈ reads chan mask) : 0x19 ≤ r ∧ r < 0x77 := by
  cases mask with
  | raw =>
      cases chan with
      | temp =>
          simp only [reads, tempOutH, List.mem_cons, List.not_mem_nil, or_false] at hr
          omega
      | motion sensor axis =>
          have hind := axisInd_le axis
          cases sensor <;> simp only [reads, gyroXoutH, accelXoutH, List.mem_cons,
            List.not_mem_nil, or_false] at hr <;> omega
  | scale =>
      cases chan with
      | temp => cases hr
      | motion sensor axis =>
          cases sensor <;> simp only [reads, gyroConfig, accelConfig, List.mem_singleton] at hr <;>
            omega
  | calibbias => exact absurd rfl hmask
  | offset => cases hr
  | other => cases hr

/-- The offset registers are outside those of the measurements and scales. -/
theorem address_outside (sensor : Sensor) (axis : Axis) :
    address sensor axis + 1 < 0x19 ∨ 0x77 ≤ address sensor axis := by
  cases sensor <;> cases axis <;> decide

/-- The offset registers of two channels do not overlap. -/
theorem address_apart {sensor' : Sensor} {axis' : Axis} (h : (sensor, axis) ≠ (sensor', axis')) :
    address sensor axis + 1 < address sensor' axis' ∨
      address sensor' axis' + 1 < address sensor axis := by
  cases sensor <;> cases axis <;> cases sensor' <;> cases axis' <;>
    first
    | exact absurd rfl h
    | decide

/-- Every other attribute reads registers that the bias does not use. -/
theorem reads_apart {chan : Channel} {mask : Mask} {r : ℕ}
    (hother : (chan, mask) ≠ (.motion sensor axis, .calibbias)) (hr : r ∈ reads chan mask) :
    r ≠ address sensor axis ∧ r ≠ address sensor axis + 1 := by
  by_cases hmask : mask = .calibbias
  · subst hmask
    cases chan with
    | temp => cases hr
    | motion sensor' axis' =>
        have hne : (sensor, axis) ≠ (sensor', axis') := by
          rintro ⟨⟩
          exact hother rfl
        have hapart := address_apart hne
        simp only [reads, List.mem_cons, List.not_mem_nil, or_false] at hr
        omega
  · have hbetween := reads_between hmask hr
    have houtside := address_outside sensor axis
    omega

/-- What every register holds after a successful write. -/
theorem writeRaw_calibbias_regs
    (h : (writeRaw t regs (.motion sensor axis) val val2 .calibbias).1 = 0) (r : ℕ) :
    (writeRaw t regs (.motion sensor axis) val val2 .calibbias).2 r =
      if r = address sensor axis then (BitVec.ofInt 16 val).extractLsb' 8 8
      else if r = address sensor axis + 1 then (BitVec.ofInt 16 val).extractLsb' 0 8
      else regs r := by
  rw [writeRaw_calibbias] at h ⊢
  rcases sensorSet_cases t regs (offsetBase sensor) axis val with ⟨-, hset⟩ | ⟨-, hset⟩
  · rw [hset]
    exact Registers.bulkWrite_be16 regs _ r _
  · rw [hset] at h
    cases h

/-- Writing a bias leaves every other attribute as it reads. -/
theorem keepsReadings (sensor : Sensor) (axis : Axis) : KeepsReadings sensor axis := by
  intro t regs val val2 hdone t' chan mask hother
  refine readRaw_congr fun r hr => ?_
  obtain ⟨hhigh, hlow⟩ := reads_apart hother hr
  rw [writeRaw_calibbias_regs hdone, if_neg hhigh, if_neg hlow]

/-- A calibration write and read go to the registers of the header, and leave the others alone, for
every axis but Y and Z of the accelerometer. -/
theorem hitsOwn_iff (sensor : Sensor) (axis : Axis) :
    HitsOwn sensor axis ↔ ¬ (sensor = .accel ∧ (axis = .y ∨ axis = .z)) := by
  constructor
  · rintro h ⟨rfl, haxis⟩
    have hlow := h.sets .ok (fun _ => 0) 1 0 rfl (named .accel axis).2
    rw [writeRaw_calibbias_regs rfl] at hlow
    rcases haxis with rfl | rfl <;> revert hlow <;> decide
  · intro hgood
    have hnamed := address_named_iff.2 hgood
    refine ⟨fun t regs val val2 hdone r => ?_, keepsReadings sensor axis,
      fun t regs regs' hhigh hlow => ?_⟩
    · rw [writeRaw_calibbias_regs hdone, hnamed]
    · rw [hnamed] at hhigh hlow
      rw [readRaw_calibbias, readRaw_calibbias]
      exact sensorShow_congr hhigh hlow

/-- The offset of the Y axis of the accelerometer. -/
theorem accel_y_misses : ¬ ∀ (sensor : Sensor) (axis : Axis), HitsOwn sensor axis := by
  intro hall
  have hlow := (hall .accel .y).sets .ok (fun _ => 0) 1 0 rfl yaOffsetL
  revert hlow
  decide

end ConfigEnv.Icm20608
