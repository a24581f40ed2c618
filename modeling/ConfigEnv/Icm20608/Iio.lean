/-
Module: ConfigEnv.Icm20608.Iio
Layer: Icm20608
Purpose: The IIO driver of the ICM20608: the attributes of its channels in a bank of byte registers.
  A channel is the temperature, or an axis of the gyroscope or of the accelerometer. A call makes at
  most one transfer; when the bus fails it, a write changes no register. The triggered buffer, the
  locks and the probing of the device are left out.
Trusted boundary: the meaning of regmap_read, regmap_write, regmap_bulk_read and regmap_bulk_write
Main exports: u8, Axis, Axis.mod, Sensor, Channel, Mask, Transfer, Value, gyroScale, accelScale,
  sensorSet, sensorShow, readChannelData, writeScale, writeGyroScale, writeAccelScale, readRaw,
  writeRaw
Open obligations: none
-/
import ConfigEnv.Lib.Registers

namespace ConfigEnv.Icm20608

open Registers (Bank bulkWrite be16 be16Bytes)

/-- A byte of the bus. -/
abbrev u8 := BitVec 8

/-! ### Registers -/

/-- `ICM20_XG_OFFS_USRH`, the first register of the gyroscope's offset on X. -/
def xgOffsUsrh : ℕ := 0x13

/-- `ICM20_XG_OFFS_USRL`. -/
def xgOffsUsrl : ℕ := 0x14

/-- `ICM20_YG_OFFS_USRH`. -/
def ygOffsUsrh : ℕ := 0x15

/-- `ICM20_YG_OFFS_USRL`. -/
def ygOffsUsrl : ℕ := 0x16

/-- `ICM20_ZG_OFFS_USRH`. -/
def zgOffsUsrh : ℕ := 0x17

/-- `ICM20_ZG_OFFS_USRL`. -/
def zgOffsUsrl : ℕ := 0x18

/-- `ICM20_GYRO_CONFIG`; bits 3 and 4 select the scale. -/
def gyroConfig : ℕ := 0x1B

/-- `ICM20_ACCEL_CONFIG`, laid out in the same way. -/
def accelConfig : ℕ := 0x1C

/-- `ICM20_ACCEL_XOUT_H`, the first of the 14 data registers. -/
def accelXoutH : ℕ := 0x3B

/-- `ICM20_TEMP_OUT_H`. -/
def tempOutH : ℕ := 0x41

/-- `ICM20_GYRO_XOUT_H`. -/
def gyroXoutH : ℕ := 0x43

/-- `ICM20_XA_OFFSET_H`. Between the offsets of two axes of the accelerometer lies one more
register. -/
def xaOffsetH : ℕ := 0x77

/-- `ICM20_XA_OFFSET_L`. -/
def xaOffsetL : ℕ := 0x78

/-- `ICM20_YA_OFFSET_H`. -/
def yaOffsetH : ℕ := 0x7A

/-- `ICM20_YA_OFFSET_L`. -/
def yaOffsetL : ℕ := 0x7B

/-- `ICM20_ZA_OFFSET_H`. -/
def zaOffsetH : ℕ := 0x7D

/-- `ICM20_ZA_OFFSET_L`. -/
def zaOffsetL : ℕ := 0x7E

/-! ### Channels -/

/-- The three axes of a sensor. -/
inductive Axis where
  | x
  | y
  | z
deriving DecidableEq, Repr

/-- `IIO_MOD_X` and the modifiers that follow it. -/
def iioModX : ℕ := 1

/-- The modifier of a channel for an axis. -/
def Axis.mod : Axis → ℕ
  | .x => iioModX
  | .y => iioModX + 1
  | .z => iioModX + 2

/-- `IIO_ANGL_VEL` and `IIO_ACCEL`. -/
inductive Sensor where
  | anglVel
  | accel
deriving DecidableEq, Repr

/-- The seven channels of the driver. -/
inductive Channel where
  | temp
  | motion (sensor : Sensor) (axis : Axis)
deriving DecidableEq, Repr

/-- The attributes that `read_raw` and `write_raw` tell apart. -/
inductive Mask where
  | raw
  | scale
  | offset
  | calibbias
  | other
deriving DecidableEq, Repr

/-- Values with the format that says what the second part counts. -/
inductive Value where
  | int (val : ℤ)
  | intPlusMicro (val val2 : ℤ)
  | intPlusNano (val val2 : ℤ)
deriving DecidableEq, Repr

/-- `-EINVAL`. -/
def einval : ℤ := -22

/-! ### Transfers -/

/-- How a transfer ends: what regmap returns, and what is in the variable that a read which fails
does not set. -/
structure Transfer where
  result : ℤ
  data : u8
deriving DecidableEq, Repr

/-- A transfer that succeeds. -/
def Transfer.ok : Transfer := { result := 0, data := 0 }

/-- `regmap_write` of one register. -/
def regmapWrite (t : Transfer) (regs : Bank u8) (reg : ℕ) (val : u8) : ℤ × Bank u8 :=
  if t.result = 0 then (0, bulkWrite regs reg [val]) else (t.result, regs)

/-- `regmap_bulk_write` of neighbouring registers. -/
def regmapBulkWrite (t : Transfer) (regs : Bank u8) (reg : ℕ) (val : List u8) : ℤ × Bank u8 :=
  if t.result = 0 then (0, bulkWrite regs reg val) else (t.result, regs)

/-- The code that the read returns is not looked at. -/
def readOnereg (t : Transfer) (regs : Bank u8) (reg : ℕ) : u8 :=
  if t.result = 0 then regs reg else t.data

/-! ### The offsets and the data -/

/-- `ind` of `icm20608_sensor_show` and `icm20608_sensor_set`: two registers for an axis. -/
def axisInd (axis : Axis) : ℕ := (axis.mod - iioModX) * 2

/-- `icm20608_sensor_set`. -/
def sensorSet (t : Transfer) (regs : Bank u8) (reg : ℕ) (axis : Axis) (val : ℤ) : ℤ × Bank u8 :=
  let d := be16Bytes (BitVec.ofInt 16 val)
  let w := regmapBulkWrite t regs (reg + axisInd axis) d
  if w.1 ≠ 0 then (einval, w.2) else (0, w.2)

/-- `icm20608_sensor_show`. -/
def sensorShow (t : Transfer) (regs : Bank u8) (reg : ℕ) (axis : Axis) : Except ℤ Value :=
  if t.result = 0 then
    .ok (.int (be16 (regs (reg + axisInd axis)) (regs (reg + axisInd axis + 1))).toInt)
  else .error einval

/-- `icm20608_read_channel_data`. -/
def readChannelData (t : Transfer) (regs : Bank u8) : Channel → Except ℤ Value
  | .motion .anglVel axis => sensorShow t regs gyroXoutH axis
  | .motion .accel axis => sensorShow t regs accelXoutH axis
  | .temp => sensorShow t regs tempOutH .x

/-! ### The scales -/

/-- `gyro_scale_icm20608`, in millionths. -/
def gyroScale : List ℤ := [7629, 15258, 30517, 61035]

/-- `accel_scale_icm20608`, in billionths. -/
def accelScale : List ℤ := [61035, 122070, 244140, 488281]

/-- The loop over a table of scales; the place of `val` goes into the register. -/
def writeScale (table : List ℤ) (reg : ℕ) (t : Transfer) (regs : Bank u8) (val : ℤ) :
    ℤ × Bank u8 :=
  match table.findIdx? (· = val) with
  | some i => regmapWrite t regs reg (BitVec.ofNat 8 (i <<< 3))
  | none => (einval, regs)

/-- `icm20608_write_gyro_scale`. -/
def writeGyroScale : Transfer → Bank u8 → ℤ → ℤ × Bank u8 := writeScale gyroScale gyroConfig

/-- `icm20608_write_accel_scale`. -/
def writeAccelScale : Transfer → Bank u8 → ℤ → ℤ × Bank u8 := writeScale accelScale accelConfig

/-- The place in the table that the register holds. -/
def scaleIndex (t : Transfer) (regs : Bank u8) (reg : ℕ) : ℕ :=
  ((readOnereg t regs reg &&& 0x18#8) >>> 3).toNat

/-- `ICM20608_TEMP_SCALE`. -/
def tempScale : ℤ := 326800000

/-- `ICM20608_TEMP_OFFSET`. -/
def tempOffset : ℤ := 0

/-! ### Attributes -/

/-- `icm20608_read_raw`: the value with its format, or the code. -/
def readRaw (t : Transfer) (regs : Bank u8) (chan : Channel) : Mask → Except ℤ Value
  | .raw => readChannelData t regs chan
  | .scale =>
      match chan with
      | .motion .anglVel _ =>
          .ok (.intPlusMicro 0 (gyroScale.getD (scaleIndex t regs gyroConfig) 0))
      | .motion .accel _ =>
          .ok (.intPlusNano 0 (accelScale.getD (scaleIndex t regs accelConfig) 0))
      | .temp => .ok (.intPlusMicro (tempScale / 1000000) (tempScale % 1000000))
  | .offset =>
      match chan with
      | .temp => .ok (.int tempOffset)
      | .motion _ _ => .error einval
  | .calibbias =>
      match chan with
      | .motion .anglVel axis => sensorShow t regs xgOffsUsrh axis
      | .motion .accel axis => sensorShow t regs xaOffsetH axis
      | .temp => .error einval
  | .other => .error einval

/-- `icm20608_write_raw`: the code that is returned, and the registers afterwards. -/
def writeRaw (t : Transfer) (regs : Bank u8) (chan : Channel) (val val2 : ℤ) : Mask → ℤ × Bank u8
  | .scale =>
      match chan with
      | .motion .anglVel _ => writeGyroScale t regs val2
      | .motion .accel _ => writeAccelScale t regs val2
      | .temp => (einval, regs)
  | .calibbias =>
      match chan with
      | .motion .anglVel axis => sensorSet t regs xgOffsUsrh axis val
      | .motion .accel axis => sensorSet t regs xaOffsetH axis val
      | .temp => (einval, regs)
  | _ => (einval, regs)

end ConfigEnv.Icm20608
