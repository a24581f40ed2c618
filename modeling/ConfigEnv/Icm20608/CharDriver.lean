/-
Module: ConfigEnv.Icm20608.CharDriver
Layer: Icm20608
Purpose: The two character drivers of the ICM20608, one over SPI messages of its own and one over
  regmap. Both read the 14 data registers, keep the seven numbers in the device, and report them by
  read and in sysfs; they differ in the transfer and in the code that it returns. A transfer that
  fails leaves the numbers of the last one. Opening and probing the device are left out.
Trusted boundary: the meaning of spi_sync, regmap_bulk_read and copy_to_user
Main exports: Dev, Dev.ofData, Dev.attr, Dev.words, copyToUser, Spi.readRegs, Spi.readdata,
  Spi.attrShow, Spi.read, Regmap.readdata, Regmap.attrShow, Regmap.read
Open obligations: none
-/
import ConfigEnv.Icm20608.Iio

namespace ConfigEnv.Icm20608

open Registers (Bank bulkRead word32Bytes)

/-! ### The device -/

/-- The numbers of `struct icm20608_dev`. -/
structure Dev where
  gx : ℤ
  gy : ℤ
  gz : ℤ
  ax : ℤ
  ay : ℤ
  az : ℤ
  temp : ℤ
deriving DecidableEq, Repr

/-- `(data[i] << 8) | data[i + 1]`. -/
def dataWord (data : List u8) (i : ℕ) : ℤ :=
  ((data.getD i 0).toNat <<< 8 ||| (data.getD (i + 1) 0).toNat : ℕ)

/-- The numbers out of the 14 bytes, in the order of the registers. -/
def Dev.ofData (data : List u8) : Dev where
  ax := dataWord data 0
  ay := dataWord data 2
  az := dataWord data 4
  temp := dataWord data 6
  gx := dataWord data 8
  gy := dataWord data 10
  gz := dataWord data 12

/-- The number of an attribute; each attribute is one channel. -/
def Dev.attr (dev : Dev) : Channel → ℤ
  | .motion .anglVel .x => dev.gx
  | .motion .anglVel .y => dev.gy
  | .motion .anglVel .z => dev.gz
  | .motion .accel .x => dev.ax
  | .motion .accel .y => dev.ay
  | .motion .accel .z => dev.az
  | .temp => dev.temp

/-- `data` of `icm20608_read`. -/
def Dev.words (dev : Dev) : List ℤ := [dev.gx, dev.gy, dev.gz, dev.ax, dev.ay, dev.az, dev.temp]

/-- The count that is returned and the bytes that arrive, when `left` of them cannot be copied. -/
def copyToUser (dev : Dev) (cnt left : ℕ) : ℤ × List u8 :=
  let cnt := min cnt 28
  (cnt - left, (dev.words.flatMap word32Bytes).take (cnt - left))

/-! ### Over SPI -/

namespace Spi

/-- The first byte that is sent is the register with the read flag, which the device takes off. -/
def readRegs (t : Transfer) (regs : Bank u8) (reg len : ℕ) : ℤ × List u8 :=
  let len := if 64 ≤ len then 63 else len
  let sent : u8 := BitVec.ofNat 8 reg ||| 0x80
  if t.result < 0 then (t.result, []) else (len, bulkRead regs (sent &&& 0x7F).toNat len)

/-- `icm20608_readdata`: what the read of the registers returns, which is positive when it succeeds.
-/
def readdata (t : Transfer) (regs : Bank u8) (dev : Dev) : ℤ × Dev :=
  let r := readRegs t regs accelXoutH 14
  if 0 < r.1 then (r.1, .ofData r.2) else (r.1, dev)

/-- The number that is printed; the code of the transfer is not looked at. -/
def attrShow (t : Transfer) (regs : Bank u8) (dev : Dev) (attr : Channel) : ℤ :=
  (readdata t regs dev).2.attr attr

/-- `icm20608_read`. -/
def read (t : Transfer) (regs : Bank u8) (dev : Dev) (cnt left : ℕ) : ℤ × List u8 :=
  let r := readdata t regs dev
  if 0 < r.1 then copyToUser r.2 cnt left else (r.1, [])

end Spi

/-! ### Over regmap -/

namespace Regmap

/-- `icm20608_readdata`: 0, or the code of regmap. -/
def readdata (t : Transfer) (regs : Bank u8) (dev : Dev) : ℤ × Dev :=
  if t.result = 0 then (0, .ofData (bulkRead regs accelXoutH 14)) else (t.result, dev)

/-- `icm20608_show`. -/
def attrShow (t : Transfer) (regs : Bank u8) (dev : Dev) (attr : Channel) : ℤ :=
  (readdata t regs dev).2.attr attr

/-- `icm20608_read`, which asks for the code 0. -/
def read (t : Transfer) (regs : Bank u8) (dev : Dev) (cnt left : ℕ) : ℤ × List u8 :=
  let r := readdata t regs dev
  if r.1 = 0 then copyToUser r.2 cnt left else (r.1, [])

end Regmap

end ConfigEnv.Icm20608
