/-
Module: ConfigEnv.Proofs.SensorDrivers
Layer: Proofs
Purpose: Whether the three drivers of the sensor report the same numbers. All read the same two
  registers for a quantity, the high byte first. The character drivers put the bytes together
  without a sign, the IIO driver with one; so they agree exactly on the numbers whose top bit is
  clear.
Trusted boundary: none
Main exports: dataReg, wordIndex, Reports, DriversAgree, readRaw_raw, attr_ofData, reports_iff,
  drivers_agree_iff
Open obligations: none
-/
import ConfigEnv.Icm20608.CharDriver

namespace ConfigEnv.Icm20608

open Registers (Bank bulkRead be16 word32Bytes word32At)

variable {regs : Bank u8} {chan : Channel} {v : ℤ}

/-! ### Reports -/

/-- The high data register of a quantity. -/
def dataReg : Channel → ℕ
  | .motion .anglVel axis => gyroXoutH + axisInd axis
  | .motion .accel axis => accelXoutH + axisInd axis
  | .temp => tempOutH

/-- The place of a quantity among the numbers that are read. -/
def wordIndex : Channel → ℕ
  | .motion .anglVel .x => 0
  | .motion .anglVel .y => 1
  | .motion .anglVel .z => 2
  | .motion .accel .x => 3
  | .motion .accel .y => 4
  | .motion .accel .z => 5
  | .temp => 6

/-- A character driver reports `v` in sysfs, and to every reader to whom the word is copied. -/
structure Reports (shows : Dev → Channel → ℤ) (reads : Dev → ℕ → ℕ → ℤ × List u8) (chan : Channel)
    (v : ℤ) : Prop where
  shown : ∀ dev, shows dev chan = v
  read : ∀ dev cnt left, 4 * (wordIndex chan + 1) ≤ min cnt 28 - left →
    word32At (reads dev cnt left).2 (wordIndex chan) = some v

/-- The signed number of the two registers is what the IIO driver reads, and what the character
drivers report. -/
def DriversAgree (regs : Bank u8) (chan : Channel) : Prop :=
  ∃ v, v = (be16 (regs (dataReg chan)) (regs (dataReg chan + 1))).toInt ∧
    readRaw .ok regs chan .raw = .ok (.int v) ∧
    Reports (Spi.attrShow .ok regs) (Spi.read .ok regs) chan v ∧
    Reports (Regmap.attrShow .ok regs) (Regmap.read .ok regs) chan v

/-! ### What the drivers read -/

/-- The IIO driver reads a measurement as a signed word. -/
theorem readRaw_raw (regs : Bank u8) (chan : Channel) : readRaw .ok regs chan .raw =
    .ok (.int (be16 (regs (dataReg chan)) (regs (dataReg chan + 1))).toInt) := by
  cases chan with
  | temp => rfl
  | motion sensor axis => cases sensor <;> rfl

/-- The number of a quantity without its sign. -/
def unsignedWord (regs : Bank u8) (chan : Channel) : ℕ :=
  (regs (dataReg chan)).toNat <<< 8 ||| (regs (dataReg chan + 1)).toNat

/-- The character drivers read a measurement as an unsigned word. -/
theorem attr_ofData (regs : Bank u8) (chan : Channel) :
    (Dev.ofData (bulkRead regs accelXoutH 14)).attr chan = unsignedWord regs chan := by
  cases chan with
  | temp => rfl
  | motion sensor axis => cases sensor <;> cases axis <;> rfl

/-- The words that `read` copies are those of the attributes. -/
theorem words_attr (dev : Dev) (chan : Channel) :
    dev.words[wordIndex chan]? = some (dev.attr chan) := by
  cases chan with
  | temp => rfl
  | motion sensor axis => cases sensor <;> cases axis <;> rfl

theorem unsignedWord_lt (regs : Bank u8) (chan : Channel) : unsignedWord regs chan < 65536 := by
  have hnat : (be16 (regs (dataReg chan)) (regs (dataReg chan + 1))).toNat =
      unsignedWord regs chan := BitVec.toNat_append _ _
  rw [← hnat]
  exact BitVec.isLt _

/-- A character driver that fills its numbers from the registers reports them without a sign. -/
theorem reports_iff {shows : Dev → Channel → ℤ} {reads : Dev → ℕ → ℕ → ℤ × List u8}
    (hshows : ∀ dev, shows dev = (Dev.ofData (bulkRead regs accelXoutH 14)).attr)
    (hreads : ∀ dev, reads dev = copyToUser (Dev.ofData (bulkRead regs accelXoutH 14))) :
    Reports shows reads chan v ↔ (unsignedWord regs chan : ℤ) = v := by
  constructor
  · intro h
    rw [← h.shown (.ofData []), hshows, attr_ofData]
  · rintro rfl
    refine ⟨fun dev => ?_, fun dev cnt left hcopied => ?_⟩
    · rw [hshows, attr_ofData]
    · have hfits : (BitVec.ofInt 32 (unsignedWord regs chan)).toInt = unsignedWord regs chan := by
        have hlt := unsignedWord_lt regs chan
        rw [BitVec.toInt_ofInt, Int.bmod_def]
        split <;> omega
      rw [hreads, copyToUser, Registers.word32At_flatMap _ hcopied, words_attr, attr_ofData,
        Option.map_some, hfits]

/-- For each quantity the three drivers report the same number exactly if its top bit is clear. -/
theorem drivers_agree_iff (regs : Bank u8) (chan : Channel) :
    DriversAgree regs chan ↔ (regs (dataReg chan)).toNat < 0x80 := by
  rw [← Registers.toInt_be16_iff (regs (dataReg chan)) (regs (dataReg chan + 1))]
  constructor
  · rintro ⟨v, rfl, -, hspi, -⟩
    exact (reports_iff (fun _ => rfl) fun _ => rfl).1 hspi
  · intro h
    exact ⟨_, rfl, readRaw_raw regs chan, (reports_iff (fun _ => rfl) fun _ => rfl).2 h,
      (reports_iff (fun _ => rfl) fun _ => rfl).2 h⟩

/-- Minus one in every register. -/
theorem negative_differs : ¬ ∀ (regs : Bank u8) (chan : Channel), DriversAgree regs chan := by
  intro hall
  obtain ⟨v, hv, -, hspi, -⟩ := hall (fun _ => 0xFF) .temp
  have hshown := hspi.shown (.ofData [])
  rw [hv] at hshown
  revert hshown
  decide

end ConfigEnv.Icm20608
