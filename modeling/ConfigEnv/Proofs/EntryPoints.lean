/-
Module: ConfigEnv.Proofs.EntryPoints
Layer: Proofs
Purpose: Whether what a driver offers to users and to the hardware rests on something that is still
  there. An attribute, a device file, an interrupt can be used as long as it is registered, also
  while probe and remove go on, and its function reaches for something else. The places at which an
  attempt holds the one without the other are listed, for the entry points of the drivers and what
  their functions use; in every run they are the only ones.
Trusted boundary: none
Main exports: Module.entries, Module.gap, entry_gaps, entry_gaps_button
Open obligations: none
-/
import ConfigEnv.Drivers.Probe

namespace ConfigEnv.Drivers

open Machine Attach

/-- The entry points of a module, each with one thing that its function uses. The read function of
the regmap driver needs no client. -/
def Module.entries : Module → List (Res × Res)
  | .icm20608Spi | .ap3216c => [(.sysfsGroup, .client), (.cdev, .client)]
  | .icm20608Regmap => [(.sysfsGroup, .client), (.sysfsGroup, .regmap), (.cdev, .regmap)]
  | .icm20608Iio => [(.iioDevice, .regmap)]
  | .inputButton => [(.irq, .inputDev), (.irq, .gpio), (.inputRegistered, .inputDev)]
  | .polledButton => [(.inputRegistered, .inputDev), (.inputRegistered, .gpio)]
  | .fakeEth => [(.netRegistered, .netDev)]
  | .kobjAttribute => [(.kobject, .exampleData)]
  | .dummyChar | .fakePwm | .kobjectExample | .deviceIns => []

/-- The places where the first of two things is held without the second. -/
def Module.gap (m : Module) (entry : Res × Res) : Place Bool → Bool
  | .probing got i =>
      match m, entry with
      -- from `cdev_add` up to the assignment of the client
      | .icm20608Spi, (.cdev, .client) => 2 ≤ i ∧ i ≤ 5
      | .ap3216c, (.cdev, .client) => 3 ≤ i ∧ i ≤ 5
      -- polled without the GPIO that `gpiod_get` has not given
      | .polledButton, (.inputRegistered, .gpio) => got = false ∧ 4 ≤ i
      | _, _ => false
  | .undoing _ i j _ =>
      match m, entry with
      -- from a failure before the assignment down to `cdev_del`
      | .icm20608Spi, (.cdev, .client) => j + 2 ≤ i ∧ i ≤ 4
      | .ap3216c, (.cdev, .client) => j + 3 ≤ i ∧ i ≤ 4
      -- `input_free_device` on a device that stays registered
      | .inputButton, (.inputRegistered, .inputDev) => i = 4 ∧ j = 2
      | _, _ => false
  | .removing got j =>
      match m, entry with
      -- `regmap_exit` comes before the device is unregistered
      | .icm20608Iio, (.iioDevice, .regmap) => j = 1
      -- `input_unregister_device` frees the device before the interrupt
      | .inputButton, (.irq, .inputDev) => j = 2
      | .polledButton, (.inputRegistered, .gpio) => got = false ∧ j = 0
      | _, _ => false
  | .attached got =>
      match m, entry with
      | .polledButton, (.inputRegistered, .gpio) => got = false
      | _, _ => false
  | .detached => false

/-- The first of two things is held at a place, and the second is not. -/
def GapAt (D : Bool → Driver Res) (place : Place Bool) (entry : Res × Res) : Prop :=
  entry.1 ∈ heldAt D place ∧ entry.2 ∉ heldAt D place

instance (D : Bool → Driver Res) (place : Place Bool) (entry : Res × Res) :
    Decidable (GapAt D place entry) :=
  inferInstanceAs (Decidable (_ ∧ _))

/-- While probing, the listed places are the gaps. -/
theorem gap_probing (m : Module) (v : Bool) : ∀ entry ∈ m.entries,
    ∀ i ≤ (m.driver v).probe.length,
      GapAt m.driver (.probing v i) entry ↔ m.gap entry (.probing v i) = true := by
  cases m <;> cases v <;> decide

/-- While a failed probe is undone, the listed places are the gaps. -/
theorem gap_undoing (m : Module) (v : Bool) : ∀ entry ∈ m.entries,
    ∀ i < (m.driver v).probe.length, (m.driver v).fails i = true →
      ∀ j ≤ ((m.driver v).undo i).length,
        GapAt m.driver (.undoing v i j 0) entry ↔ m.gap entry (.undoing v i j 0) = true := by
  cases m <;> cases v <;> decide

/-- When attached, the listed places are the gaps. -/
theorem gap_attached (m : Module) (v : Bool) : ∀ entry ∈ m.entries,
    GapAt m.driver (.attached v) entry ↔ m.gap entry (.attached v) = true := by
  cases m <;> cases v <;> decide

/-- While removing, the listed places are the gaps. -/
theorem gap_removing (m : Module) (v : Bool) : ∀ entry ∈ m.entries,
    ∀ j ≤ (m.driver v).remove.length,
      GapAt m.driver (.removing v j) entry ↔ m.gap entry (.removing v j) = true := by
  cases m <;> cases v <;> decide

/-- The listed places are the gaps, at every place of a driver. -/
theorem gapAt_iff (m : Module) {entry : Res × Res} (hentry : entry ∈ m.entries)
    {place : Place Bool} (h : place.Valid m.driver) :
    GapAt m.driver place entry ↔ m.gap entry place = true := by
  cases place with
  | detached =>
      constructor
      · rintro ⟨hheld, -⟩
        exact absurd hheld (Multiset.notMem_zero _)
      · intro hgap
        cases hgap
  | probing v i => exact gap_probing m v entry hentry i h
  | undoing v i j ret =>
      obtain ⟨hret, hj⟩ := h
      obtain ⟨hlt, hfails⟩ := hret.fails
      exact gap_undoing m v entry hentry i hlt hfails j hj
  | attached v => exact gap_attached m v entry hentry
  | removing v j => exact gap_removing m v entry hentry j h

/-- In any run an entry point of a module is there without what its function uses at exactly the
places that are listed. -/
theorem entry_gaps (m : Module) (t : List (Event Bool × Option (Verdict Bool)))
    (s : State Res Bool) (hrun : Run m.machine .start t s) :
    ∀ entry ∈ m.entries,
      (entry.1 ∈ s.held ∧ entry.2 ∉ s.held ↔ m.gap entry s.place = true) := by
  intro entry hentry
  rw [(balanced hrun).held]
  exact gapAt_iff m hentry (place_valid hrun)

/-- A button is attached, and taken away as far as `input_unregister_device`. -/
def buttonHalfRemoved : List (Event Bool × Option (Verdict Bool)) :=
  [(.probe false, none), (.ok, none), (.ok, none), (.ok, none), (.ok, none), (.ok, none),
    (.ok, none), (.done, none), (.remove, none), (.release, none), (.release, none)]

/-- Its interrupt is still there. -/
theorem entry_gaps_button :
    ∃ s, Run (Module.machine .inputButton) .start buttonHalfRemoved s ∧
      Res.irq ∈ s.held ∧ Res.inputDev ∉ s.held := by
  have hrun : Run (Module.machine .inputButton) .start buttonHalfRemoved _ :=
    .cons (.probe false rfl) (.cons (.ok rfl rfl) (.cons (.ok rfl rfl) (.cons (.ok rfl rfl)
      (.cons (.ok rfl rfl) (.cons (.ok rfl rfl) (.cons (.ok rfl rfl) (.cons (.attached rfl rfl)
        (.cons (.remove rfl) (.cons (.take rfl rfl) (.cons (.take rfl rfl) (.nil _)))))))))))
  refine ⟨_, hrun, ?_⟩
  exact (entry_gaps .inputButton buttonHalfRemoved _ hrun _ List.mem_cons_self).2 rfl

end ConfigEnv.Drivers
