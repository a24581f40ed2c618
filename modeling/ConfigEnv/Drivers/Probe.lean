/-
Module: ConfigEnv.Drivers.Probe
Layer: Drivers
Purpose: The probe and remove functions of the kernel drivers, and the init and exit functions of
  the kernel modules that are no drivers, as the order in which they gain and release things. The
  labels of a ladder of `goto`s are lists, each one the release behind the label in front of the
  next list. What `devm_` functions gain is taken back by the kernel and is not listed, nor are the
  settings of the hardware. `client` is the pointer to the device that the functions of the driver
  work on; nothing releases it, and it is worth nothing once the device is detached. Where a call
  goes unchecked the variant says whether it has succeeded; `alloc_etherdev` and
  `platform_device_alloc` have, since the pointer is written through at once.
Trusted boundary: what the functions of the kernel gain and release, and that their codes are
  negative
Main exports: Res, Icm20608Spi.driver, Icm20608Regmap.driver, Icm20608Iio.driver, Ap3216c.driver,
  DummyChar.driver, InputButton.driver, PolledButton.driver, FakeEth.driver, FakePwm.driver,
  KobjAttribute.driver, KobjectExample.driver, DeviceIns.driver, Module, Module.driver
Open obligations: none
-/
import ConfigEnv.Lib.Attach

namespace ConfigEnv.Drivers

open Attach

/-- What the functions gain and release. -/
inductive Res where
  | client
  | chrdevRegion
  | cdev
  | devClass
  | device
  | sysfsGroup
  | regmap
  | iioDevice
  | inputDev
  | inputRegistered
  | gpio
  | irq
  | netDev
  | netRegistered
  | pwmChip
  | exampleData
  | kobject
  | platformDev
  | platformAdded
deriving DecidableEq, Repr

/-- The kernel forgets the client when it detaches the device. -/
def managed (r : Res) : Bool := r = .client

/-- `EIO`. -/
abbrev eio : Int := 5

/-- `ENOMEM`. -/
abbrev enomem : Int := 12

/-- `ENODEV`. -/
abbrev enodev : Int := 19

namespace Icm20608Spi

/-- What follows the label `fail_cdev_add`. -/
def failCdevAdd : List Res := [.chrdevRegion]

/-- What follows the label `fail_class_create`. -/
def failClassCreate : List Res := .cdev :: failCdevAdd

/-- What follows the label `fail_device_create`. -/
def failDeviceCreate : List Res := .devClass :: failClassCreate

/-- What follows the label above, where a call behind `device_create` fails. -/
def failDevice : List Res := .device :: failDeviceCreate

/-- spi/icm-20608/icm20608.c. -/
def driver : Driver Res where
  probe := [
    .call [.chrdevRegion] [] none,
    .call [.cdev] failCdevAdd none,
    .call [.devClass] failClassCreate none,
    .call [.device] failDeviceCreate none,
    .call [] failDevice none, -- spi_setup
    .set [.client],
    .call [.sysfsGroup] failDevice none]
  remove := [.sysfsGroup, .device, .devClass, .cdev, .chrdevRegion]
  managed := managed

end Icm20608Spi

namespace Icm20608Regmap

/-- What follows the label `fail_cdev_add`. -/
def failCdevAdd : List Res := [.chrdevRegion, .regmap]

/-- What follows the label `fail_class_create`. -/
def failClassCreate : List Res := .cdev :: failCdevAdd

/-- What follows the label `fail_device_create`. -/
def failDeviceCreate : List Res := .devClass :: failClassCreate

/-- What follows the label above, where a call behind `device_create` fails. -/
def failDevice : List Res := .device :: failDeviceCreate

/-- regmap/icm-20608/icm20608.c. The call for the region returns where it fails. -/
def driver : Driver Res where
  probe := [
    .call [.regmap] [] none,
    .call [.chrdevRegion] [] none,
    .call [.cdev] failCdevAdd none,
    .call [.devClass] failClassCreate none,
    .call [.device] failDeviceCreate none,
    .call [] failDevice none, -- spi_setup
    .set [.client],
    .call [.sysfsGroup] failDevice none]
  remove := [.sysfsGroup, .device, .devClass, .cdev, .chrdevRegion, .regmap]
  managed := managed

end Icm20608Regmap

namespace Icm20608Iio

/-- The three labels stand at the same place. -/
def errRegmapInit : List Res := [.iioDevice]

/-- iio/icm20608/icm20608.c. -/
def driver : Driver Res where
  probe := [
    .call [] [] (some (-enomem)), -- devm_iio_device_alloc
    .call [.regmap] errRegmapInit none,
    .call [] errRegmapInit (some (-enomem)), -- devm_iio_trigger_alloc
    .call [.iioDevice] errRegmapInit none,
    .set [.client]]
  remove := [.regmap, .iioDevice]
  managed := managed

end Icm20608Iio

namespace Ap3216c

/-- What follows the label `fail_cdev_add`. -/
def failCdevAdd : List Res := [.chrdevRegion]

/-- What follows the label `fail_class_create`. -/
def failClassCreate : List Res := .cdev :: failCdevAdd

/-- What follows the label `fail_device_create`. -/
def failDeviceCreate : List Res := .devClass :: failClassCreate

/-- What follows the label above, where a call behind `device_create` fails. -/
def failDevice : List Res := .device :: failDeviceCreate

/-- i2c/ap3216c/ap3216c.c. -/
def driver : Driver Res where
  probe := [
    .call [] [] (some (-eio)), -- i2c_check_functionality
    .call [.chrdevRegion] [] none,
    .call [.cdev] failCdevAdd none,
    .call [.devClass] failClassCreate none,
    .call [.device] failDeviceCreate none,
    .set [.client],
    .call [] failDevice (some (-1)), -- the two writes to the system register
    .call [] failDevice (some (-1)),
    .call [.sysfsGroup] failDevice none]
  remove := [.sysfsGroup, .device, .devClass, .cdev, .chrdevRegion]
  managed := managed

end Ap3216c

/-- chardev/dummy_char/dummy-char.c and platform_driver/dummy/platform-dummy-char.c, whose functions
are the same. `cdev_add` goes unchecked. -/
def DummyChar.driver (added : Bool) : Driver Res where
  probe := [
    .call [.chrdevRegion] [] none,
    .call [.devClass] [.chrdevRegion] none,
    .set (if added then [.cdev] else []),
    .call [.device] [.devClass, .chrdevRegion] (some (-1))]
  remove := [.chrdevRegion, .device, .cdev, .devClass]
  managed := managed

/-- input/input-button.c. `input_unregister_device` frees the device as well. -/
def InputButton.driver : Driver Res where
  probe := [
    .call [] [] (some (-enomem)), -- devm_kzalloc
    .call [.inputDev] [] (some (-enomem)),
    .call [.gpio] [] (some (-enodev)),
    .call [.inputRegistered] [.inputDev] none,
    .call [.irq] [.gpio, .inputDev] none,
    .set [.client]]
  remove := [.inputRegistered, .inputDev, .irq, .gpio]
  managed := managed

/-- input/input-polled-button.c. `gpiod_get` goes unchecked. -/
def PolledButton.driver (got : Bool) : Driver Res where
  probe := [
    .call [] [] (some (-enomem)), -- devm_kzalloc
    .call [.inputDev] [] (some (-enomem)),
    .set (if got then [.gpio] else []),
    .call [.inputRegistered] [.inputDev] none,
    .set [.client]]
  remove := [.inputRegistered, .gpio]
  managed := managed

/-- net/fake-eth.c. -/
def FakeEth.driver : Driver Res where
  probe := [
    .call [] [] (some (-enomem)), -- devm_kzalloc
    .set [.netDev],
    .call [.netRegistered] [] none,
    .set [.client]]
  remove := [.netRegistered, .netDev]
  managed := managed

/-- pwm/fake-pwm.c. -/
def FakePwm.driver : Driver Res where
  probe := [
    .call [] [] (some (-enomem)), -- devm_kzalloc
    .set [.client],
    .call [.pwmChip] [] none]
  remove := [.pwmChip]
  managed := managed

/-- sysfs/kobj_attribute_example.c. -/
def KobjAttribute.driver : Driver Res where
  probe := [
    .call [.exampleData] [] (some (-enomem)),
    .call [.kobject] [] (some (-enomem))]
  remove := [.kobject, .exampleData]
  managed := managed

/-- sysfs/kobject_example.c. -/
def KobjectExample.driver : Driver Res where
  probe := [.call [.kobject] [] (some (-enomem))]
  remove := [.kobject]
  managed := managed

/-- The modules that add a platform device: eth-ins.c, polled-ins.c, pwm-ins.c, rtc-ins.c and
platform-dummy-ins.c. `platform_device_add` goes unchecked. -/
def DeviceIns.driver (added : Bool) : Driver Res where
  probe := [
    .set [.platformDev],
    .set (if added then [.platformAdded] else [])]
  remove := [.platformDev]
  managed := managed

/-- The modules that are modelled; the five that add a platform device are one. The simple character
device, the example with a kset, the modules around gpio and kernel_helper_function, and the clock
that is only registered are left out. -/
inductive Module where
  | icm20608Spi
  | icm20608Regmap
  | icm20608Iio
  | ap3216c
  | dummyChar
  | inputButton
  | polledButton
  | fakeEth
  | fakePwm
  | kobjAttribute
  | kobjectExample
  | deviceIns
deriving DecidableEq, Repr

/-- The functions of a module; the variant is the result of its unchecked call. -/
def Module.driver : Module → Bool → Driver Res
  | .icm20608Spi, _ => Icm20608Spi.driver
  | .icm20608Regmap, _ => Icm20608Regmap.driver
  | .icm20608Iio, _ => Icm20608Iio.driver
  | .ap3216c, _ => Ap3216c.driver
  | .dummyChar, added => DummyChar.driver added
  | .inputButton, _ => InputButton.driver
  | .polledButton, got => PolledButton.driver got
  | .fakeEth, _ => FakeEth.driver
  | .fakePwm, _ => FakePwm.driver
  | .kobjAttribute, _ => KobjAttribute.driver
  | .kobjectExample, _ => KobjectExample.driver
  | .deviceIns, added => DeviceIns.driver added

/-- A module on one device. -/
abbrev Module.machine (m : Module) :
    Machine.Step (State Res Bool) (Event Bool) (Option (Verdict Bool)) :=
  Step m.driver

end ConfigEnv.Drivers
