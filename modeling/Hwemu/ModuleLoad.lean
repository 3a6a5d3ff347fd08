import Hwemu.Drivers
import Hwemu.Lib.Staged

/-!
# Loading and unloading the module

The init and cleanup functions of the units, in the order of `hwe_main.c`, and the states of the module
from one load to the next.
-/

namespace Hwemu

variable {w : Nat}

/-- `tty_alloc_driver` reports an error in its pointer, and its caller tests for null. -/
inductive TtyAllocDriver where
  | driver
  | null
  | errPtr

/-- What the kernel services called by the init functions return. -/
structure LoadEnv where
  ttyAllocDriver : TtyAllocDriver
  ttyRegisterDriver : Option Errno
  platformDeviceRegister : Option Errno
  platformDriverRegister : Option Errno
  ksetCreateAndAdd : Bool
  kobjectInitAndAdd : HweIface → Option Errno
  allocChrdevRegion : Option Errno
  classCreate : Option Errno
  cdevAdd : Option Errno
  deviceCreate : Option Errno

def LoadEnv.succeeds : LoadEnv :=
  { ttyAllocDriver := .driver
    ttyRegisterDriver := none
    platformDeviceRegister := none
    platformDriverRegister := none
    ksetCreateAndAdd := true
    kobjectInitAndAdd := fun _ => none
    allocChrdevRegion := none
    classCreate := none
    cdevAdd := none
    deviceCreate := none }

/-! ### The drivers -/

def hweInitTty (env : LoadEnv) (m : HwemuModule w) : Except Fault (Int × HwemuModule w) :=
  match env.ttyAllocDriver with
  | .null => .ok (-enomem, m)
  -- the fields of a driver are set at the address that is the error
  | .errPtr => .error .outOfBounds
  | .driver =>
      let m := m.register .ttyDriver
      match env.ttyRegisterDriver with
      | some err => .ok (-(err : Nat), m.unregister .ttyDriver)
      | none => .ok (0, m.register .ttyRegistration)

def hweCleanupTty (m : HwemuModule w) : Except Fault (HwemuModule w) := do
  let m ← (List.range hweMaxDevices).foldlM (fun m i =>
    match m.ttyDevices i with
    | some dev => hweDestroyTtyDevice dev.addr m
    | none => .ok m) m
  return (m.unregister .ttyRegistration).unregister .ttyDriver

def hweInitI2c (m : HwemuModule w) : Int × HwemuModule w := (0, { m with i2cDevices := [] })

def hweCleanupI2c (m : HwemuModule w) : Except Fault (HwemuModule w) :=
  m.i2cDevices.foldlM (fun m dev => do
    let m ← if dev.priv.inUse then hweDestroyI2c dev.addr m else .ok m
    return delI2cDev dev.addr m) m

def hweInitNet (m : HwemuModule w) : Int × HwemuModule w := (0, { m with netDevices := [] })

def hweCleanupNet (m : HwemuModule w) : Except Fault (HwemuModule w) :=
  m.netDevices.foldlM (fun m dev => hweDestroyNetDevice dev.priv.addr m) m

def hweInitSpi (env : LoadEnv) (m : HwemuModule w) : Int × HwemuModule w :=
  let m := { m with spiDevices := [] }
  match env.platformDeviceRegister with
  | some err => (-(err : Nat), m)
  | none =>
      let m := m.register .platformDevice
      match env.platformDriverRegister with
      | some err => (-(err : Nat), m.unregister .platformDevice)
      | none => (0, m.register .platformDriver)

def hweCleanupSpi (m : HwemuModule w) : Except Fault (HwemuModule w) := do
  let m ← m.spiDevices.foldlM (fun m dev => delSpiDev dev.addr m) m
  return (m.unregister .platformDriver).unregister .platformDevice

/-! ### The other units -/

def hweInitAsync (m : HwemuModule w) : Int × HwemuModule w := (0, m.register .timer)

def hweCleanupAsync (m : HwemuModule w) : HwemuModule w := m.unregister .timer

def initIface (env : LoadEnv) (iface : HweIface) (m : HwemuModule w) : Int × HwemuModule w :=
  let k := (m.k.setIface iface { devList := [], devIndexes := 0 }).setSem iface 1
  let m := (m.setKernel k).register (.ifaceKobj iface)
  match env.kobjectInitAndAdd iface with
  | some err => (-(err : Nat), m)
  | none => (0, m)

/-- The loop of `cleanup_iface`, with a bound for the devices there are. -/
def shutdownDevs (iface : HweIface) : Nat → HwemuModule w → Except Fault (HwemuModule w)
  | 0, m => .ok m
  | n + 1, m =>
      match (m.k.ifaces iface).devList with
      | [] => .ok m
      | dev :: _ => do
          let m ← m.shutdownDev dev
          shutdownDevs iface n m

def cleanupIface (iface : HweIface) (m : HwemuModule w) : Except Fault (HwemuModule w) := do
  let m ← shutdownDevs iface (m.k.ifaces iface).devList.length m
  return m.unregister (.ifaceKobj iface)

def hweInitSysfs (env : LoadEnv) (m : HwemuModule w) : Except Fault (Int × HwemuModule w) :=
  if !env.ksetCreateAndAdd then return (-enomem, m)
  else Staged.up (fun iface m => .ok (initIface env iface m)) cleanupIface [] HweIface.all (m.register .kset)

def hweCleanupSysfs (m : HwemuModule w) : Except Fault (HwemuModule w) := do
  let m ← Staged.down cleanupIface HweIface.all.reverse m
  return m.unregister .kset

def hweInitIoctl (env : LoadEnv) (m : HwemuModule w) : Int × HwemuModule w :=
  match env.allocChrdevRegion with
  | some err => (-(err : Nat), m)
  | none =>
      let m := m.register .chrdevRegion
      match env.classCreate with
      | some err => (-(err : Nat), m.unregister .chrdevRegion)
      | none =>
          let m := m.register .devClass
          match env.cdevAdd with
          | some err => (-(err : Nat), (m.unregister .devClass).unregister .chrdevRegion)
          | none =>
              let m := m.register .cdev
              match env.deviceCreate with
              -- `err` is still the result of `cdev_add`
              | some _ => (0, (m.unregister .devClass).unregister .chrdevRegion)
              | none => (0, m.register .deviceNode)

def hweCleanupIoctl (m : HwemuModule w) : HwemuModule w :=
  ((m.unregister .deviceNode).unregister .devClass).unregister .chrdevRegion

/-! ### The module -/

/-- The entries of `init_funcs` and `cleanup_funcs`. -/
inductive HweUnit where
  | tty
  | i2c
  | net
  | spi
  | async
  | sysfs
  | ioctl
  deriving DecidableEq

def HweUnit.all : List HweUnit := [.tty, .i2c, .net, .spi, .async, .sysfs, .ioctl]

def initFuncs (env : LoadEnv) (unit : HweUnit) (m : HwemuModule w) : Except Fault (Int × HwemuModule w) :=
  match unit with
  | .tty => hweInitTty env m
  | .i2c => .ok (hweInitI2c m)
  | .net => .ok (hweInitNet m)
  | .spi => .ok (hweInitSpi env m)
  | .async => .ok (hweInitAsync m)
  | .sysfs => hweInitSysfs env m
  | .ioctl => .ok (hweInitIoctl env m)

def cleanupFuncs (unit : HweUnit) (m : HwemuModule w) : Except Fault (HwemuModule w) :=
  match unit with
  | .tty => hweCleanupTty m
  | .i2c => hweCleanupI2c m
  | .net => hweCleanupNet m
  | .spi => hweCleanupSpi m
  | .async => .ok (hweCleanupAsync m)
  | .sysfs => hweCleanupSysfs m
  | .ioctl => .ok (hweCleanupIoctl m)

def hwemuInit (env : LoadEnv) (m : HwemuModule w) : Except Fault (Int × HwemuModule w) :=
  Staged.up (initFuncs env) cleanupFuncs [] HweUnit.all m

def hwemuExit (m : HwemuModule w) : Except Fault (HwemuModule w) :=
  Staged.down cleanupFuncs HweUnit.all.reverse m

/-- The static data of the module as it is put into memory. What is registered stays registered, and the
heap goes on. -/
def HwemuModule.reloaded (m : HwemuModule w) : HwemuModule w :=
  .empty { ifaces := fun _ => { devList := [], devIndexes := 0 }, sems := fun _ => 0, heap := m.k.heap } m.objs

structure ModuleState (w : Nat) where
  m : HwemuModule w
  loaded : Bool

inductive ModuleEvent (w : Nat) where
  | insmod (env : LoadEnv)
  | rmmod
  | op (op : ModuleOp w)

/-- The state that a completed event leads to. -/
def ModuleState.next (HZ : Nat) (s : ModuleState w) : ModuleEvent w → Option (ModuleState w)
  | .insmod env =>
      if s.loaded then none
      else (hwemuInit env s.m.reloaded).toOption.map fun r => { m := r.2, loaded := decide (r.1 = (0 : Int)) }
  | .rmmod =>
      if !s.loaded then none
      else (hwemuExit s.m).toOption.map fun m => { m := m, loaded := false }
  | .op op =>
      if !s.loaded then none
      else (s.m.next HZ op).map fun m => { m := m, loaded := true }

/-- Before the module is loaded for the first time. -/
def ModuleState.initial (w : Nat) : ModuleState w :=
  { m := .empty (Kernel.loaded w) .empty, loaded := false }

end Hwemu
