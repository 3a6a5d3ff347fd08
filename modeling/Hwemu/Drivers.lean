import Hwemu.I2cReuse
import Hwemu.Operations
import Hwemu.Lib.Registry

/-!
# The drivers and the module

The functions that create and destroy the private devices of the four interfaces, each with the table
its driver keeps, the operations on devices that call them, and loading and unloading the module. What
the kernel services return is an argument, and what is registered with the kernel is kept in a registry.
-/

namespace Hwemu

variable {w : Nat}

/-- What the kernel keeps for the module. A kobject counts from its initialization, since it has to be
put even when it could not be added. -/
inductive KernelObj where
  | ttyDriver
  | ttyRegistration
  | platformDevice
  | platformDriver
  | timer
  | kset
  | ifaceKobj (iface : HweIface)
  | chrdevRegion
  | devClass
  | cdev
  | deviceNode
  | devKobj (dev : Nat)
  | pairsKobj (dev : Nat)
  | ttyDevice (index : Nat)
  | i2cAdapter (device : Nat)
  | netDevice (device : Nat)
  | spiMaster (device : Nat)
  | spiDevice (device : Nat)
  deriving DecidableEq

/-- `struct hwe_dev_priv`, as far as it says whose private device it is. -/
structure PrivDev where
  addr : Nat
  hwedev : Nat
  index : Nat
  deriving DecidableEq

/-- An entry of the list of the net driver, and whether its memory was freed under it. -/
structure NetEntry where
  priv : PrivDev
  freed : Bool

/-- The store, the tables of the drivers, and what is registered. -/
structure HwemuModule (w : Nat) where
  k : Kernel w
  ttyDevices : Nat → Option PrivDev
  i2cDevices : List I2cEntry
  netDevices : List NetEntry
  spiDevices : List PrivDev
  objs : Registry KernelObj

namespace HwemuModule

def register (obj : KernelObj) (m : HwemuModule w) : HwemuModule w :=
  { m with objs := m.objs.acquire obj }

def unregister (obj : KernelObj) (m : HwemuModule w) : HwemuModule w :=
  { m with objs := m.objs.release obj }

def setKernel (k : Kernel w) (m : HwemuModule w) : HwemuModule w := { m with k := k }

def kfree (addr : Nat) (m : HwemuModule w) : HwemuModule w := m.setKernel (m.k.kfree addr)

end HwemuModule

/-- How `alloc_netdev` ends; the setup callback runs before the queues are allocated. -/
inductive AllocNetdev where
  | succeeds
  | failsBefore
  | failsAfter
  deriving DecidableEq

/-- What the kernel services called by the four functions `create` return. -/
structure CreateEnv where
  kzalloc : Bool
  ttyPortRegisterDevice : Option Errno
  i2cAddAdapter : Option Errno
  allocNetdev : AllocNetdev
  registerNetdev : Option Errno
  spiAllocMaster : Bool
  spiRegisterMaster : Option Errno
  spiNewDevice : Bool

def CreateEnv.succeeds : CreateEnv :=
  { kzalloc := true
    ttyPortRegisterDevice := none
    i2cAddAdapter := none
    allocNetdev := .succeeds
    registerNetdev := none
    spiAllocMaster := true
    spiRegisterMaster := none
    spiNewDevice := true }

/-! ### tty -/

def hweCreateTtyDevice (env : CreateEnv) (hwedev index : Nat) (m : HwemuModule w) :
    Option Nat × HwemuModule w :=
  if hweMaxDevices ≤ index then (none, m)
  else if !env.kzalloc then (none, m)
  else
    let (dev, k) := m.k.alloc
    let m := { m with
      k := k
      ttyDevices := Function.update m.ttyDevices index (some { addr := dev, hwedev := hwedev, index := index }) }
    if env.ttyPortRegisterDevice.isSome then
      let m := m.kfree dev
      (none, { m with ttyDevices := Function.update m.ttyDevices index none })
    else (some dev, m.register (.ttyDevice index))

/-- The private device at `device`, which the table knows. -/
def findTtyDevice (device : Nat) (m : HwemuModule w) : Option PrivDev :=
  (List.range hweMaxDevices).findSome? fun i => (m.ttyDevices i).filter fun dev => dev.addr == device

def hweDestroyTtyDevice (device : Nat) (m : HwemuModule w) : Except Fault (HwemuModule w) :=
  match findTtyDevice device m with
  | none => .error .useAfterFree
  | some dev =>
      let m := (m.unregister (.ttyDevice dev.index)).kfree device
      .ok { m with ttyDevices := Function.update m.ttyDevices dev.index none }

/-! ### i2c -/

/-- `del_dev` of the i2c driver. -/
def delI2cDev (dev : Nat) (m : HwemuModule w) : HwemuModule w :=
  let m := { m with i2cDevices := m.i2cDevices.filter fun e => e.addr ≠ dev }
  m.kfree dev

def hweCreateI2cDevice (env : CreateEnv) (hwedev index : Nat) (m : HwemuModule w) :
    Option Nat × HwemuModule w :=
  if hweMaxDevices ≤ index then (none, m)
  else
    let (addr, k) := m.k.alloc
    match allocDev (if env.kzalloc then some addr else none) hwedev index m.i2cDevices with
    | none => (none, m)
    | some (dev, devices) =>
        -- memory is only asked for when no device is unused
        let k := if (findUnusedDev m.i2cDevices).isSome then m.k else k
        let m := { m with k := k, i2cDevices := devices }
        if env.i2cAddAdapter.isSome then (none, delI2cDev dev m)
        else (some dev, m.register (.i2cAdapter dev))

def hweDestroyI2c (device : Nat) (m : HwemuModule w) : Except Fault (HwemuModule w) :=
  match m.i2cDevices.find? fun e => e.addr == device with
  | none => .error .useAfterFree
  | some _ =>
      let m := { m with
        i2cDevices := m.i2cDevices.map fun e : I2cEntry =>
          if e.addr = device then { e with priv := hweDestroyI2cDevice e.priv } else e }
      .ok (m.unregister (.i2cAdapter device))

/-! ### net -/

/-- `list_add` at the head of the list, which writes to the first entry. -/
def netListAdd (e : NetEntry) (devices : List NetEntry) : Except Fault (List NetEntry) :=
  if devices.head?.any (·.freed) then .error .useAfterFree else .ok (e :: devices)

/-- `list_del`, which writes to the entry before and the entry after. -/
def netListDel (dev : Nat) (devices : List NetEntry) : Except Fault (List NetEntry) :=
  let before := devices.takeWhile fun e => e.priv.addr ≠ dev
  let after := (devices.dropWhile fun e => e.priv.addr ≠ dev).drop 1
  if before.getLast?.any (·.freed) || after.head?.any (·.freed) then .error .useAfterFree
  else .ok (before ++ after)

def hweCreateNetDevice (env : CreateEnv) (hwedev index : Nat) (m : HwemuModule w) :
    Except Fault (Option Nat × HwemuModule w) :=
  let (dev, k) := m.k.alloc
  match env.allocNetdev with
  | .failsBefore => .ok (none, m)
  | .failsAfter => do
      -- `hwenet_init` has put the device in the list when its memory is freed
      let entry : NetEntry := { priv := { addr := dev, hwedev := 0, index := 0 }, freed := true }
      let devices ← netListAdd entry m.netDevices
      let m := { m with k := k, netDevices := devices }
      return (none, m.kfree dev)
  | .succeeds => do
      let entry : NetEntry := { priv := { addr := dev, hwedev := hwedev, index := index }, freed := false }
      let devices ← netListAdd entry m.netDevices
      if env.registerNetdev.isSome then
        let devices ← netListDel dev devices
        let m := { m with k := k, netDevices := devices }
        return (none, m.kfree dev)
      else
        let m := { m with k := k, netDevices := devices }
        return (some dev, m.register (.netDevice dev))

def hweDestroyNetDevice (device : Nat) (m : HwemuModule w) : Except Fault (HwemuModule w) :=
  match m.netDevices.find? fun e => e.priv.addr == device with
  | none => .error .useAfterFree
  | some e =>
      if e.freed then .error .useAfterFree
      else do
        let devices ← netListDel device m.netDevices
        let m := { m with netDevices := devices }
        return (m.unregister (.netDevice device)).kfree device

/-! ### spi -/

/-- `new_dev` of the spi driver. The reference that is put when `spi_new_device` fails is the one of
`spi_alloc_master`; the master stays registered. -/
def newSpiDev (env : CreateEnv) (hwedev index : Nat) (m : HwemuModule w) : Option Nat × HwemuModule w :=
  if !env.spiAllocMaster then (none, m)
  else
    let (ret, k) := m.k.alloc
    if env.spiRegisterMaster.isSome then (none, m.setKernel (k.kfree ret))
    else
      let m := (m.setKernel k).register (.spiMaster ret)
      if !env.spiNewDevice then (none, m)
      else
        let m := m.register (.spiDevice ret)
        (some ret, { m with
          spiDevices := { addr := ret, hwedev := hwedev, index := index } :: m.spiDevices })

/-- `del_dev` of the spi driver. -/
def delSpiDev (device : Nat) (m : HwemuModule w) : Except Fault (HwemuModule w) :=
  match m.spiDevices.find? fun e => e.addr == device with
  | none => .error .useAfterFree
  | some _ =>
      let m := { m with spiDevices := m.spiDevices.filter fun e => e.addr ≠ device }
      .ok (((m.unregister (.spiDevice device)).unregister (.spiMaster device)).kfree device)

/-! ### Devices of any interface -/

/-- `dev_ops[iface].create`. -/
def createPriv (iface : HweIface) (env : CreateEnv) (hwedev index : Nat) (m : HwemuModule w) :
    Except Fault (Option Nat × HwemuModule w) :=
  match iface with
  | .tty => .ok (hweCreateTtyDevice env hwedev index m)
  | .i2c => .ok (hweCreateI2cDevice env hwedev index m)
  | .net => hweCreateNetDevice env hwedev index m
  | .spi => .ok (newSpiDev env hwedev index m)

/-- `dev_ops[iface].destroy`. -/
def destroyPriv (iface : HweIface) (device : Nat) (m : HwemuModule w) : Except Fault (HwemuModule w) :=
  match iface with
  | .tty => hweDestroyTtyDevice device m
  | .i2c => hweDestroyI2c device m
  | .net => hweDestroyNetDevice device m
  | .spi => delSpiDev device m

/-- What the kernel services called by `new_dev` return. -/
structure AddDeviceEnv where
  kzalloc : Bool
  create : CreateEnv
  kobjectInitAndAdd : Option Errno
  kobjectCreateAndAdd : Bool

def AddDeviceEnv.succeeds : AddDeviceEnv :=
  { kzalloc := true
    create := .succeeds
    kobjectInitAndAdd := none
    kobjectCreateAndAdd := true }

namespace HwemuModule

/-- `shutdown_dev`. -/
def shutdownDev (dev : Dev w) (m : HwemuModule w) : Except Fault (HwemuModule w) := do
  let m ← match dev.device with
    | some device => destroyPriv dev.iface device m
    | none => .ok m
  let k ← clearPairs dev m.k
  let m := m.setKernel (putDevIndex dev.iface dev.index (unlinkDev dev k))
  let m := if dev.pairsKobj then m.unregister (.pairsKobj dev.addr) else m
  return (m.unregister (.devKobj dev.addr)).kfree dev.addr

/-- `new_dev`. -/
def newDev (env : AddDeviceEnv) (iface : HweIface) (m : HwemuModule w) :
    Except Fault (Option (Dev w) × HwemuModule w) :=
  match findFreeDevIndex iface m.k with
  | none => return (none, m)
  | some idx =>
    match addDev env.kzalloc iface idx m.k with
    | (none, k) => return (none, m.setKernel k)
    | (some ret, k) => do
      let (device, m) ← createPriv iface env.create ret.addr idx (m.setKernel k)
      match device with
      | none => return (none, m.setKernel (delDev ret m.k))
      | some device =>
          let ret := { ret with device := some device }
          let m := m.setKernel (m.k.modifyDev ret.addr fun d => { d with device := some device })
          let m := m.register (.devKobj ret.addr)
          if env.kobjectInitAndAdd.isSome then
            let m ← m.shutdownDev ret
            return (none, m)
          else
            let ret := { ret with name := devName iface idx }
            let m := m.setKernel (m.k.modifyDev ret.addr fun d => { d with name := devName iface idx })
            if !env.kobjectCreateAndAdd then
              let m ← m.shutdownDev ret
              return (none, m)
            else
              let ret := { ret with pairsKobj := true }
              let m := m.setKernel (m.k.modifyDev ret.addr fun d => { d with pairsKobj := true })
              return (some ret, m.register (.pairsKobj ret.addr))

/-- The work of an operation under the semaphore of its interface. -/
def withLock {α : Type} (iface : HweIface) (m : HwemuModule w)
    (body : HwemuModule w → Except Fault (α × HwemuModule w)) : Except Fault (α × HwemuModule w) := do
  let k ← lockIfaceDevs iface m.k
  let (ret, m) ← body (m.setKernel k)
  return (ret, m.setKernel (unlockIfaceDevs iface m.k))

def hweAddDevice (iface : HweIface) (env : AddDeviceEnv) (m : HwemuModule w) :
    Except Fault (Int × HwemuModule w) :=
  m.withLock iface fun m => do
    let (dev, m) ← m.newDev env iface
    return ((match dev with
      | none => -enodev
      | some dev => (dev.index : Int)), m)

/-- `iface_add_store`. -/
def ifaceAddStore (iface : HweIface) (buf : List UInt8) (env : AddDeviceEnv) (m : HwemuModule w) :
    Except Fault (Int × HwemuModule w) :=
  if buf.length = 0 then return (-eio, m)
  else m.withLock iface fun m => do
    let (dev, m) ← m.newDev env iface
    return ((match dev with
      | none => -eio
      | some _ => toInt buf.length), m)

def hweDeleteDevice (iface : HweIface) (devIndex : Int) (m : HwemuModule w) :
    Except Fault (Int × HwemuModule w) :=
  m.withLock iface fun m =>
    match findDeviceByIndex iface devIndex m.k with
    | none => return (-enodev, m)
    | some dev => do
        let m ← m.shutdownDev dev
        return (0, m)

/-- `iface_uninstall_store`. -/
def ifaceUninstallStore (iface : HweIface) (buf : List UInt8) (m : HwemuModule w) :
    Except Fault (Int × HwemuModule w) :=
  let devName := copyWord buf 16
  if buf.length = 0 ∨ devName.length = 0 then return (-einval, m)
  else m.withLock iface fun m =>
    match findDevice iface devName m.k with
    | none => return (-einval, m)
    | some dev => do
        let m ← m.shutdownDev dev
        return (toInt buf.length, m)

end HwemuModule

/-- An operation on the pairs of a device. -/
def Op.onPairs : Op w → Bool
  | devAddStore _ _ _ => true
  | hweAddPair _ _ _ _ => true
  | devDeleteStore _ _ => true
  | hweDeletePair _ _ _ => true
  | devClearStore _ _ => true
  | hweClearPairs _ _ => true
  | _ => false

/-- The operations on devices, and those on pairs. The commands of `hwemu_ioctl` come down to the ones
that begin with `hwe`. -/
inductive ModuleOp (w : Nat) where
  | hweAddDevice (iface : HweIface) (env : AddDeviceEnv)
  | ifaceAddStore (iface : HweIface) (buf : List UInt8) (env : AddDeviceEnv)
  | hweDeleteDevice (iface : HweIface) (devIndex : Int)
  | ifaceUninstallStore (iface : HweIface) (buf : List UInt8)
  | onPairs (op : { op : Op w // op.onPairs = true })

def HwemuModule.exec (HZ : Nat) (m : HwemuModule w) : ModuleOp w → Except Fault (Int × HwemuModule w)
  | .hweAddDevice iface env => m.hweAddDevice iface env
  | .ifaceAddStore iface buf env => m.ifaceAddStore iface buf env
  | .hweDeleteDevice iface devIndex => m.hweDeleteDevice iface devIndex
  | .ifaceUninstallStore iface buf => m.ifaceUninstallStore iface buf
  | .onPairs op => do
      let (ret, k) ← Hwemu.exec HZ op.val m.k
      return (ret, m.setKernel k)

/-- The state that a completed operation leads to. -/
def HwemuModule.next (HZ : Nat) (m : HwemuModule w) (op : ModuleOp w) : Option (HwemuModule w) :=
  (m.exec HZ op).toOption.map Prod.snd

/-- Empty tables. -/
def HwemuModule.empty (k : Kernel w) (objs : Registry KernelObj) : HwemuModule w :=
  { k := k
    ttyDevices := fun _ => none
    i2cDevices := []
    netDevices := []
    spiDevices := []
    objs := objs }

end Hwemu
