import Hwemu.Pair
import Hwemu.Lib.Bitmap
import Mathlib.Logic.Function.Basic

/-!
# The store of interfaces and devices

The static data of `hwe_sysfs.c`: one record per interface with its device list and its index
bitmap, and one record per device with its pair list and its index bitmap. The semaphores of the
interfaces are kept beside the records, since an operation holds one while it changes the other. A
record is known by its address. Addresses come from a heap that never hands the same one out twice
and keeps a log of what was freed.
-/

namespace Hwemu

variable {w : Nat}

/-- `struct hwe_dev`. `name` is the name of its kobject, `device` the private device that the
interface driver created for it, and `pairsKobj` says whether the directory of the pair files
exists. -/
structure Dev (w : Nat) where
  addr : Nat
  name : List UInt8
  pairList : List (Pair w)
  iface : HweIface
  index : Nat
  device : Option Nat
  pairsKobj : Bool
  pairsIndexes : BitVec hweMaxPairs

/-- `struct hwe_iface` without its semaphore. -/
structure Iface (w : Nat) where
  devList : List (Dev w)
  devIndexes : BitVec hweMaxDevices

/-- The next address to hand out, and the addresses given back so far. -/
structure Heap where
  next : Nat
  freed : List Nat

structure Kernel (w : Nat) where
  ifaces : HweIface → Iface w
  sems : HweIface → Nat
  heap : Heap

namespace Kernel

def setIface (iface : HweIface) (ifc : Iface w) (k : Kernel w) : Kernel w :=
  { k with ifaces := Function.update k.ifaces iface ifc }

def setSem (iface : HweIface) (n : Nat) (k : Kernel w) : Kernel w :=
  { k with sems := Function.update k.sems iface n }

/-- A write to the fields of the device at an address. -/
def modifyDev (dev : Nat) (f : Dev w → Dev w) (k : Kernel w) : Kernel w :=
  { k with ifaces := fun iface => { k.ifaces iface with
      devList := (k.ifaces iface).devList.map fun d => if d.addr = dev then f d else d } }

def kfree (addr : Nat) (k : Kernel w) : Kernel w :=
  { k with heap := { k.heap with freed := addr :: k.heap.freed } }

/-- The address of a new block of memory. -/
def alloc (k : Kernel w) : Nat × Kernel w :=
  (k.heap.next, { k with heap := { k.heap with next := k.heap.next + 1 } })

/-- The devices of all interfaces. -/
def devs (k : Kernel w) : List (Dev w) := HweIface.all.flatMap fun iface => (k.ifaces iface).devList

/-- What a pointer to a device points at. -/
def deref (dev : Nat) (k : Kernel w) : Except Fault (Dev w) :=
  match k.devs.find? fun d => d.addr == dev with
  | none => .error .useAfterFree
  | some d => .ok d

end Kernel

/-- The store after the module is loaded. Address 0 is the null pointer. -/
def Kernel.loaded (w : Nat) : Kernel w :=
  { ifaces := fun _ => { devList := [], devIndexes := 0 }
    sems := fun _ => 1
    heap := { next := 1, freed := [] } }

/-! ### Names of interfaces -/

def ifaceToStr : HweIface → List UInt8
  | .tty => bytes "tty"
  | .i2c => bytes "i2c"
  | .net => bytes "net"
  | .spi => bytes "spi"

/-- The name of an interface in upper case, the other one `str_to_iface` knows. -/
def ifaceToUpperStr : HweIface → List UInt8
  | .tty => bytes "TTY"
  | .i2c => bytes "I2C"
  | .net => bytes "NET"
  | .spi => bytes "SPI"

def strToIface (str : List UInt8) : Option HweIface :=
  HweIface.all.find? fun iface => str == ifaceToUpperStr iface || str == ifaceToStr iface

@[simp]
theorem strToIface_ifaceToStr (iface : HweIface) : strToIface (ifaceToStr iface) = some iface := by
  cases iface <;> decide

/-! ### Indexes and locks -/

def findFreeDevIndex (iface : HweIface) (k : Kernel w) : Option Nat :=
  let ret := Bitmap.findFirstZeroBit (k.ifaces iface).devIndexes
  if ret = hweMaxDevices then none else some ret

def takeDevIndex (iface : HweIface) (index : Nat) (k : Kernel w) : Kernel w :=
  k.setIface iface { k.ifaces iface with
    devIndexes := Bitmap.setBit index (k.ifaces iface).devIndexes }

def putDevIndex (iface : HweIface) (index : Nat) (k : Kernel w) : Kernel w :=
  k.setIface iface { k.ifaces iface with
    devIndexes := Bitmap.clearBit index (k.ifaces iface).devIndexes }

/-- `down` on the semaphore. With no other thread to release it, a taken semaphore blocks for ever. -/
def lockIfaceDevs (iface : HweIface) (k : Kernel w) : Except Fault (Kernel w) :=
  if k.sems iface = 0 then .error .blocked else .ok (k.setSem iface (k.sems iface - 1))

/-- `down_trylock` on the semaphore: `none` when it cannot be taken. -/
def tryLockIfaceDevs (iface : HweIface) (k : Kernel w) : Option (Kernel w) :=
  if k.sems iface = 0 then none else some (k.setSem iface (k.sems iface - 1))

def unlockIfaceDevs (iface : HweIface) (k : Kernel w) : Kernel w :=
  k.setSem iface (k.sems iface + 1)

/-- The shape of every store operation: take the lock, do the work, release the lock. -/
def withLock {α : Type} (iface : HweIface) (k : Kernel w)
    (body : Kernel w → Except Fault (α × Kernel w)) : Except Fault (α × Kernel w) := do
  let k ← lockIfaceDevs iface k
  let (ret, k) ← body k
  return (ret, unlockIfaceDevs iface k)

/-! ### Searching -/

def findDevice (iface : HweIface) (name : List UInt8) (k : Kernel w) : Option (Dev w) :=
  (k.ifaces iface).devList.find? fun d => d.name == name

def findDeviceByIndex (iface : HweIface) (index : Int) (k : Kernel w) : Option (Dev w) :=
  (k.ifaces iface).devList.find? fun d => (d.index : Int) == index

/-- The pair that answers a request; `req_size` is an `int` and converted to `size_t`. -/
def findResponse (dev : Dev w) (request : List UInt8) (reqSize : Int) : Option (Pair w) :=
  findPair dev.pairList request (toSizeT reqSize)

/-! ### Adding and removing devices -/

/-- A zeroed device record at the front of the list, or `none` when memory is short. -/
def addDev (kzalloc : Bool) (iface : HweIface) (index : Nat) (k : Kernel w) :
    Option (Dev w) × Kernel w :=
  if !kzalloc then (none, k)
  else
    let (addr, k) := k.alloc
    let ret : Dev w :=
      { addr := addr
        name := []
        pairList := []
        iface := iface
        index := index
        device := none
        pairsKobj := false
        pairsIndexes := 0 }
    let k := takeDevIndex iface index k
    (some ret, k.setIface iface { k.ifaces iface with devList := ret :: (k.ifaces iface).devList })

/-- `list_del(&dev->entry)`. -/
def unlinkDev (dev : Dev w) (k : Kernel w) : Kernel w :=
  k.setIface dev.iface { k.ifaces dev.iface with
    devList := (k.ifaces dev.iface).devList.filter fun d => d.addr ≠ dev.addr }

def delDev (dev : Dev w) (k : Kernel w) : Kernel w :=
  (putDevIndex dev.iface dev.index (unlinkDev dev k)).kfree dev.addr

/-- Deletes a pair of the list of the device at `dev`. The bitmap is reached through the pair's own
pointer to its device. -/
def pairDelete (dev : Nat) (pair : Pair w) (k : Kernel w) : Except Fault (Kernel w) := do
  let owner ← k.deref pair.dev
  let k := k.modifyDev owner.addr fun d =>
    { d with pairsIndexes := Bitmap.clearBit pair.index d.pairsIndexes }
  let k := k.modifyDev dev fun d =>
    { d with pairList := d.pairList.filter fun p => p.addr ≠ pair.addr }
  return k.kfree pair.addr

def clearPairs (dev : Dev w) (k : Kernel w) : Except Fault (Kernel w) :=
  dev.pairList.foldlM (fun k pair => pairDelete dev.addr pair k) k

/-- `dev_ops[iface].create`: a private device of its own, or `none` when the driver fails. -/
def createDevice (create : Bool) (k : Kernel w) : Option Nat × Kernel w :=
  if create then (some k.alloc.1, k.alloc.2) else (none, k)

/-- `dev_ops[iface].destroy`. -/
def destroyDevice (priv : Nat) (k : Kernel w) : Kernel w := k.kfree priv

/-- `if (dev->device) destroy(dev->device)`. -/
def destroyIfCreated (dev : Dev w) (k : Kernel w) : Kernel w :=
  match dev.device with
  | some priv => destroyDevice priv k
  | none => k

/-- Removes a device that may be partially initialized. Dropping the last reference to its kobject
frees the record. -/
def shutdownDev (dev : Dev w) (k : Kernel w) : Except Fault (Kernel w) := do
  let k ← clearPairs dev (destroyIfCreated dev k)
  let k := putDevIndex dev.iface dev.index (unlinkDev dev k)
  return k.kfree dev.addr

end Hwemu
