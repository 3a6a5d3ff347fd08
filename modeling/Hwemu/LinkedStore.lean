import Hwemu.Async
import Hwemu.Ioctl
import Hwemu.Show
import Hwemu.Lib.Ring

/-!
# The store as it lies in memory

The store of `hwe_sysfs.c` with its linked lists: every interface, device and pair carries the
`struct list_head` by which it is linked, and the functions of `list.h` follow and write the pointers.
Following a pointer into memory that was freed, or one of the values that `list_del` leaves behind, is a
fault. A loop over a list may take as many turns as its list has indexes, and one more to see its head;
a longer loop counts as one that never ends.
-/

namespace Hwemu

variable {w : Nat}

/-- The places of a `struct list_head`: the field `dev_list` of an interface, the fields `entry` and
`pair_list` of a device, the field `entry` of a pair; and `LIST_POISON1` and `LIST_POISON2`. -/
inductive ListHead where
  | devList (iface : HweIface)
  | entry (dev : Nat)
  | pairList (dev : Nat)
  | pairEntry (pair : Nat)
  | poison1
  | poison2
  deriving DecidableEq, Repr

namespace ListHead

/-- `list_entry(ptr, struct hwe_dev, entry)`. -/
def toDev : ListHead → Except Fault Nat
  | entry dev => .ok dev
  | _ => .error .outOfBounds

/-- `list_entry(ptr, struct hwe_pair, entry)`. -/
def toPair : ListHead → Except Fault Nat
  | pairEntry pair => .ok pair
  | _ => .error .outOfBounds

end ListHead

/-- `struct hwe_dev` without its list heads. -/
structure DevRecord where
  name : List UInt8
  iface : HweIface
  index : Nat
  device : Option Nat
  pairsKobj : Bool
  pairsIndexes : BitVec hweMaxPairs

/-- The pointers of all list heads, the records of the devices and pairs in memory, the bitmaps and
semaphores of the interfaces, and the allocator. -/
structure LinkedKernel (w : Nat) where
  links : Links ListHead
  devs : Nat → Option DevRecord
  pairs : Nat → Option (Pair w)
  devIndexes : HweIface → BitVec hweMaxDevices
  sems : HweIface → Nat
  heap : Heap

namespace LinkedKernel

/-! ### Memory -/

/-- Access to a list head: it must stand in memory that is in use. -/
def access (ptr : ListHead) (s : LinkedKernel w) : Except Fault Unit :=
  match ptr with
  | .devList _ => .ok ()
  | .entry dev => if (s.devs dev).isSome then .ok () else .error .useAfterFree
  | .pairList dev => if (s.devs dev).isSome then .ok () else .error .useAfterFree
  | .pairEntry pair => if (s.pairs pair).isSome then .ok () else .error .useAfterFree
  | .poison1 => .error .outOfBounds
  | .poison2 => .error .outOfBounds

def next (ptr : ListHead) (s : LinkedKernel w) : Except Fault ListHead := do
  s.access ptr
  return s.links.next ptr

def prev (ptr : ListHead) (s : LinkedKernel w) : Except Fault ListHead := do
  s.access ptr
  return s.links.prev ptr

def setNext (ptr value : ListHead) (s : LinkedKernel w) : Except Fault (LinkedKernel w) := do
  s.access ptr
  return { s with links := s.links.setNext ptr value }

def setPrev (ptr value : ListHead) (s : LinkedKernel w) : Except Fault (LinkedKernel w) := do
  s.access ptr
  return { s with links := s.links.setPrev ptr value }

def derefDev (dev : Nat) (s : LinkedKernel w) : Except Fault DevRecord :=
  match s.devs dev with
  | none => .error .useAfterFree
  | some d => .ok d

def derefPair (pair : Nat) (s : LinkedKernel w) : Except Fault (Pair w) :=
  match s.pairs pair with
  | none => .error .useAfterFree
  | some p => .ok p

/-- A write to the fields of a device. -/
def modifyDev (dev : Nat) (f : DevRecord → DevRecord) (s : LinkedKernel w) :
    Except Fault (LinkedKernel w) := do
  let d ← s.derefDev dev
  return { s with devs := Function.update s.devs dev (some (f d)) }

/-- What stands at an address is overwritten as a pair. -/
def putPair (pair : Pair w) (s : LinkedKernel w) : LinkedKernel w :=
  { s with pairs := Function.update s.pairs pair.addr (some pair) }

def alloc (s : LinkedKernel w) : Nat × LinkedKernel w :=
  (s.heap.next, { s with heap := { s.heap with next := s.heap.next + 1 } })

def kfree (addr : Nat) (s : LinkedKernel w) : LinkedKernel w :=
  { s with heap := { s.heap with freed := addr :: s.heap.freed } }

/-- What `dev_release` does with debug logging off; with it on, the name of the device is read after `kfree`.
The list heads go with the device. -/
def kfreeDev (dev : Nat) (s : LinkedKernel w) : LinkedKernel w :=
  { s.kfree dev with devs := Function.update s.devs dev none }

def kfreePair (pair : Nat) (s : LinkedKernel w) : LinkedKernel w :=
  { s.kfree pair with pairs := Function.update s.pairs pair none }

end LinkedKernel

namespace Linked

open LinkedKernel

/-! ### The functions of `list.h` -/

def initListHead (ptr : ListHead) (s : LinkedKernel w) : Except Fault (LinkedKernel w) := do
  let s ← s.setNext ptr ptr
  s.setPrev ptr ptr

/-- `__list_add`. -/
def listAddBetween (new prev next : ListHead) (s : LinkedKernel w) : Except Fault (LinkedKernel w) := do
  let s ← s.setPrev next new
  let s ← s.setNext new next
  let s ← s.setPrev new prev
  s.setNext prev new

def listAdd (new head : ListHead) (s : LinkedKernel w) : Except Fault (LinkedKernel w) := do
  listAddBetween new head (← s.next head) s

def listAddTail (new head : ListHead) (s : LinkedKernel w) : Except Fault (LinkedKernel w) := do
  listAddBetween new (← s.prev head) head s

/-- `__list_del`. -/
def listDelBetween (prev next : ListHead) (s : LinkedKernel w) : Except Fault (LinkedKernel w) := do
  let s ← s.setPrev next prev
  s.setNext prev next

def listDel (entry : ListHead) (s : LinkedKernel w) : Except Fault (LinkedKernel w) := do
  let s ← listDelBetween (← s.prev entry) (← s.next entry) s
  let s ← s.setNext entry .poison1
  s.setPrev entry .poison2

def listEmpty (head : ListHead) (s : LinkedKernel w) : Except Fault Bool := do
  return (← s.next head) == head

/-- The rest of a `list_for_each_entry` that returns the first entry with a property, from `pos` on. -/
def findFrom (test : ListHead → Except Fault Bool) (head : ListHead) (s : LinkedKernel w) :
    Nat → ListHead → Except Fault (Option ListHead)
  | 0, _ => .error .blocked
  | fuel + 1, pos => do
      if pos = head then return none
      else if ← test pos then return some pos
      else findFrom test head s fuel (← s.next pos)

def listFind (test : ListHead → Except Fault Bool) (bound : Nat) (head : ListHead) (s : LinkedKernel w) :
    Except Fault (Option ListHead) := do
  findFrom test head s (bound + 1) (← s.next head)

/-! ### Indexes and locks -/

def findFreeDevIndex (iface : HweIface) (s : LinkedKernel w) : Option Nat :=
  let ret := Bitmap.findFirstZeroBit (s.devIndexes iface)
  if ret = hweMaxDevices then none else some ret

def takeDevIndex (iface : HweIface) (index : Nat) (s : LinkedKernel w) : LinkedKernel w :=
  { s with devIndexes :=
      Function.update s.devIndexes iface (Bitmap.setBit index (s.devIndexes iface)) }

def putDevIndex (iface : HweIface) (index : Nat) (s : LinkedKernel w) : LinkedKernel w :=
  { s with devIndexes :=
      Function.update s.devIndexes iface (Bitmap.clearBit index (s.devIndexes iface)) }

def setSem (iface : HweIface) (n : Nat) (s : LinkedKernel w) : LinkedKernel w :=
  { s with sems := Function.update s.sems iface n }

def lockIfaceDevs (iface : HweIface) (s : LinkedKernel w) : Except Fault (LinkedKernel w) :=
  if s.sems iface = 0 then .error .blocked else .ok (setSem iface (s.sems iface - 1) s)

def tryLockIfaceDevs (iface : HweIface) (s : LinkedKernel w) : Option (LinkedKernel w) :=
  if s.sems iface = 0 then none else some (setSem iface (s.sems iface - 1) s)

def unlockIfaceDevs (iface : HweIface) (s : LinkedKernel w) : LinkedKernel w :=
  setSem iface (s.sems iface + 1) s

def withLock {α : Type} (iface : HweIface) (s : LinkedKernel w)
    (body : LinkedKernel w → Except Fault (α × LinkedKernel w)) : Except Fault (α × LinkedKernel w) := do
  let s ← lockIfaceDevs iface s
  let (ret, s) ← body s
  return (ret, unlockIfaceDevs iface s)

/-! ### Searching -/

def findFirstDevice (iface : HweIface) (s : LinkedKernel w) : Except Fault (Option Nat) := do
  if ← listEmpty (.devList iface) s then return none
  else return some (← (← s.next (.devList iface)).toDev)

def findNextDevice (iface : HweIface) (device : Nat) (s : LinkedKernel w) : Except Fault (Option Nat) := do
  if (← s.next (.entry device)) = .devList iface then return none
  else return some (← (← s.next (.entry device)).toDev)

/-- The device found by a search in the list of an interface. -/
def findDev (test : DevRecord → Bool) (iface : HweIface) (s : LinkedKernel w) :
    Except Fault (Option Nat) := do
  match ← listFind (fun pos => do return test (← s.derefDev (← pos.toDev))) hweMaxDevices (.devList iface) s with
  | none => return none
  | some pos => return some (← pos.toDev)

def findDevice (iface : HweIface) (name : List UInt8) (s : LinkedKernel w) : Except Fault (Option Nat) :=
  findDev (fun d => d.name == name) iface s

def findDeviceByIndex (iface : HweIface) (index : Int) (s : LinkedKernel w) : Except Fault (Option Nat) :=
  findDev (fun d => (d.index : Int) == index) iface s

/-- The pair found by a search in the list of a device. -/
def findInPairs (test : Pair w → Bool) (dev : Nat) (s : LinkedKernel w) : Except Fault (Option Nat) := do
  match ← listFind (fun pos => do return test (← s.derefPair (← pos.toPair))) hweMaxPairs (.pairList dev) s with
  | none => return none
  | some pos => return some (← pos.toPair)

def findPair (dev : Nat) (request : List UInt8) (reqSize : Nat) (s : LinkedKernel w) :
    Except Fault (Option Nat) :=
  findInPairs (fun p => !p.asyncRx && p.req.length == reqSize && p.req == request.take reqSize) dev s

def getPairAtIndex (dev : Nat) (index : Nat) (s : LinkedKernel w) : Except Fault (Option Nat) :=
  findInPairs (fun p => index == p.index) dev s

def findResponse (dev : Nat) (request : List UInt8) (reqSize : Int) (s : LinkedKernel w) :
    Except Fault (Option Nat) :=
  findPair dev request (toSizeT reqSize) s

/-! ### Adding and removing devices -/

def addDev (kzalloc : Bool) (iface : HweIface) (index : Nat) (s : LinkedKernel w) :
    Except Fault (Option Nat × LinkedKernel w) := do
  if !kzalloc then return (none, s)
  else
    let (ret, s) := s.alloc
    let s := { s with devs := Function.update s.devs ret (some
      { name := []
        iface := iface
        index := index
        device := none
        pairsKobj := false
        pairsIndexes := 0 }) }
    let s := takeDevIndex iface index s
    let s ← initListHead (.pairList ret) s
    let s ← listAdd (.entry ret) (.devList iface) s
    return (some ret, s)

/-- `list_del(&dev->entry)`, the index given back and the memory freed. -/
def delDev (dev : Nat) (s : LinkedKernel w) : Except Fault (LinkedKernel w) := do
  let s ← listDel (.entry dev) s
  let d ← s.derefDev dev
  let s := putDevIndex d.iface d.index s
  return s.kfreeDev dev

def pairDelete (pair : Nat) (s : LinkedKernel w) : Except Fault (LinkedKernel w) := do
  let p ← s.derefPair pair
  let s ← s.modifyDev p.dev fun d => { d with pairsIndexes := Bitmap.clearBit p.index d.pairsIndexes }
  let s ← listDel (.pairEntry pair) s
  return s.kfreePair pair

/-- The rest of the `list_for_each_safe` of `clear_pairs`: `e` is the entry in turn, and `tmp` was read
from it before. -/
def clearPairsFrom (head : ListHead) : Nat → ListHead → ListHead → LinkedKernel w →
    Except Fault (LinkedKernel w)
  | 0, _, _, _ => .error .blocked
  | fuel + 1, e, tmp, s => do
      if e = head then return s
      else
        let s ← pairDelete (← e.toPair) s
        clearPairsFrom head fuel tmp (← s.next tmp) s

def clearPairs (dev : Nat) (s : LinkedKernel w) : Except Fault (LinkedKernel w) := do
  let e ← s.next (.pairList dev)
  let tmp ← s.next e
  clearPairsFrom (.pairList dev) (hweMaxPairs + 1) e tmp s

def createDevice (create : Bool) (s : LinkedKernel w) : Option Nat × LinkedKernel w :=
  if create then (some s.alloc.1, s.alloc.2) else (none, s)

def destroyIfCreated (device : Option Nat) (s : LinkedKernel w) : LinkedKernel w :=
  match device with
  | some priv => s.kfree priv
  | none => s

/-- Dropping the last reference to the kobject of the device frees the device. -/
def shutdownDev (dev : Nat) (s : LinkedKernel w) : Except Fault (LinkedKernel w) := do
  let d ← s.derefDev dev
  let s ← clearPairs dev (destroyIfCreated d.device s)
  let s ← listDel (.entry dev) s
  let d ← s.derefDev dev
  let s := putDevIndex d.iface d.index s
  return s.kfreeDev dev

/-! ### The operations on devices -/

def newDev (env : NewDevEnv) (iface : HweIface) (s : LinkedKernel w) :
    Except Fault (Option Nat × LinkedKernel w) :=
  match findFreeDevIndex iface s with
  | none => return (none, s)
  | some idx => do
    match ← addDev env.kzalloc iface idx s with
    | (none, s) => return (none, s)
    | (some ret, s) =>
      match createDevice env.create s with
      | (none, s) => return (none, ← delDev ret s)
      | (some priv, s) =>
          let s ← s.modifyDev ret fun d => { d with device := some priv }
          if env.kobjectInitAndAdd.isSome then return (none, ← shutdownDev ret s)
          else
            let s ← s.modifyDev ret fun d => { d with name := devName iface idx }
            if !env.kobjectCreateAndAdd then return (none, ← shutdownDev ret s)
            else return (some ret, ← s.modifyDev ret fun d => { d with pairsKobj := true })

def ifaceAddStore (iface : HweIface) (buf : List UInt8) (env : NewDevEnv) (s : LinkedKernel w) :
    Except Fault (Int × LinkedKernel w) :=
  if buf.length = 0 then return (-eio, s)
  else
    match strToIface (ifaceToStr iface) with
    | none => return (-eio, s)
    | some ifc => withLock ifc s fun s => do
        let (dev, s) ← newDev env ifc s
        return ((match dev with
          | none => -eio
          | some _ => toInt buf.length), s)

def hweAddDevice (iface : HweIface) (env : NewDevEnv) (s : LinkedKernel w) :
    Except Fault (Int × LinkedKernel w) :=
  withLock iface s fun s => do
    let (dev, s) ← newDev env iface s
    match dev with
    | none => return (-enodev, s)
    | some dev => return (((← s.derefDev dev).index : Int), s)

def ifaceUninstallStore (iface : HweIface) (buf : List UInt8) (s : LinkedKernel w) :
    Except Fault (Int × LinkedKernel w) :=
  if buf.length = 0 then return (-einval, s)
  else
    match strToIface (ifaceToStr iface) with
    | none => return (-einval, s)
    | some ifc =>
      let devName := copyWord buf 16
      if devName.length = 0 then return (-einval, s)
      else withLock ifc s fun s => do
        match ← findDevice ifc devName s with
        | none => return (-einval, s)
        | some dev => return (toInt buf.length, ← shutdownDev dev s)

def hweDeleteDevice (iface : HweIface) (devIndex : Int) (s : LinkedKernel w) :
    Except Fault (Int × LinkedKernel w) :=
  withLock iface s fun s => do
    match ← findDeviceByIndex iface devIndex s with
    | none => return (-enodev, s)
    | some dev => return (0, ← shutdownDev dev s)

/-! ### The operations on pairs -/

def hweGetPairCount (iface : HweIface) (devIndex : Int) (s : LinkedKernel w) :
    Except Fault (Int × LinkedKernel w) :=
  withLock iface s fun s => do
    match ← findDeviceByIndex iface devIndex s with
    | none => return (-enodev, s)
    | some dev => return ((Bitmap.weight (← s.derefDev dev).pairsIndexes : Int), s)

def hweGetPair (iface : HweIface) (devIndex _pairIndex idx : Int) (s : LinkedKernel w) :
    Except Fault ((Int × Option (List UInt8)) × LinkedKernel w) :=
  withLock iface s fun s => do
    match ← findDeviceByIndex iface devIndex s with
    | none => return ((-enodev, none), s)
    | some dev =>
      match ← findInPairs (fun pair => (pair.index : Int) == idx) dev s with
      | none => return ((-enoent, none), s)
      | some pair =>
          let str := pairToStr (← s.derefPair pair)
          return ((toInt str.length, some (scnprintf (hweMaxPairStr + 1) str)), s)

/-- What `dev_add_store` and `hwe_add_pair` have in common. -/
def addPair (HZ : Nat) (env : AddPairEnv w) (str : List UInt8) (dev : Option Nat) (s : LinkedKernel w) :
    Except Fault (AddPairResult w × LinkedKernel w) :=
  match env.kmalloc with
  | none => return (.outOfMemory, s)
  | some mem => do
      let (addr, s) := s.alloc
      let s := s.putPair { mem with addr := addr }
      match ← strToPair HZ str { mem with addr := addr } with
      | .error err => return (.invalid err, s.kfreePair addr)
      | .ok pair =>
        let s := s.putPair pair
        match dev with
        | none => .error .nullDeref
        | some dev =>
          let idx := Bitmap.findFirstZeroBit (← s.derefDev dev).pairsIndexes
          if idx = hweMaxPairs then return (.tooMany, s.kfreePair addr)
          else
            match ← findPair dev pair.req pair.req.length s with
            | some p => return (.duplicate (← s.derefPair p), s.kfreePair addr)
            | none =>
              let pair := { pair with
                dev := dev
                index := idx
                filename := scnprintf filenameSize (decimal idx) }
              let s := s.putPair pair
              match env.sysfsCreateFile with
              | some err => return (.createFailed err, s.kfreePair addr)
              | none =>
                  let s ← s.modifyDev dev fun d =>
                    { d with pairsIndexes := Bitmap.setBit idx d.pairsIndexes }
                  return (.added idx, ← listAddTail (.pairEntry addr) (.pairList dev) s)

def devAddStore (HZ : Nat) (dev : Nat) (buf : List UInt8) (env : AddPairEnv w) (s : LinkedKernel w) :
    Except Fault (Int × LinkedKernel w) := do
  let d ← s.derefDev dev
  withLock d.iface s fun s => do
    let (result, s) ← addPair HZ env buf (some dev) s
    return (result.storeRet buf.length, s)

def hweAddPair (HZ : Nat) (iface : HweIface) (devIndex : Int) (pairStr : List UInt8)
    (env : AddPairEnv w) (s : LinkedKernel w) : Except Fault (Int × LinkedKernel w) :=
  withLock iface s fun s => do
    let (result, s) ← addPair HZ env (cstr pairStr) (← findDeviceByIndex iface devIndex s) s
    return (result.ioctlRet, s)

def devDeleteStore (dev : Nat) (buf : List UInt8) (s : LinkedKernel w) :
    Except Fault (Int × LinkedKernel w) := do
  let d ← s.derefDev dev
  withLock d.iface s fun s => do
    if buf.length = 0 then return (-einval, s)
    else
      match kstrtouint buf with
      | none => return (-einval, s)
      | some index =>
        match ← getPairAtIndex dev index s with
        | none => return (-einval, s)
        | some pair => return ((buf.length : Int), ← pairDelete pair s)

def hweDeletePair (iface : HweIface) (devIndex pairIndex : Int) (s : LinkedKernel w) :
    Except Fault (Int × LinkedKernel w) :=
  withLock iface s fun s => do
    match ← findDeviceByIndex iface devIndex s with
    | none => return (-enodev, s)
    | some dev =>
      match ← getPairAtIndex dev (toSizeT pairIndex) s with
      | none => return (-enoent, s)
      | some pair => return (0, ← pairDelete pair s)

def devClearStore (dev : Nat) (buf : List UInt8) (s : LinkedKernel w) :
    Except Fault (Int × LinkedKernel w) := do
  if buf.length = 0 then return (-eio, s)
  else
    let d ← s.derefDev dev
    withLock d.iface s fun s => do return ((buf.length : Int), ← clearPairs dev s)

def hweClearPairs (iface : HweIface) (devIndex : Int) (s : LinkedKernel w) :
    Except Fault (Int × LinkedKernel w) :=
  withLock iface s fun s => do
    match ← findDeviceByIndex iface devIndex s with
    | none => return (-enodev, s)
    | some dev => return (0, ← clearPairs dev s)

/-! ### The read handlers -/

def devCountShow (dev : Nat) (s : LinkedKernel w) : Except Fault (List UInt8 × LinkedKernel w) := do
  let d ← s.derefDev dev
  withLock d.iface s fun s => do
    return (decimal (Bitmap.weight (← s.derefDev dev).pairsIndexes), s)

def pairShow (ifaceName devName filename : List UInt8) (s : LinkedKernel w) :
    Except Fault (List UInt8 × LinkedKernel w) :=
  match kstrtol w filename with
  | none => return (bytes "ERROR: invalid index '" ++ filename ++ bytes "'!", s)
  | some idx =>
    match strToIface ifaceName with
    | none => return (bytes "ERROR: invalid interface '" ++ ifaceName ++ bytes "'!", s)
    | some iface => do
      let (ret, s) ← withLock iface s fun s => do
        match ← findDevice iface devName s with
        | none => return (bytes "ERROR: device '" ++ devName ++ bytes "' not found!", s)
        | some dev =>
          match ← findInPairs (fun pair => (pair.index : Int) == idx) dev s with
          | none => return ([], s)
          | some pair => return (pairToStr (← s.derefPair pair), s)
      if ret ≠ [] then return (ret, s)
      else return (bytes "ERROR: pair with index " ++ decimalInt idx ++ bytes " not found!", s)

/-! ### The commands -/

def ioctlAddDevice (arg : Nat) (env : IoctlEnv w) (s : LinkedKernel w) :
    Except Fault (Int × LinkedKernel w) :=
  match HweIface.ofNat? arg with
  | none => return (-einval, s)
  | some iface => do
      let (idx, s) ← hweAddDevice iface env.newDev s
      return ((if idx < 0 then toInt idx else toInt (makeDevid iface idx)), s)

def ioctlDeleteDevice (arg : Nat) (s : LinkedKernel w) : Except Fault (Int × LinkedKernel w) :=
  match parseDevid arg with
  | none => return (-einval, s)
  | some (ifc, idx) => hweDeleteDevice ifc idx s

def ioctlPairCount (arg : Nat) (s : LinkedKernel w) : Except Fault (Int × LinkedKernel w) :=
  match parseDevid arg with
  | none => return (-einval, s)
  | some (ifc, idx) => hweGetPairCount ifc idx s

def ioctlReadPair (hp : HweioctlPair) (env : IoctlEnv w) (s : LinkedKernel w) :
    Except Fault ((Int × HweioctlPair) × LinkedKernel w) :=
  if !env.getDeviceId then return ((-efault, hp), s)
  else
    match parseDevid (toSizeT hp.deviceId.toInt) with
    | none => return ((-einval, hp), s)
    | some (ifc, devIdx) =>
      if !env.getPairIndex then return ((-efault, hp), s)
      else if !env.kmalloc then return ((-enomem, hp), s)
      else do
        let (pairStr, s) := s.alloc
        let ((ret, text), s) ← hweGetPair ifc devIdx hp.pairIndex.toInt env.idx s
        if ret > 0 then
          let copied := ((text.getD [] ++ [0]).take (ret + 1).toNat).take
            ((ret + 1).toNat - env.copyToUser)
          return (((if env.copyToUser ≠ 0 then -efault else 0), hp.copyTo copied), s.kfree pairStr)
        else return ((ret, hp), s.kfree pairStr)

def ioctlWritePair (HZ : Nat) (hp : HweioctlPair) (env : IoctlEnv w) (s : LinkedKernel w) :
    Except Fault ((Int × HweioctlPair) × LinkedKernel w) :=
  if !env.getDeviceId then return ((-efault, hp), s)
  else
    match parseDevid (toSizeT hp.deviceId.toInt) with
    | none => return ((-einval, hp), s)
    | some (ifc, devIdx) =>
      if !env.kmalloc then return ((-enomem, hp), s)
      else
        let (pairStr, s) := s.alloc
        if !env.copyFromUser then return ((-efault, hp), s)
        else do
          let text := hp.pair.take hweMaxPairStr ++ [0]
          let (ret, s) ← hweAddPair HZ ifc devIdx text env.addPair s
          let ret := toInt ret
          let s := s.kfree pairStr
          if ret < 0 then return ((ret, hp), s)
          else if !env.putPairIndex then return ((-efault, hp), s)
          else return ((0, hp.putPairIndex ret), s)

def ioctlDeletePair (hp : HweioctlPair) (env : IoctlEnv w) (s : LinkedKernel w) :
    Except Fault (Int × LinkedKernel w) :=
  if !env.getDeviceId then return (-efault, s)
  else
    match parseDevid (toSizeT hp.deviceId.toInt) with
    | none => return (-einval, s)
    | some (ifc, devIdx) =>
      if !env.getPairIndex then return (-efault, s)
      else hweDeletePair ifc devIdx hp.pairIndex.toInt s

def ioctlClearPairs (arg : Nat) (s : LinkedKernel w) : Except Fault (Int × LinkedKernel w) :=
  match parseDevid arg with
  | none => return (-einval, s)
  | some (ifc, devIdx) => hweClearPairs ifc devIdx s

def hwemuIoctl (HZ : Nat) (cmd arg : Nat) (hp : HweioctlPair) (env : IoctlEnv w) (s : LinkedKernel w) :
    Except Fault ((Int × HweioctlPair) × LinkedKernel w) := do
  match IoctlCmd.ofCode cmd with
  | .readPair => ioctlReadPair hp env s
  | .writePair => ioctlWritePair HZ hp env s
  | .addDevice =>
      let (ret, s) ← ioctlAddDevice arg env s
      return ((ret, hp), s)
  | .uninstallDevice =>
      let (ret, s) ← ioctlDeleteDevice arg s
      return ((ret, hp), s)
  | .pairCount =>
      let (ret, s) ← ioctlPairCount arg s
      return ((ret, hp), s)
  | .deletePair =>
      let (ret, s) ← ioctlDeletePair hp env s
      return ((ret, hp), s)
  | .clearPairs =>
      let (ret, s) ← ioctlClearPairs arg s
      return ((ret, hp), s)
  | .other => return ((-enotty, hp), s)

/-! ### The timer -/

/-- The rest of the loop over the pairs of a device, from the list head `pos` on. -/
def timerPairsFrom (jiff : BitVec w) (ifc : HweIface) (dev : Nat) :
    Nat → ListHead → LinkedKernel w → Except Fault (List (RxCall w) × LinkedKernel w)
  | 0, _, _ => .error .blocked
  | fuel + 1, pos, s => do
      if pos = .pairList dev then return ([], s)
      else
        let p ← s.derefPair (← pos.toPair)
        let (p, fired) := timerPair jiff p
        if fired then
          let s := s.putPair p
          let call : RxCall w := ⟨ifc, (← s.derefDev dev).device, p⟩
          let (calls, s) ← timerPairsFrom jiff ifc dev fuel (← s.next pos) s
          return (call :: calls, s)
        else timerPairsFrom jiff ifc dev fuel (← s.next pos) s

/-- The rest of the loop over the devices of an interface. -/
def timerDevsFrom (jiff : BitVec w) (ifc : HweIface) :
    Nat → Option Nat → LinkedKernel w → Except Fault (List (RxCall w) × LinkedKernel w)
  | 0, _, _ => .error .blocked
  | _ + 1, none, s => return ([], s)
  | fuel + 1, some dev, s => do
      let (calls, s) ← timerPairsFrom jiff ifc dev (hweMaxPairs + 1) (← s.next (.pairList dev)) s
      let (rest, s) ← timerDevsFrom jiff ifc fuel (← findNextDevice ifc dev s) s
      return (calls ++ rest, s)

def timerIface (jiff : BitVec w) (ifc : HweIface) (s : LinkedKernel w) :
    Except Fault (List (RxCall w) × LinkedKernel w) :=
  match tryLockIfaceDevs ifc s with
  | none => return ([], s)
  | some s => do
      let (calls, s) ← timerDevsFrom jiff ifc (hweMaxDevices + 1) (← findFirstDevice ifc s) s
      return (calls, unlockIfaceDevs ifc s)

def timerIfaces (jiff : BitVec w) :
    List HweIface → LinkedKernel w → Except Fault (List (RxCall w) × LinkedKernel w)
  | [], s => return ([], s)
  | ifc :: rest, s => do
      let (calls, s) ← timerIface jiff ifc s
      let (more, s) ← timerIfaces jiff rest s
      return (calls ++ more, s)

/-- `timer_func`, while operations hold the semaphores of the interfaces that are not `free`. -/
def timerTick (jiff : BitVec w) (free : HweIface → Bool) (s : LinkedKernel w) :
    Except Fault (List (RxCall w) × LinkedKernel w) := do
  let (calls, s') ← timerIfaces jiff HweIface.all
    { s with sems := fun ifc => if free ifc then s.sems ifc else 0 }
  return (calls, { s' with sems := s.sems })

/-! ### Loading and unloading -/

def initIface (iface : HweIface) (s : LinkedKernel w) : Except Fault (LinkedKernel w) := do
  let s ← initListHead (.devList iface) s
  return setSem iface 1 { s with devIndexes := Function.update s.devIndexes iface 0 }

def hweInitSysfs (s : LinkedKernel w) : Except Fault (LinkedKernel w) :=
  HweIface.all.foldlM (fun s iface => initIface iface s) s

/-- The loop of `cleanup_iface`. -/
def shutdownDevs (iface : HweIface) : Nat → LinkedKernel w → Except Fault (LinkedKernel w)
  | 0, _ => .error .blocked
  | fuel + 1, s => do
      if ← listEmpty (.devList iface) s then return s
      else shutdownDevs iface fuel (← shutdownDev (← (← s.next (.devList iface)).toDev) s)

def cleanupIface (iface : HweIface) (s : LinkedKernel w) : Except Fault (LinkedKernel w) :=
  shutdownDevs iface (hweMaxDevices + 1) s

def hweCleanupSysfs (s : LinkedKernel w) : Except Fault (LinkedKernel w) :=
  HweIface.all.reverse.foldlM (fun s iface => cleanupIface iface s) s

end Linked

/-- The memory before the module is set up: the list heads, the bitmaps and the semaphores hold what they
happen to hold. -/
def LinkedKernel.start (links : Links ListHead) (devIndexes : HweIface → BitVec hweMaxDevices)
    (sems : HweIface → Nat) : LinkedKernel w :=
  { links := links
    devs := fun _ => none
    pairs := fun _ => none
    devIndexes := devIndexes
    sems := sems
    heap := { next := 1, freed := [] } }

end Hwemu
