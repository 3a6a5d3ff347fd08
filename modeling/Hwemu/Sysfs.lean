import Hwemu.Store

/-!
# The store operations

The operations of `hwe_sysfs.c` on devices and pairs, those behind sysfs files and those behind the
ioctl interface. What the kernel services called on the way return is an argument of the operation.
A pair operation behind a sysfs file is given the address of the device it belongs to, one behind
the ioctl interface an interface and an index.
-/

namespace Hwemu

variable {w : Nat}

/-! ### Devices -/

/-- What the kernel services called by `new_dev` return. -/
structure NewDevEnv where
  kzalloc : Bool
  create : Bool
  kobjectInitAndAdd : Option Errno
  kobjectCreateAndAdd : Bool

/-- The directory name of a device: the interface name and the index. -/
def devName (iface : HweIface) (index : Nat) : List UInt8 := ifaceToStr iface ++ decimal index

def newDev (env : NewDevEnv) (iface : HweIface) (k : Kernel w) :
    Except Fault (Option (Dev w) × Kernel w) :=
  match findFreeDevIndex iface k with
  | none => return (none, k)
  | some idx =>
    match addDev env.kzalloc iface idx k with
    | (none, k) => return (none, k)
    | (some ret, k) =>
      match createDevice env.create k with
      | (none, k) => return (none, delDev ret k)
      | (some priv, k) => do
          let ret := { ret with device := some priv }
          let k := k.modifyDev ret.addr fun d => { d with device := some priv }
          if env.kobjectInitAndAdd.isSome then
            let k ← shutdownDev ret k
            return (none, k)
          else
            let ret := { ret with name := devName iface idx }
            let k := k.modifyDev ret.addr fun d => { d with name := devName iface idx }
            if !env.kobjectCreateAndAdd then
              let k ← shutdownDev ret k
              return (none, k)
            else
              let ret := { ret with pairsKobj := true }
              return (some ret, k.modifyDev ret.addr fun d => { d with pairsKobj := true })

/-- The write handler of the file `add` of an interface; only the number of bytes written counts, which is
returned as an `int`. -/
def ifaceAddStore (iface : HweIface) (buf : List UInt8) (env : NewDevEnv) (k : Kernel w) :
    Except Fault (Int × Kernel w) :=
  if buf.length = 0 then return (-eio, k)
  else
    match strToIface (ifaceToStr iface) with
    | none => return (-eio, k)
    | some ifc => withLock ifc k fun k => do
        let (dev, k) ← newDev env ifc k
        return ((match dev with
          | none => -eio
          | some _ => toInt buf.length), k)

def hweAddDevice (iface : HweIface) (env : NewDevEnv) (k : Kernel w) :
    Except Fault (Int × Kernel w) :=
  withLock iface k fun k => do
    let (dev, k) ← newDev env iface k
    return ((match dev with
      | none => -enodev
      | some dev => (dev.index : Int)), k)

/-- The first word of the buffer, as much of it as fits `dstLen` bytes with the terminating null. -/
def copyWord (src : List UInt8) (dstLen : Nat) : List UInt8 :=
  ((src.dropWhile isSpace).takeWhile fun c => c ≠ 0 && !isSpace c && isPrint c).take (dstLen - 1)

/-- The write handler of the file `uninstall` of an interface; it returns the number of bytes as an `int`. -/
def ifaceUninstallStore (iface : HweIface) (buf : List UInt8) (k : Kernel w) :
    Except Fault (Int × Kernel w) :=
  if buf.length = 0 then return (-einval, k)
  else
    match strToIface (ifaceToStr iface) with
    | none => return (-einval, k)
    | some ifc =>
      let devName := copyWord buf 16
      if devName.length = 0 then return (-einval, k)
      else withLock ifc k fun k =>
        match findDevice ifc devName k with
        | none => return (-einval, k)
        | some dev => do
            let k ← shutdownDev dev k
            return (toInt buf.length, k)

def hweDeleteDevice (iface : HweIface) (devIndex : Int) (k : Kernel w) :
    Except Fault (Int × Kernel w) :=
  withLock iface k fun k =>
    match findDeviceByIndex iface devIndex k with
    | none => return (-enodev, k)
    | some dev => do
        let k ← shutdownDev dev k
        return (0, k)

/-! ### Reading pairs -/

def hweGetPairCount (iface : HweIface) (devIndex : Int) (k : Kernel w) :
    Except Fault (Int × Kernel w) :=
  withLock iface k fun k =>
    match findDeviceByIndex iface devIndex k with
    | none => return (-enodev, k)
    | some dev => return ((Bitmap.weight dev.pairsIndexes : Int), k)

/-- Returns the result and what was printed into the caller's buffer, if anything. The loop
compares the index of each pair with the local variable `idx`, to which nothing was assigned; the
argument `pair_index` is not used. -/
def hweGetPair (iface : HweIface) (devIndex _pairIndex idx : Int) (k : Kernel w) :
    Except Fault ((Int × Option (List UInt8)) × Kernel w) :=
  withLock iface k fun k =>
    match findDeviceByIndex iface devIndex k with
    | none => return ((-enodev, none), k)
    | some dev =>
      match dev.pairList.find? fun pair => (pair.index : Int) == idx with
      | none => return ((-enoent, none), k)
      | some pair =>
          let str := pairToStr pair
          return ((toInt str.length, some (scnprintf (hweMaxPairStr + 1) str)), k)

/-! ### Adding pairs -/

/-- The size of the field `filename`: the digits of `HWE_MAX_PAIRS` and a null. -/
def filenameSize : Nat := (bytes "1000").length + 1

/-- What the kernel services called while a pair is added return: the memory for the pair, with
whatever it holds, and the error of `sysfs_create_file`. -/
structure AddPairEnv (w : Nat) where
  kmalloc : Option (Pair w)
  sysfsCreateFile : Option Errno

/-- How far an attempt to add a pair got. -/
inductive AddPairResult (w : Nat) where
  | outOfMemory
  | invalid (err : String)
  | tooMany
  | duplicate (p : Pair w)
  | createFailed (err : Errno)
  | added (idx : Nat)

/-- What `dev_add_store` returns for `count` bytes written. -/
def AddPairResult.storeRet (count : Nat) : AddPairResult w → Int
  | outOfMemory => -einval
  | invalid _ => -einval
  | tooMany => -einval
  | duplicate _ => -einval
  | createFailed err => -((err : Nat) : Int)
  | added _ => count

/-- What `hwe_add_pair` returns. -/
def AddPairResult.ioctlRet : AddPairResult w → Int
  | outOfMemory => -enomem
  | invalid _ => -einval
  | tooMany => -e2big
  | duplicate _ => -eexist
  | createFailed err => -((err : Nat) : Int)
  | added idx => idx

/-- The checks and the insertion that `dev_add_store` and `hwe_add_pair` have in common. `dev` is
the pointer to the device, which `hwe_add_pair` does not check; it is followed only when the text
has been parsed. -/
def addPair (HZ : Nat) (env : AddPairEnv w) (str : List UInt8) (dev : Option (Dev w)) (k : Kernel w) :
    Except Fault (AddPairResult w × Kernel w) :=
  match env.kmalloc with
  | none => return (.outOfMemory, k)
  | some mem => do
      let (addr, k) := k.alloc
      match ← strToPair HZ str { mem with addr := addr } with
      | .error err => return (.invalid err, k.kfree addr)
      | .ok pair =>
        match dev with
        | none => .error .nullDeref
        | some dev =>
          let idx := Bitmap.findFirstZeroBit dev.pairsIndexes
          if idx = hweMaxPairs then return (.tooMany, k.kfree addr)
          else
            match findPair dev.pairList pair.req pair.req.length with
            | some p => return (.duplicate p, k.kfree addr)
            | none =>
              let pair := { pair with
                dev := dev.addr
                index := idx
                filename := scnprintf filenameSize (decimal idx) }
              match env.sysfsCreateFile with
              | some err => return (.createFailed err, k.kfree addr)
              | none => return (.added idx, k.modifyDev dev.addr fun d => { d with
                  pairsIndexes := Bitmap.setBit idx d.pairsIndexes
                  pairList := d.pairList ++ [pair] })

/-- The write handler of the file `add` of a device. -/
def devAddStore (HZ : Nat) (dev : Nat) (buf : List UInt8) (env : AddPairEnv w) (k : Kernel w) :
    Except Fault (Int × Kernel w) := do
  let d ← k.deref dev
  withLock d.iface k fun k => do
    let (result, k) ← addPair HZ env buf (some d) k
    return (result.storeRet buf.length, k)

def hweAddPair (HZ : Nat) (iface : HweIface) (devIndex : Int) (pairStr : List UInt8)
    (env : AddPairEnv w) (k : Kernel w) : Except Fault (Int × Kernel w) :=
  withLock iface k fun k => do
    let (result, k) ← addPair HZ env (cstr pairStr) (findDeviceByIndex iface devIndex k) k
    return (result.ioctlRet, k)

/-! ### Deleting pairs -/

/-- The write handler of the file `delete` of a device. -/
def devDeleteStore (dev : Nat) (buf : List UInt8) (k : Kernel w) : Except Fault (Int × Kernel w) := do
  let d ← k.deref dev
  withLock d.iface k fun k =>
    if buf.length = 0 then return (-einval, k)
    else
      match kstrtouint buf with
      | none => return (-einval, k)
      | some index =>
        match getPairAtIndex d.pairList index with
        | none => return (-einval, k)
        | some pair => do
            let k ← pairDelete d.addr pair k
            return ((buf.length : Int), k)

def hweDeletePair (iface : HweIface) (devIndex pairIndex : Int) (k : Kernel w) :
    Except Fault (Int × Kernel w) :=
  withLock iface k fun k =>
    match findDeviceByIndex iface devIndex k with
    | none => return (-enodev, k)
    | some dev =>
      match getPairAtIndex dev.pairList (toSizeT pairIndex) with
      | none => return (-enoent, k)
      | some pair => do
          let k ← pairDelete dev.addr pair k
          return (0, k)

/-- The write handler of the file `clear` of a device. -/
def devClearStore (dev : Nat) (buf : List UInt8) (k : Kernel w) : Except Fault (Int × Kernel w) :=
  if buf.length = 0 then return (-eio, k)
  else do
    let d ← k.deref dev
    withLock d.iface k fun k => do
      let k ← clearPairs d k
      return ((buf.length : Int), k)

def hweClearPairs (iface : HweIface) (devIndex : Int) (k : Kernel w) :
    Except Fault (Int × Kernel w) :=
  withLock iface k fun k =>
    match findDeviceByIndex iface devIndex k with
    | none => return (-enodev, k)
    | some dev => do
        let k ← clearPairs dev k
        return (0, k)

end Hwemu
