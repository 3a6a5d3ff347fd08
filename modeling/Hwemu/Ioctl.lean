import Hwemu.Sysfs
import Mathlib.Data.UInt

/-!
# The ioctl interface

The commands of `hwe_ioctl.c`. The argument of a command is a number or the address of a structure
in user memory; the structure is passed along with the argument and returned as the command leaves
it. Whether each access to user memory succeeds is decided by the environment.
-/

namespace Hwemu

variable {w : Nat}

/-- `struct hweioctl_pair`, in user memory. -/
structure HweioctlPair where
  deviceId : Int32
  pairIndex : Int32
  pair : List UInt8
  length_pair : pair.length = hweMaxPairStr + 1

/-- A copy of `text` to the start of the field `pair`. -/
def HweioctlPair.copyTo (hp : HweioctlPair) (text : List UInt8) : HweioctlPair :=
  { hp with
    pair := text.take (hweMaxPairStr + 1) ++ hp.pair.drop text.length
    length_pair := by
      have hlen := hp.length_pair
      simp only [List.length_append, List.length_take, List.length_drop]
      omega }

def HweioctlPair.putPairIndex (hp : HweioctlPair) (index : Int) : HweioctlPair :=
  { hp with pairIndex := Int32.ofInt index }

/-- What the accesses to user memory and the kernel services return. `copyToUser` is the number of
bytes that could not be copied, and `idx` the value of the variable `hwe_get_pair` does not set. -/
structure IoctlEnv (w : Nat) where
  getDeviceId : Bool
  getPairIndex : Bool
  kmalloc : Bool
  copyFromUser : Bool
  copyToUser : Nat
  putPairIndex : Bool
  idx : Int
  newDev : NewDevEnv
  addPair : AddPairEnv w

def makeDevid (iface : HweIface) (index : Int) : Int := (iface.toNat : Int) * 2 ^ 24 + index

/-- Splits an `unsigned long`; the interface number is kept in an `unsigned`. -/
def parseDevid (devid : Nat) : Option (HweIface × Nat) :=
  let ifc := devid / 2 ^ 24 % 2 ^ 32
  let idx := devid % 2 ^ 24
  if ifc ≥ HweIface.count ∨ idx ≥ hweMaxDevices then none
  else (HweIface.ofNat? ifc).map fun iface => (iface, idx)

def ioctlAddDevice (arg : Nat) (env : IoctlEnv w) (k : Kernel w) : Except Fault (Int × Kernel w) :=
  match HweIface.ofNat? arg with
  | none => return (-einval, k)
  | some iface => do
      let (idx, k) ← hweAddDevice iface env.newDev k
      return ((if idx < 0 then toInt idx else toInt (makeDevid iface idx)), k)

def ioctlDeleteDevice (arg : Nat) (k : Kernel w) : Except Fault (Int × Kernel w) :=
  match parseDevid arg with
  | none => return (-einval, k)
  | some (ifc, idx) => hweDeleteDevice ifc idx k

def ioctlPairCount (arg : Nat) (k : Kernel w) : Except Fault (Int × Kernel w) :=
  match parseDevid arg with
  | none => return (-einval, k)
  | some (ifc, idx) => hweGetPairCount ifc idx k

def ioctlReadPair (hp : HweioctlPair) (env : IoctlEnv w) (k : Kernel w) :
    Except Fault ((Int × HweioctlPair) × Kernel w) :=
  if !env.getDeviceId then return ((-efault, hp), k)
  else
    match parseDevid (toSizeT hp.deviceId.toInt) with
    | none => return ((-einval, hp), k)
    | some (ifc, devIdx) =>
      if !env.getPairIndex then return ((-efault, hp), k)
      else if !env.kmalloc then return ((-enomem, hp), k)
      else do
        let (pairStr, k) := k.alloc
        let ((ret, text), k) ← hweGetPair ifc devIdx hp.pairIndex.toInt env.idx k
        if ret > 0 then
          let copied := ((text.getD [] ++ [0]).take (ret + 1).toNat).take
            ((ret + 1).toNat - env.copyToUser)
          return (((if env.copyToUser ≠ 0 then -efault else 0), hp.copyTo copied), k.kfree pairStr)
        else return ((ret, hp), k.kfree pairStr)

/-- The buffer stays allocated when the text cannot be copied from user memory. -/
def ioctlWritePair (HZ : Nat) (hp : HweioctlPair) (env : IoctlEnv w) (k : Kernel w) :
    Except Fault ((Int × HweioctlPair) × Kernel w) :=
  if !env.getDeviceId then return ((-efault, hp), k)
  else
    match parseDevid (toSizeT hp.deviceId.toInt) with
    | none => return ((-einval, hp), k)
    | some (ifc, devIdx) =>
      if !env.kmalloc then return ((-enomem, hp), k)
      else
        let (pairStr, k) := k.alloc
        if !env.copyFromUser then return ((-efault, hp), k)
        else do
          let text := hp.pair.take hweMaxPairStr ++ [0]
          let (ret, k) ← hweAddPair HZ ifc devIdx text env.addPair k
          let ret := toInt ret
          let k := k.kfree pairStr
          if ret < 0 then return ((ret, hp), k)
          else if !env.putPairIndex then return ((-efault, hp), k)
          else return ((0, hp.putPairIndex ret), k)

def ioctlDeletePair (hp : HweioctlPair) (env : IoctlEnv w) (k : Kernel w) :
    Except Fault (Int × Kernel w) :=
  if !env.getDeviceId then return (-efault, k)
  else
    match parseDevid (toSizeT hp.deviceId.toInt) with
    | none => return (-einval, k)
    | some (ifc, devIdx) =>
      if !env.getPairIndex then return (-efault, k)
      else hweDeletePair ifc devIdx hp.pairIndex.toInt k

def ioctlClearPairs (arg : Nat) (k : Kernel w) : Except Fault (Int × Kernel w) :=
  match parseDevid arg with
  | none => return (-einval, k)
  | some (ifc, devIdx) => hweClearPairs ifc devIdx k

/-- The commands; `other` stands for every number that is none of theirs. -/
inductive IoctlCmd where
  | addDevice
  | uninstallDevice
  | pairCount
  | readPair
  | writePair
  | deletePair
  | clearPairs
  | other
  deriving DecidableEq, Repr

def hweioctlMagic : Nat := 0xFAECE500

/-- The `switch` on the command number. -/
def IoctlCmd.ofCode (cmd : Nat) : IoctlCmd :=
  if cmd = hweioctlMagic + 1 then addDevice
  else if cmd = hweioctlMagic + 2 then uninstallDevice
  else if cmd = hweioctlMagic + 3 then pairCount
  else if cmd = hweioctlMagic + 4 then readPair
  else if cmd = hweioctlMagic + 5 then writePair
  else if cmd = hweioctlMagic + 6 then deletePair
  else if cmd = hweioctlMagic + 7 then clearPairs
  else other

/-- `hwemu_ioctl`. `arg` is the argument as a number and `hp` what it points at. -/
def hwemuIoctl (HZ : Nat) (cmd arg : Nat) (hp : HweioctlPair) (env : IoctlEnv w) (k : Kernel w) :
    Except Fault ((Int × HweioctlPair) × Kernel w) := do
  match IoctlCmd.ofCode cmd with
  | .readPair => ioctlReadPair hp env k
  | .writePair => ioctlWritePair HZ hp env k
  | .addDevice =>
      let (ret, k) ← ioctlAddDevice arg env k
      return ((ret, hp), k)
  | .uninstallDevice =>
      let (ret, k) ← ioctlDeleteDevice arg k
      return ((ret, hp), k)
  | .pairCount =>
      let (ret, k) ← ioctlPairCount arg k
      return ((ret, hp), k)
  | .deletePair =>
      let (ret, k) ← ioctlDeletePair hp env k
      return ((ret, hp), k)
  | .clearPairs =>
      let (ret, k) ← ioctlClearPairs arg k
      return ((ret, hp), k)
  | .other => return ((-enotty, hp), k)

end Hwemu
