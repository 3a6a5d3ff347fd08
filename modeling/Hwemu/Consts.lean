import Mathlib.Algebra.Order.Ring.Int
import Mathlib.Data.List.Defs

/-!
# Constants, interfaces and machine integers

The constants of `hwe_consts.h`, the interfaces, the error codes, and the two conversions between
the C integer types that the code relies on. Texts and buffers are lists of bytes.
-/

namespace Hwemu

/-- Maximum length of a request, given the maximum sysfs file size. -/
def hweMaxRequest : Nat := (4096 - 1) / 4

/-- Maximum length of a response, given the maximum sysfs file size. -/
def hweMaxResponse : Nat := (4096 - 1) / 4

/-- Maximum length of a request-response string. -/
def hweMaxPairStr : Nat := hweMaxRequest * 2 + hweMaxResponse * 2 + 1

/-- Maximum number of key-value pairs that can be added to a device. -/
def hweMaxPairs : Nat := 1000

/-- Maximum number of devices per interface. -/
def hweMaxDevices : Nat := 256

def intMax : Nat := 2 ^ 31 - 1

def uintMax : Nat := 2 ^ 32 - 1

/-- Identifiers of the supported device types, in the order of `HWE_FOREACH_IFACE`. -/
inductive HweIface where
  | tty
  | i2c
  | net
  | spi
  deriving DecidableEq, Repr

namespace HweIface

/-- The value of the enumerator. -/
def toNat : HweIface → Nat
  | tty => 0
  | i2c => 1
  | net => 2
  | spi => 3

def ofNat? : Nat → Option HweIface
  | 0 => some tty
  | 1 => some i2c
  | 2 => some net
  | 3 => some spi
  | _ => none

/-- `HWE_IFACE_COUNT`. -/
def count : Nat := 4

/-- The loop `for (ifc = 0; ifc < HWE_IFACE_COUNT; ifc++)`. -/
def all : List HweIface := [tty, i2c, net, spi]

theorem mem_all (iface : HweIface) : iface ∈ all := by
  cases iface <;> decide

end HweIface

/-- What stops the kernel instead of returning: a null pointer dereference, an access outside a
buffer, a use of freed memory, and a wait for a semaphore that the caller itself never gets. -/
inductive Fault where
  | nullDeref
  | outOfBounds
  | useAfterFree
  | blocked
  deriving DecidableEq, Repr

/-- Error codes a kernel service may report: positive numbers up to `MAX_ERRNO`, returned
negated. -/
abbrev Errno := { n : Nat // 0 < n ∧ n ≤ 4095 }

def enoent : Int := 2
def eio : Int := 5
def e2big : Int := 7
def enomem : Int := 12
def efault : Int := 14
def eexist : Int := 17
def enodev : Int := 19
def einval : Int := 22
def enotty : Int := 25
def eopnotsupp : Int := 95

/-- `ENOMEM` as a kernel service reports it. -/
def Errno.enomem : Errno := ⟨12, Nat.succ_pos 11, Nat.le_of_ble_eq_true rfl⟩

/-- The characters of a C string literal as bytes. -/
def bytes (s : String) : List UInt8 := s.toList.map fun c => c.toUInt8

/-- Conversion to `int`. -/
def toInt (x : Int) : Int := x.bmod (2 ^ 32)

/-- Conversion to `size_t`. -/
def toSizeT (x : Int) : Nat := (x % 2 ^ 64).toNat

theorem toInt_of_le {n : Nat} (h : n ≤ intMax) : toInt (n : Int) = n := by
  unfold toInt
  unfold intMax at h
  exact Int.bmod_eq_of_le (by omega) (by omega)

theorem toInt_nonneg {n : Nat} (h : n ≤ intMax) : 0 ≤ toInt (n : Int) := by
  rw [toInt_of_le h]
  exact Int.natCast_nonneg n

theorem toSizeT_of_le {n : Nat} (h : n ≤ uintMax) : toSizeT (n : Int) = n := by
  unfold toSizeT
  unfold uintMax at h
  omega

theorem toInt_bounds (x : Int) : -(2 ^ 31) ≤ toInt x ∧ toInt x < 2 ^ 31 := by
  unfold toInt
  have hlow := Int.le_bmod (x := x) (m := 2 ^ 32) (by decide)
  have hhigh := Int.bmod_lt (x := x) (m := 2 ^ 32) (by decide)
  omega

end Hwemu
