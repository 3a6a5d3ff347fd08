import Hwemu.Sysfs
import Mathlib.Data.List.TakeWhile

/-!
# The read handlers

The functions of `hwe_sysfs.c` behind the files that can be read: the number of pairs of a device and
the pairs. The handler of a pair file is given the names of the file, of the device directory and of
the interface directory, and looks the pair up by them.
-/

namespace Hwemu

variable {w : Nat}

/-- The number that `_kstrtoull(s, 0, ..)` reads in base 10, 8 or 16 from a text that has at most one
newline after it; `none` for any error but an overflow. -/
def parseUnsigned (s : List UInt8) : Option Nat :=
  let (base, s) := fixupRadix s
  let digits := s.takeWhile fun c => (digitIn base c).isSome
  let rest := s.dropWhile fun c => (digitIn base c).isSome
  if digits = [] then none
  else if rest ≠ [] ∧ rest ≠ [10] then none
  else some (digits.foldl (fun acc c => acc * base + (digitIn base c).getD 0) 0)

/-- `kstrtol(s, 0, &res)`; `w` is the number of bits of `long`. -/
def kstrtol (w : Nat) (s : List UInt8) : Option Int :=
  match cstr s with
  | 45 :: s => (parseUnsigned s).bind fun n => if n ≤ 2 ^ (w - 1) then some (-(n : Int)) else none
  | 43 :: s => (parseUnsigned s).bind fun n => if n < 2 ^ (w - 1) then some (n : Int) else none
  | s => (parseUnsigned s).bind fun n => if n < 2 ^ (w - 1) then some (n : Int) else none

theorem digitIn_ten {d : Nat} (hd : d < 10) : digitIn 10 (UInt8.ofNat (48 + d)) = some d := by
  interval_cases d <;> decide

/-- The name of a pair file is read as the index it was printed from. -/
theorem kstrtol_decimal (w : Nat) {n : Nat} (hn : n < 2 ^ (w - 1)) : kstrtol w (decimal n) = some (n : Int) := by
  obtain ⟨ds, hne, hlt, hdec, _⟩ := decimal_eq n
  have hcstr : cstr (decimal n) = decimal n := by
    refine List.takeWhile_eq_self_iff.mpr fun c hc => ?_
    simpa using (ne_of_isDigit (isDigit_of_mem_decimal hc)).1
  have hparse : parseUnsigned (decimal n) = some n := by
    by_cases hzero : n = 0
    · subst hzero
      decide
    · have hradix : fixupRadix (decimal n) = (10, decimal n) := by
        have hhead := head?_decimal hzero
        unfold fixupRadix
        split
        · rename_i heq
          exact absurd (by rw [heq]; rfl) hhead
        · rename_i heq
          exact absurd (by rw [heq]; rfl) hhead
        · rfl
      have hdigit : ∀ c ∈ decimal n, (digitIn 10 c).isSome = true := by
        intro c hc
        rw [hdec] at hc
        obtain ⟨d, hd, rfl⟩ := List.mem_map.mp hc
        rw [digitIn_ten (hlt d hd)]
        rfl
      have htake : (decimal n).takeWhile (fun c => (digitIn 10 c).isSome) = decimal n :=
        List.takeWhile_eq_self_iff.mpr hdigit
      have hdrop : (decimal n).dropWhile (fun c => (digitIn 10 c).isSome) = [] :=
        List.dropWhile_eq_nil_iff.mpr hdigit
      have hvalue : (decimal n).foldl (fun acc c => acc * 10 + (digitIn 10 c).getD 0) 0 = n := by
        refine foldl_decimal (fun d hd => ?_) n
        rw [digitIn_ten hd]
        rfl
      unfold parseUnsigned
      simp only [hradix, htake, hdrop, decimal_ne_nil, if_false, ne_eq, not_true, false_and, hvalue]
  have hsign : ∀ c ∈ decimal n, c ≠ 45 ∧ c ≠ 43 := by
    intro c hc
    have hdigit := isDigit_of_mem_decimal hc
    constructor <;> rintro rfl <;> exact absurd hdigit (by decide)
  unfold kstrtol
  rw [hcstr]
  split
  · rename_i heq
    exact absurd rfl (hsign 45 (by rw [heq]; exact List.mem_cons_self)).1
  · rename_i heq
    exact absurd rfl (hsign 43 (by rw [heq]; exact List.mem_cons_self)).2
  · rw [hparse, Option.bind_some, if_pos hn]

/-- The digits `%ld` prints. -/
def decimalInt (n : Int) : List UInt8 :=
  if n < 0 then 45 :: decimal n.natAbs else decimal n.natAbs

def devCountShow (dev : Nat) (k : Kernel w) : Except Fault (List UInt8 × Kernel w) := do
  let d ← k.deref dev
  withLock d.iface k fun k => return (decimal (Bitmap.weight d.pairsIndexes), k)

def pairShow (ifaceName devName filename : List UInt8) (k : Kernel w) :
    Except Fault (List UInt8 × Kernel w) :=
  match kstrtol w filename with
  | none => return (bytes "ERROR: invalid index '" ++ filename ++ bytes "'!", k)
  | some idx =>
    match strToIface ifaceName with
    | none => return (bytes "ERROR: invalid interface '" ++ ifaceName ++ bytes "'!", k)
    | some iface => do
      let (ret, k) ← withLock iface k fun k =>
        match findDevice iface devName k with
        | none => return (bytes "ERROR: device '" ++ devName ++ bytes "' not found!", k)
        | some dev =>
          match dev.pairList.find? fun pair => (pair.index : Int) == idx with
          | none => return ([], k)
          | some pair => return (pairToStr pair, k)
      if ret ≠ [] then return (ret, k)
      else return (bytes "ERROR: pair with index " ++ decimalInt idx ++ bytes " not found!", k)

end Hwemu
