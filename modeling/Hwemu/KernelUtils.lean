import Hwemu.Consts
import Mathlib.Data.Bool.AllAny
import Mathlib.Data.Nat.Digits.Lemmas
import Mathlib.Data.UInt

/-!
# The kernel's character and string helpers

The library functions the code calls, on byte lists. A pointer into a buffer is the list of the
bytes from it to the end of the buffer, so reading through a pointer that has reached the end is a
`Fault`. The hexadecimal codec is the one of `tests/kernel_utils.c`.
-/

namespace Hwemu

/-! ### Character classes (the kernel's own table, Latin-1 letters included) -/

def isDigit (c : UInt8) : Bool := 48 ≤ c && c ≤ 57

def isXDigit (c : UInt8) : Bool := isDigit c || (65 ≤ c && c ≤ 70) || (97 ≤ c && c ≤ 102)

def isUpper (c : UInt8) : Bool := (65 ≤ c && c ≤ 90) || (192 ≤ c && c ≤ 222 && c != 215)

def isLower (c : UInt8) : Bool := (97 ≤ c && c ≤ 122) || (223 ≤ c && c != 247)

def isAlpha (c : UInt8) : Bool := isUpper c || isLower c

def isSpace (c : UInt8) : Bool := (9 ≤ c && c ≤ 13) || c == 32 || c == 160

def isPrint (c : UInt8) : Bool := (32 ≤ c && c ≤ 126) || 160 ≤ c

def toLower (c : UInt8) : UInt8 := if isUpper c then c + 32 else c

/-! ### The hexadecimal codec -/

def hexAsc : List UInt8 := bytes "0123456789abcdef"

def hexAscHi (byte : UInt8) : UInt8 := hexAsc.getD (byte >>> 4).toNat 0

def hexAscLo (byte : UInt8) : UInt8 := hexAsc.getD (byte &&& 0x0f).toNat 0

/-- The value of a hexadecimal digit; `none` is the C function's `-1`. -/
def hexToBin (ch : UInt8) : Option UInt8 :=
  if 48 ≤ ch && ch ≤ 57 then some (ch - 48)
  else
    let ch := toLower ch
    if 97 ≤ ch && ch ≤ 102 then some (ch - 97 + 10) else none

/-- `hex2bin(dst, src, count)` into a destination with room for `room` bytes. `none` is `-EINVAL`:
a bad digit. The bytes written before it are not returned, for no caller looks at them. -/
def hex2bin : Nat → List UInt8 → Nat → Except Fault (Option (List UInt8))
  | _, _, 0 => .ok (some [])
  | room, hi :: lo :: src, count + 1 =>
      match hexToBin hi, hexToBin lo with
      | some h, some l =>
          match room with
          | 0 => .error .outOfBounds
          | room + 1 => do
              let rest ← hex2bin room src count
              return rest.map fun dst => (h <<< 4 ||| l) :: dst
      | _, _ => .ok none
  | _, _, _ + 1 => .error .outOfBounds

def bin2hex (src : List UInt8) : List UInt8 := src.flatMap fun byte => [hexAscHi byte, hexAscLo byte]

/-! ### Searching and comparing -/

/-- `strnchr(s, count, c)`, the position of the character found. -/
def strnchr : List UInt8 → Nat → UInt8 → Except Fault (Option Nat)
  | _, 0, _ => .ok none
  | [], _ + 1, _ => .error .outOfBounds
  | x :: s, count + 1, c =>
      if x = c then .ok (some 0)
      else if x = 0 then .ok none
      else do
        let pos ← strnchr s count c
        return pos.map (· + 1)

/-- `strncmp(lit, s, strlen(lit)) == 0` for a literal `lit`. -/
def hasPrefix : List UInt8 → List UInt8 → Except Fault Bool
  | [], _ => .ok true
  | _ :: _, [] => .error .outOfBounds
  | a :: lit, b :: s => if a = b then hasPrefix lit s else .ok false

/-- The byte a pointer points at. -/
def deref : List UInt8 → Except Fault UInt8
  | [] => .error .outOfBounds
  | c :: _ => .ok c

/-- The text before the terminating null, which the memory after the list provides. -/
def cstr (s : List UInt8) : List UInt8 := s.takeWhile fun c => c ≠ 0

/-! ### Numbers -/

def digitValue (c : UInt8) : Nat := c.toNat - 48

/-- `simple_strtoull(s, &ep, 10)` from a partial result on: the number modulo `2^64`, and `ep`. -/
def simpleStrtoullFrom : Nat → List UInt8 → Except Fault (Nat × List UInt8)
  | _, [] => .error .outOfBounds
  | acc, c :: s =>
      if isDigit c then simpleStrtoullFrom ((acc * 10 + digitValue c) % 2 ^ 64) s
      else .ok (acc, c :: s)

def simpleStrtoull (s : List UInt8) : Except Fault (Nat × List UInt8) := simpleStrtoullFrom 0 s

/-- The decimal digits `%u` and `%ld` print for a number that is not negative. -/
def decimal (n : Nat) : List UInt8 :=
  if n = 0 then [48] else (Nat.digits 10 n).reverse.map fun d => UInt8.ofNat (48 + d)

/-- `scnprintf(buf, size, ..)` for an already formatted text: as much of it as fits before the
terminating null. -/
def scnprintf (size : Nat) (text : List UInt8) : List UInt8 := text.take (size - 1)

/-- The value of a digit in any base up to 16, `none` for any other character. -/
def digitIn (base : Nat) (c : UInt8) : Option Nat :=
  match hexToBin c with
  | some v => if v.toNat < base then some v.toNat else none
  | none => none

/-- The base `kstrtouint(s, 0, ..)` settles on, and the text after the base prefix. -/
def fixupRadix (s : List UInt8) : Nat × List UInt8 :=
  match s with
  | 48 :: x :: d :: rest => if toLower x = 120 && isXDigit d then (16, d :: rest) else (8, s)
  | 48 :: _ => (8, s)
  | _ => (10, s)

/-- `kstrtouint(s, 0, &res)`: an optional `+`, a number in base 10, 8 or 16 and at most one
newline, up to the terminating null; `none` for any error. -/
def kstrtouint (s : List UInt8) : Option Nat :=
  let s := cstr s
  let s := if s.head? = some 43 then s.tail else s
  let (base, s) := fixupRadix s
  let digits := s.takeWhile fun c => (digitIn base c).isSome
  let rest := s.dropWhile fun c => (digitIn base c).isSome
  let value := digits.foldl (fun acc c => acc * base + (digitIn base c).getD 0) 0
  if digits = [] then none
  else if rest ≠ [] ∧ rest ≠ [10] then none
  else if uintMax < value then none
  else some value

/-! ### What the helpers do on well-formed text -/

/-- A property of bytes is checked on the 256 values. -/
theorem forall_byte {P : UInt8 → Prop} (h : ∀ n : Fin 256, P (UInt8.ofNat n.val)) (b : UInt8) :
    P b := by
  have hb := h ⟨b.toNat, b.toNat_lt⟩
  simpa using hb

theorem hexToBin_hexAscHi (b : UInt8) : hexToBin (hexAscHi b) = some (b >>> 4) := by
  revert b
  exact forall_byte (by decide +kernel)

theorem hexToBin_hexAscLo (b : UInt8) : hexToBin (hexAscLo b) = some (b &&& 0x0f) := by
  revert b
  exact forall_byte (by decide +kernel)

theorem nibbles_or (b : UInt8) : (b >>> 4) <<< 4 ||| (b &&& 0x0f) = b := by
  revert b
  exact forall_byte (by decide +kernel)

theorem isXDigit_hexAsc (b : UInt8) :
    isXDigit (hexAscHi b) = true ∧ isXDigit (hexAscLo b) = true := by
  revert b
  exact forall_byte (by decide +kernel)

theorem ne_of_isXDigit {c : UInt8} (h : isXDigit c = true) : c ≠ 0 ∧ c ≠ 10 ∧ c ≠ 61 := by
  refine ⟨?_, ?_, ?_⟩ <;> rintro rfl <;> exact absurd h (by decide)

@[simp]
theorem length_bin2hex (src : List UInt8) : (bin2hex src).length = 2 * src.length := by
  induction src with
  | nil => rfl
  | cons b src ih =>
      have hcons : bin2hex (b :: src) = hexAscHi b :: hexAscLo b :: bin2hex src := rfl
      simp only [hcons, List.length_cons, ih]
      omega

theorem isXDigit_of_mem_bin2hex {src : List UInt8} {c : UInt8} (h : c ∈ bin2hex src) :
    isXDigit c = true := by
  obtain ⟨b, _, hc⟩ := List.mem_flatMap.mp h
  rcases List.mem_pair.mp hc with rfl | rfl
  · exact (isXDigit_hexAsc b).1
  · exact (isXDigit_hexAsc b).2

/-- The bytes that pairs of hexadecimal digits stand for. -/
def fromHex : List UInt8 → List UInt8
  | hi :: lo :: src => ((hexToBin hi).getD 0 <<< 4 ||| (hexToBin lo).getD 0) :: fromHex src
  | _ => []

theorem hexToBin_of_isXDigit {c : UInt8} (h : isXDigit c = true) : hexToBin c = some ((hexToBin c).getD 0) := by
  revert h
  exact forall_byte (P := fun c => isXDigit c = true → hexToBin c = some ((hexToBin c).getD 0))
    (by decide +kernel) c

/-- Hexadecimal digits are read, whatever follows. -/
theorem hex2bin_eq {src : List UInt8} (rest : List UInt8) {count room : Nat}
    (hdigits : ∀ c ∈ src, isXDigit c = true) (hlen : src.length = 2 * count) (hroom : count ≤ room) :
    hex2bin room (src ++ rest) count = .ok (some (fromHex src)) := by
  induction count generalizing room src with
  | zero =>
      obtain rfl : src = [] := List.length_eq_zero_iff.mp (by omega)
      cases room <;> rfl
  | succ count ih =>
      obtain ⟨room, rfl⟩ : ∃ r, room = r + 1 := ⟨room - 1, by omega⟩
      match src with
      | [] => simp at hlen
      | [_] => simp only [List.length_singleton] at hlen; omega
      | hi :: lo :: src =>
          simp only [List.forall_mem_cons] at hdigits
          simp only [List.length_cons] at hlen
          have hrest := @ih src room hdigits.2.2 (by omega) (by omega)
          rw [List.cons_append, List.cons_append, hex2bin, hexToBin_of_isXDigit hdigits.1,
            hexToBin_of_isXDigit hdigits.2.1]
          simp only [hrest, fromHex]
          rfl

/-- **The codec round trip.** What `bin2hex` prints stands for what was printed. -/
theorem fromHex_bin2hex (src : List UInt8) : fromHex (bin2hex src) = src := by
  induction src with
  | nil => rfl
  | cons b src ih =>
      have hcons : bin2hex (b :: src) = hexAscHi b :: hexAscLo b :: bin2hex src := rfl
      rw [hcons, fromHex, hexToBin_hexAscHi, hexToBin_hexAscLo, Option.getD_some, Option.getD_some,
        nibbles_or, ih]

/-- What `hex2bin` returns has the length asked for and fits the destination. -/
theorem length_of_hex2bin {room count : Nat} {src dst : List UInt8}
    (h : hex2bin room src count = .ok (some dst)) : dst.length = count ∧ count ≤ room := by
  induction count generalizing room src dst with
  | zero =>
      have hdst : dst = [] := by
        cases room <;> simpa [hex2bin, eq_comm] using h
      simp [hdst]
  | succ count ih =>
      match src with
      | [] => simp [hex2bin] at h
      | [_] => simp [hex2bin] at h
      | hi :: lo :: src =>
          rw [hex2bin] at h
          split at h
          · cases room with
            | zero => simp at h
            | succ room =>
                cases hrec : hex2bin room src count with
                | error f => simp [hrec, bind, Except.bind] at h
                | ok res =>
                    cases res with
                    | none => simp [hrec, bind, Except.bind, pure, Except.pure] at h
                    | some tail =>
                        simp only [hrec, bind, Except.bind, pure, Except.pure, Option.map_some,
                          Except.ok.injEq, Option.some.injEq] at h
                        obtain ⟨hlen, hle⟩ := ih hrec
                        subst h
                        exact ⟨by simp [hlen], by omega⟩
          · simp at h

theorem strnchr_append {key : List UInt8} (rest : List UInt8) {c : UInt8} {count : Nat}
    (hkey : ∀ x ∈ key, x ≠ c ∧ x ≠ 0) (hcount : key.length < count) :
    strnchr (key ++ c :: rest) count c = .ok (some key.length) := by
  induction key generalizing count with
  | nil =>
      obtain ⟨n, rfl⟩ : ∃ n, count = n + 1 := ⟨count - 1, by simp at hcount; omega⟩
      simp [strnchr]
  | cons x key ih =>
      obtain ⟨n, rfl⟩ : ∃ n, count = n + 1 := ⟨count - 1, by simp at hcount; omega⟩
      obtain ⟨hx, hx0⟩ := hkey x List.mem_cons_self
      have htail := @ih n (fun y hy => hkey y (List.mem_cons_of_mem x hy)) (by simpa using hcount)
      rw [List.cons_append, strnchr, if_neg hx, if_neg hx0, htail]
      rfl

theorem strnchr_none {s : List UInt8} {c : UInt8} (hs : ∀ x ∈ s, x ≠ c ∧ x ≠ 0) :
    strnchr s s.length c = .ok none := by
  induction s with
  | nil => rfl
  | cons x s ih =>
      obtain ⟨hx, hx0⟩ := hs x List.mem_cons_self
      have htail := ih fun y hy => hs y (List.mem_cons_of_mem x hy)
      rw [List.length_cons, strnchr, if_neg hx, if_neg hx0, htail]
      rfl

/-- What stands before the first character that has not a property is determined. -/
theorem append_cons_inj_of_all {P : UInt8 → Bool} {l l' t t' : List UInt8} {c c' : UInt8}
    (hl : ∀ x ∈ l, P x = true) (hl' : ∀ x ∈ l', P x = true) (hc : P c = false) (hc' : P c' = false)
    (h : l ++ c :: t = l' ++ c' :: t') : l = l' ∧ c :: t = c' :: t' := by
  have htake : ∀ (l t : List UInt8) (c : UInt8), (∀ x ∈ l, P x = true) → P c = false →
      (l ++ c :: t).takeWhile P = l := by
    intro l t c hl hc
    rw [List.takeWhile_append_of_pos hl, List.takeWhile_cons_of_neg (by simp [hc]), List.append_nil]
  obtain rfl : l = l' := by rw [← htake l t c hl hc, h, htake l' t' c' hl' hc']
  exact ⟨rfl, List.append_cancel_left h⟩

theorem append_cons_inj {c : UInt8} {l l' t t' : List UInt8} (hl : ∀ x ∈ l, x ≠ c) (hl' : ∀ x ∈ l', x ≠ c)
    (h : l ++ c :: t = l' ++ c :: t') : l = l' ∧ t = t' := by
  have hsplit := append_cons_inj_of_all (P := fun x => x != c) (by simpa using hl) (by simpa using hl')
    (by simp) (by simp) h
  exact ⟨hsplit.1, (List.cons.inj hsplit.2).2⟩

theorem hasPrefix_append (lit rest : List UInt8) : hasPrefix lit (lit ++ rest) = .ok true := by
  induction lit with
  | nil => rfl
  | cons a lit ih => simpa [hasPrefix] using ih

/-! ### Decimal numbers -/

theorem digit_spec {d : Nat} (hd : d < 10) :
    isDigit (UInt8.ofNat (48 + d)) = true ∧ digitValue (UInt8.ofNat (48 + d)) = d := by
  interval_cases d <;> decide

/-- Reducing the accumulator changes nothing modulo `2^64`. -/
theorem foldl_digits_mod (ds : List Nat) (a : Nat) :
    ds.foldl (fun acc d => acc * 10 + d) (a % 2 ^ 64) % 2 ^ 64 =
      ds.foldl (fun acc d => acc * 10 + d) a % 2 ^ 64 := by
  induction ds generalizing a with
  | nil => exact Nat.mod_mod _ _
  | cons d ds ih =>
      rw [List.foldl_cons, List.foldl_cons, ← ih (a % 2 ^ 64 * 10 + d), ← ih (a * 10 + d)]
      congr 2
      omega

/-- A run of digits is read as its value modulo `2^64`. -/
theorem simpleStrtoullFrom_append {ds : List Nat} (hds : ∀ d ∈ ds, d < 10) {c : UInt8}
    (hc : isDigit c = false) (rest : List UInt8) {acc : Nat} (hacc : acc < 2 ^ 64) :
    simpleStrtoullFrom acc (ds.map (fun d => UInt8.ofNat (48 + d)) ++ c :: rest) =
      .ok (ds.foldl (fun acc d => acc * 10 + d) acc % 2 ^ 64, c :: rest) := by
  induction ds generalizing acc with
  | nil =>
      rw [List.map_nil, List.nil_append, List.foldl_nil, simpleStrtoullFrom, if_neg (by simp [hc]),
        Nat.mod_eq_of_lt hacc]
  | cons d ds ih =>
      obtain ⟨hdig, hval⟩ := digit_spec (hds d List.mem_cons_self)
      have hrest := @ih (fun x hx => hds x (List.mem_cons_of_mem d hx)) ((acc * 10 + d) % 2 ^ 64)
        (Nat.mod_lt _ (by decide))
      rw [List.map_cons, List.cons_append, simpleStrtoullFrom, if_pos hdig, hval, hrest,
        List.foldl_cons]
      rw [foldl_digits_mod]

theorem decimal_eq (n : Nat) : ∃ ds : List Nat, ds ≠ [] ∧ (∀ d ∈ ds, d < 10) ∧
    decimal n = ds.map (fun d => UInt8.ofNat (48 + d)) ∧
    ds.foldl (fun acc d => acc * 10 + d) 0 = n := by
  by_cases hn : n = 0
  · exact ⟨[0], by simp, by simp, by simp [decimal, hn], by simp [hn]⟩
  · refine ⟨(Nat.digits 10 n).reverse, by simpa [Nat.digits_eq_nil_iff_eq_zero] using hn, ?_,
      by simp [decimal, hn], ?_⟩
    · intro d hd
      exact Nat.digits_lt_base (by decide) (List.mem_reverse.mp hd)
    · have hfold : (Nat.digits 10 n).foldr (fun x y => y * 10 + x) 0 =
          Nat.ofDigits 10 (Nat.digits 10 n) := by
        rw [Nat.ofDigits_eq_foldr]
        congr 1
        funext x y
        simp only [Nat.cast_id]
        omega
      rw [List.foldl_reverse, hfold, Nat.ofDigits_digits]

/-- The number that digits stand for. -/
def digitsValue (text : List UInt8) : Nat := text.foldl (fun acc c => acc * 10 + digitValue c) 0

theorem eq_digit {c : UInt8} (h : isDigit c = true) :
    digitValue c < 10 ∧ c = UInt8.ofNat (48 + digitValue c) := by
  revert h
  exact forall_byte (P := fun c => isDigit c = true → digitValue c < 10 ∧ c = UInt8.ofNat (48 + digitValue c))
    (by decide +kernel) c

/-- What `simple_strtoull` makes of digits. -/
def strtoullValue (text : List UInt8) : Nat := digitsValue text % 2 ^ 64

theorem strtoullValue_of_lt {text : List UInt8} (h : digitsValue text < 2 ^ 64) :
    strtoullValue text = digitsValue text := Nat.mod_eq_of_lt h

/-- Digits are read up to the first character that is none. -/
theorem simpleStrtoull_digits {text : List UInt8} (hdigits : ∀ c ∈ text, isDigit c = true) {c : UInt8}
    (hc : isDigit c = false) (rest : List UInt8) :
    simpleStrtoull (text ++ c :: rest) = .ok (strtoullValue text, c :: rest) := by
  have htext : text = (text.map digitValue).map fun d => UInt8.ofNat (48 + d) := by
    rw [List.map_map]
    conv_lhs => rw [← List.map_id text]
    exact List.map_congr_left fun x hx => (eq_digit (hdigits x hx)).2
  have hlt : ∀ d ∈ text.map digitValue, d < 10 := by
    intro d hd
    obtain ⟨x, hx, rfl⟩ := List.mem_map.mp hd
    exact (eq_digit (hdigits x hx)).1
  have hread := simpleStrtoullFrom_append hlt hc rest (show 0 < 2 ^ 64 by decide)
  rw [← htext, List.foldl_map] at hread
  rw [simpleStrtoull, hread]
  rfl

theorem simpleStrtoullFrom_stop {s ep : List UInt8} {acc n : Nat} (h : simpleStrtoullFrom acc s = .ok (n, ep)) :
    ∃ text c rest, (∀ x ∈ text, isDigit x = true) ∧ isDigit c = false ∧ ep = c :: rest ∧
      s = text ++ c :: rest := by
  induction s generalizing acc with
  | nil => simp [simpleStrtoullFrom] at h
  | cons x s ih =>
      rw [simpleStrtoullFrom] at h
      split at h
      · rename_i hx
        obtain ⟨text, c, rest, htext, hc, hep, rfl⟩ := ih h
        exact ⟨x :: text, c, rest, List.forall_mem_cons.mpr ⟨hx, htext⟩, hc, hep, rfl⟩
      · rename_i hx
        obtain ⟨rfl, rfl⟩ := Prod.mk.inj (Except.ok.inj h)
        exact ⟨[], x, s, by simp, by simpa using hx, rfl, rfl⟩

/-- A number that was read is that of the digits in front of the place where the reading stopped. -/
theorem simpleStrtoull_stop {s ep : List UInt8} {n : Nat} (h : simpleStrtoull s = .ok (n, ep)) :
    ∃ text c rest, (∀ x ∈ text, isDigit x = true) ∧ isDigit c = false ∧ ep = c :: rest ∧
      s = text ++ c :: rest ∧ n = strtoullValue text := by
  obtain ⟨text, c, rest, htext, hc, rfl, rfl⟩ := simpleStrtoullFrom_stop h
  have hread := Except.ok.inj ((simpleStrtoull_digits htext hc rest).symm.trans h)
  exact ⟨text, c, rest, htext, hc, rfl, rfl, (congrArg Prod.fst hread).symm⟩

/-- However the digits are read, the value is that of the number. -/
theorem foldl_decimal {value : UInt8 → Nat} (hvalue : ∀ d < 10, value (UInt8.ofNat (48 + d)) = d)
    (n : Nat) : (decimal n).foldl (fun acc c => acc * 10 + value c) 0 = n := by
  obtain ⟨ds, _, hlt, hdec, hval⟩ := decimal_eq n
  rw [hdec, List.foldl_map, ← hval]
  refine List.foldl_ext _ _ 0 fun acc d hd => ?_
  rw [hvalue d (hlt d hd)]

theorem digitsValue_decimal (n : Nat) : digitsValue (decimal n) = n :=
  foldl_decimal (fun _ hd => (digit_spec hd).2) n

theorem decimal_injective : Function.Injective decimal :=
  Function.LeftInverse.injective digitsValue_decimal

/-- A number that is not zero is printed without leading zeros. -/
theorem head?_decimal {n : Nat} (hn : n ≠ 0) : (decimal n).head? ≠ some 48 := by
  have hne : Nat.digits 10 n ≠ [] := Nat.digits_ne_nil_iff_ne_zero.mpr hn
  have hlast := Nat.getLast_digit_ne_zero 10 hn
  have hlt : (Nat.digits 10 n).getLast hne < 10 := Nat.digits_lt_base (by decide) (List.getLast_mem hne)
  rw [decimal, if_neg hn, List.head?_map, List.head?_reverse, List.getLast?_eq_some_getLast hne,
    Option.map_some, ne_eq, Option.some.injEq]
  generalize (Nat.digits 10 n).getLast hne = d at hlast hlt
  interval_cases d <;> first | exact absurd rfl hlast | decide

theorem decimal_ne_nil (n : Nat) : decimal n ≠ [] := by
  obtain ⟨ds, hne, _, hdec, _⟩ := decimal_eq n
  simpa [hdec] using hne

theorem isDigit_of_mem_decimal {n : Nat} {c : UInt8} (h : c ∈ decimal n) : isDigit c = true := by
  obtain ⟨ds, _, hlt, hdec, _⟩ := decimal_eq n
  rw [hdec] at h
  obtain ⟨d, hd, rfl⟩ := List.mem_map.mp h
  exact (digit_spec (hlt d hd)).1

theorem length_decimal_le {n k : Nat} (hk : 0 < k) (hn : n < 10 ^ k) : (decimal n).length ≤ k := by
  unfold decimal
  split
  · exact hk
  · simpa using (Nat.digits_length_le_iff (by decide) n).mpr hn

theorem ne_of_isDigit {c : UInt8} (h : isDigit c = true) : c ≠ 0 ∧ c ≠ 61 := by
  refine ⟨?_, ?_⟩ <;> rintro rfl <;> exact absurd h (by decide)

end Hwemu
