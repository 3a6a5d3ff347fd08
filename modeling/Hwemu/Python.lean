import Hwemu.KernelUtils
import Hwemu.Lib.Except
import Mathlib.Data.List.DropRight
import Mathlib.Data.List.Sort

/-!
# What the scripts use of Python

Strings are lists of characters. What differs between versions of the interpreter, the Unicode tables
above all, is a record with what the documentation promises about it.
-/

namespace Hwemu

abbrev Str := List Char

/-- The exceptions that the scripts raise or let through. A fault stops the kernel under the script. -/
inductive PyError where
  | fault (f : Fault)
  | osError (errno : Int)
  | fileNotFound
  | unicodeError
  | valueError
  | keyError
  | nameError
  | missingSectionHeader
  | duplicateSection (section_ : Str)
  | duplicateOption (section_ option : Str)
  | parsing
  | interpolation
  | raised (msg : Str)
  deriving DecidableEq

/-- `str.lower`, the value of a decimal digit, and the number of digits that `int` takes at most. -/
structure Python where
  lower : Str → Str
  decimal : Char → Option Nat
  intMaxStrDigits : Option Nat
  lower_ascii : ∀ s : Str, (∀ c ∈ s, c.toNat < 128) → lower s = s.map Char.toLower
  lower_isUpper : ∀ s : Str, ∀ c ∈ lower s, c.isUpper = false
  lower_eq_self : ∀ s : Str, (∀ c ∈ s, c.toNat < 128 ∧ c.isUpper = false ∨ (decimal c).isSome) → lower s = s
  lower_quoted : ∀ s : Str, lower ('"' :: s ++ ['"']) = '"' :: lower s ++ ['"']
  lower_eq_nil : ∀ s : Str, lower s = [] → s = []
  decimal_ascii : ∀ c : Char, c.toNat < 128 →
    decimal c = if c.isDigit then some (c.toNat - 48) else none
  decimal_lt : ∀ c v, decimal c = some v → v < 10
  intMaxStrDigits_ge : ∀ n ∈ intMaxStrDigits, 4300 ≤ n

theorem isUpper_eq (c : Char) : c.isUpper = decide (65 ≤ c.toNat ∧ c.toNat ≤ 90) := by
  delta Char.isUpper
  simp only [ge_iff_le, UInt32.le_iff_toNat_le, Bool.decide_and]
  rfl

theorem isUpper_toLower (c : Char) : c.toLower.isUpper = false := by
  rw [isUpper_eq, decide_eq_false_iff_not]
  delta Char.toLower
  split
  · rename_i h
    have hlow : 65 ≤ c.val.toNat := UInt32.le_iff_toNat_le.mp h.1
    have hhigh : c.val.toNat ≤ 90 := UInt32.le_iff_toNat_le.mp h.2
    have hadd : (c.val + ('a'.val - 'A'.val)).toNat = c.val.toNat + 32 := by
      rw [UInt32.toNat_add, show ('a'.val - 'A'.val).toNat = 32 from rfl, Nat.mod_eq_of_lt (by omega)]
    change ¬(65 ≤ (c.val + ('a'.val - 'A'.val)).toNat ∧ (c.val + ('a'.val - 'A'.val)).toNat ≤ 90)
    rw [hadd]
    omega
  · rename_i h
    rw [ge_iff_le, UInt32.le_iff_toNat_le, UInt32.le_iff_toNat_le] at h
    exact h

theorem toLower_eq_self {c : Char} (h : c.isUpper = false) : c.toLower = c := by
  delta Char.toLower
  rw [dif_neg]
  rw [isUpper_eq, decide_eq_false_iff_not] at h
  rw [ge_iff_le, UInt32.le_iff_toNat_le, UInt32.le_iff_toNat_le]
  exact h

/-- An interpreter whose tables know the ASCII letters, and the ASCII and the Arabic-Indic digits. -/
def samplePython : Python where
  lower s := s.map Char.toLower
  decimal c := ([0x30, 0x660].find? fun base => decide (base ≤ c.toNat ∧ c.toNat < base + 10)).map (c.toNat - ·)
  intMaxStrDigits := some 4300
  lower_ascii _ _ := rfl
  lower_isUpper s c hc := by
    obtain ⟨c, _, rfl⟩ := List.mem_map.mp hc
    exact isUpper_toLower c
  lower_eq_self s h := by
    refine (List.map_congr_left fun c hc => ?_).trans (List.map_id s)
    rcases h c hc with ⟨_, hupper⟩ | hdecimal
    · exact toLower_eq_self hupper
    · refine toLower_eq_self ?_
      obtain ⟨v, hv⟩ := Option.isSome_iff_exists.mp hdecimal
      obtain ⟨base, hbase, _⟩ := Option.map_eq_some_iff.mp hv
      have hrange := List.find?_some hbase
      have hmem := List.mem_of_find?_eq_some hbase
      simp only [List.mem_cons, List.not_mem_nil, or_false] at hmem
      rw [decide_eq_true_eq] at hrange
      rw [isUpper_eq, decide_eq_false_iff_not]
      omega
  lower_quoted s := by
    have hquote : ('"' : Char).toLower = '"' := by decide
    rw [List.map_append, List.map_cons, List.map_singleton, hquote]
  lower_eq_nil _ h := List.map_eq_nil_iff.mp h
  decimal_ascii c hc := by
    have hall : ∀ n : Fin 128, (([0x30, 0x660].find? fun base =>
        decide (base ≤ (Char.ofNat n).toNat ∧ (Char.ofNat n).toNat < base + 10)).map ((Char.ofNat n).toNat - ·)) =
        if (Char.ofNat n).isDigit then some ((Char.ofNat n).toNat - 48) else none := by
      decide +kernel
    simpa using hall ⟨c.toNat, hc⟩
  decimal_lt c v h := by
    obtain ⟨base, hbase, rfl⟩ := Option.map_eq_some_iff.mp h
    have hrange := List.find?_some hbase
    rw [decide_eq_true_eq] at hrange
    omega
  intMaxStrDigits_ge n h := by
    obtain rfl := Option.some.inj h
    exact le_rfl

/-! ### Strings -/

/-- `str.isspace` of one character. -/
def isPySpace (c : Char) : Bool :=
  let n := c.toNat
  (9 ≤ n && n ≤ 13) || (28 ≤ n && n ≤ 32) || n == 0x85 || n == 0xa0 || n == 0x1680 ||
    (0x2000 ≤ n && n ≤ 0x200a) || n == 0x2028 || n == 0x2029 || n == 0x202f || n == 0x205f ||
    n == 0x3000

def rstrip (s : Str) : Str := s.rdropWhile isPySpace

def strip (s : Str) : Str := rstrip (s.dropWhile isPySpace)

def startsWith (pfx s : Str) : Bool := pfx.isPrefixOf s

def endsWith (sfx s : Str) : Bool := sfx.isSuffixOf s

/-- The bytes of a text file that the string is written to. -/
def utf8 (s : Str) : List UInt8 := s.flatMap String.utf8EncodeChar

/-- The lines of a text file end in a newline however they were ended in the file. -/
def universalNewlines : Str → Str
  | [] => []
  | '\r' :: '\n' :: s => '\n' :: universalNewlines s
  | '\r' :: s => '\n' :: universalNewlines s
  | c :: s => c :: universalNewlines s

/-- What a text file with these bytes reads as. -/
def decodeUtf8 (bs : List UInt8) : Except PyError Str :=
  match bs.toByteArray.utf8Decode? with
  | none => .error .unicodeError
  | some cs => .ok cs.toList

/-- The string of ASCII characters. -/
def asciiStr (bs : List UInt8) : Str := bs.map fun b => Char.ofNat b.toNat

/-! ### Numbers -/

/-- `str` of a number that is not negative. -/
def natStr (n : Nat) : Str := asciiStr (decimal n)

/-- The digits of a number, with single underscores between them. -/
def intDigits (py : Python) : Nat → Bool → Str → Option Nat
  | acc, digit, [] => if digit then some acc else none
  | acc, digit, c :: s =>
      match py.decimal c with
      | some v => intDigits py (acc * 10 + v) true s
      | none => if c = '_' ∧ digit then intDigits py acc false s else none

/-- `int(s)`; `none` is `ValueError`. -/
def pyInt (py : Python) (s : Str) : Option Int :=
  let digits := s.countP fun c => (py.decimal c).isSome
  if py.intMaxStrDigits.any fun n => n < digits then none
  else
    match strip s with
    | '-' :: s => (intDigits py 0 false s).map fun n => -(n : Int)
    | '+' :: s => (intDigits py 0 false s).map fun n => (n : Int)
    | s => (intDigits py 0 false s).map fun n => (n : Int)

/-- `sorted(l, key = key)`, where computing a key may raise an exception. -/
def sortedByKey {α : Type} (key : α → Except PyError Int) (l : List α) : Except PyError (List α) := do
  let keyed ← l.mapM fun a => (key a).map fun n => (n, a)
  return (keyed.insertionSort fun x y => x.1 ≤ y.1).map Prod.snd

/-! ### Encoding -/

theorem utf8_cons (c : Char) (s : Str) : utf8 (c :: s) = String.utf8EncodeChar c ++ utf8 s := rfl

theorem utf8_append (s t : Str) : utf8 (s ++ t) = utf8 s ++ utf8 t := List.flatMap_append

/-- What was written to a text file is read back. -/
theorem decodeUtf8_utf8 (s : Str) : decodeUtf8 (utf8 s) = .ok s := by
  have hencode : (utf8 s).toByteArray = s.utf8Encode := rfl
  rw [decodeUtf8, hencode, List.utf8Decode?_utf8Encode]

theorem universalNewlines_eq_self {s : Str} (h : ∀ c ∈ s, c ≠ '\r') : universalNewlines s = s := by
  induction s with
  | nil => rfl
  | cons c s ih =>
      rw [List.forall_mem_cons] at h
      rw [universalNewlines, ih h.2]
      · rintro s' rfl _
        exact h.1 rfl
      · rintro rfl
        exact h.1 rfl

/-- A character that is not ASCII is encoded without ASCII bytes. -/
theorem le_of_mem_utf8EncodeChar {c : Char} (h : 128 ≤ c.toNat) : ∀ b ∈ String.utf8EncodeChar c, 128 ≤ b := by
  have hval : 127 < c.val.toNat := h
  intro b hb
  rw [UInt8.le_iff_toNat_le]
  unfold String.utf8EncodeChar at hb
  simp only at hb
  split at hb
  · omega
  · split at hb
    · simp only [List.mem_cons, List.not_mem_nil, or_false] at hb
      rcases hb with rfl | rfl <;> simp <;> omega
    · split at hb
      · simp only [List.mem_cons, List.not_mem_nil, or_false] at hb
        rcases hb with rfl | rfl | rfl <;> simp <;> omega
      · simp only [List.mem_cons, List.not_mem_nil, or_false] at hb
        rcases hb with rfl | rfl | rfl | rfl <;> simp <;> omega

/-! ### ASCII -/

theorem utf8EncodeChar_ofNat {n : Nat} (h : n < 128) :
    String.utf8EncodeChar (Char.ofNat n) = [UInt8.ofNat n] := by
  have hall : ∀ n : Fin 128, String.utf8EncodeChar (Char.ofNat n.val) = [UInt8.ofNat n.val] := by
    decide +kernel
  exact hall ⟨n, h⟩

theorem utf8EncodeChar_ascii {c : Char} (h : c.toNat < 128) :
    String.utf8EncodeChar c = [UInt8.ofNat c.toNat] := by
  have hencode := utf8EncodeChar_ofNat h
  rwa [Char.ofNat_toNat] at hencode

theorem utf8_of_ascii {s : Str} (h : ∀ c ∈ s, c.toNat < 128) : utf8 s = s.map fun c => UInt8.ofNat c.toNat := by
  induction s with
  | nil => rfl
  | cons c s ih =>
      rw [List.forall_mem_cons] at h
      rw [utf8_cons, utf8EncodeChar_ascii h.1, ih h.2, List.map_cons, List.singleton_append]

/-- An ASCII byte of a file comes from the character of its value. -/
theorem mem_of_mem_utf8 {s : Str} {b : UInt8} (hb : b ∈ utf8 s) (hlt : b < 128) : Char.ofNat b.toNat ∈ s := by
  obtain ⟨c, hc, hmem⟩ := List.mem_flatMap.mp hb
  by_cases hascii : c.toNat < 128
  · rw [utf8EncodeChar_ascii hascii, List.mem_singleton] at hmem
    rw [hmem, UInt8.toNat_ofNat_of_lt' (show c.toNat < 2 ^ 8 by omega), Char.ofNat_toNat]
    exact hc
  · exact absurd (le_of_mem_utf8EncodeChar (Nat.le_of_not_lt hascii) b hmem) (UInt8.not_le.mpr hlt)

theorem ascii_of_utf8 {s : Str} (h : ∀ b ∈ utf8 s, b < 128) : ∀ c ∈ s, c.toNat < 128 := by
  intro c hc
  by_contra hhigh
  obtain ⟨b, hb⟩ := List.exists_mem_of_ne_nil _ (@String.utf8EncodeChar_ne_nil c)
  have hle := le_of_mem_utf8EncodeChar (Nat.le_of_not_lt hhigh) b hb
  exact absurd (h b (List.mem_flatMap.mpr ⟨c, hc, hb⟩)) (UInt8.not_lt.mpr hle)

theorem toNat_ofNat_byte (b : UInt8) : (Char.ofNat b.toNat).toNat = b.toNat := by
  revert b
  exact forall_byte (by decide +kernel)

theorem utf8_asciiStr {bs : List UInt8} (h : ∀ b ∈ bs, b < 128) : utf8 (asciiStr bs) = bs := by
  have hascii : ∀ c ∈ asciiStr bs, c.toNat < 128 := by
    intro c hc
    obtain ⟨b, hb, rfl⟩ := List.mem_map.mp hc
    rw [toNat_ofNat_byte]
    exact UInt8.lt_iff_toNat_lt.mp (h b hb)
  rw [utf8_of_ascii hascii, asciiStr, List.map_map]
  refine (List.map_congr_left fun b _ => ?_).trans (List.map_id bs)
  rw [Function.comp_apply, toNat_ofNat_byte, UInt8.ofNat_toNat, id]

/-- A string of ASCII characters is the string of its bytes. -/
theorem asciiStr_utf8 {s : Str} (h : ∀ c ∈ s, c.toNat < 128) : asciiStr (utf8 s) = s := by
  rw [utf8_of_ascii h, asciiStr, List.map_map]
  refine (List.map_congr_left fun c hc => ?_).trans (List.map_id s)
  have hlt := h c hc
  rw [Function.comp_apply, UInt8.toNat_ofNat_of_lt' (show c.toNat < 2 ^ 8 by omega), Char.ofNat_toNat, id]

/-- A file that holds ASCII characters only is read as it is. -/
theorem decodeUtf8_ascii {bs : List UInt8} (h : ∀ b ∈ bs, b < 128) :
    decodeUtf8 bs = .ok (asciiStr bs) := by
  conv_lhs => rw [← utf8_asciiStr h]
  exact decodeUtf8_utf8 (asciiStr bs)

theorem ascii_of_isDigit {b : UInt8} (h : isDigit b = true) : b < 128 := by
  revert h
  exact forall_byte (P := fun b => isDigit b = true → b < 128) (by decide +kernel) b

/-! ### Reading a number that was printed -/

def digitChars (ds : List Nat) : Str := ds.map fun d => Char.ofNat (UInt8.ofNat (48 + d)).toNat

theorem digitChar_spec {d : Nat} (hd : d < 10) :
    (Char.ofNat (UInt8.ofNat (48 + d)).toNat).toNat < 128 ∧
      (Char.ofNat (UInt8.ofNat (48 + d)).toNat).isDigit = true ∧
      (Char.ofNat (UInt8.ofNat (48 + d)).toNat).toNat - 48 = d ∧
      isPySpace (Char.ofNat (UInt8.ofNat (48 + d)).toNat) = false := by
  interval_cases d <;> decide +kernel

theorem natStr_eq (n : Nat) : ∃ ds : List Nat, ds ≠ [] ∧ (∀ d ∈ ds, d < 10) ∧
    natStr n = digitChars ds ∧ ds.length = (decimal n).length ∧ ds.foldl (fun acc d => acc * 10 + d) 0 = n := by
  obtain ⟨ds, hne, hlt, hdec, hval⟩ := decimal_eq n
  refine ⟨ds, hne, hlt, ?_, ?_, hval⟩
  · rw [natStr, asciiStr, hdec, List.map_map]
    rfl
  · rw [hdec, List.length_map]

theorem decimal_digitChar (py : Python) {d : Nat} (hd : d < 10) :
    py.decimal (Char.ofNat (UInt8.ofNat (48 + d)).toNat) = some d := by
  obtain ⟨hascii, hdigit, hval, _⟩ := digitChar_spec hd
  rw [py.decimal_ascii _ hascii, if_pos hdigit, hval]

theorem intDigits_digits (py : Python) {ds : List Nat} (hds : ∀ d ∈ ds, d < 10) {acc : Nat} {digit : Bool}
    (hne : ds ≠ [] ∨ digit = true) :
    intDigits py acc digit (digitChars ds) = some (ds.foldl (fun acc d => acc * 10 + d) acc) := by
  induction ds generalizing acc digit with
  | nil =>
      have hdigit : digit = true := hne.resolve_left fun h => h rfl
      rw [digitChars, List.map_nil, intDigits, if_pos hdigit, List.foldl_nil]
  | cons d ds ih =>
      rw [List.forall_mem_cons] at hds
      rw [digitChars, List.map_cons, intDigits, decimal_digitChar py hds.1, List.foldl_cons]
      exact ih hds.2 (Or.inr rfl)

theorem strip_eq_self {s : Str} (h : ∀ c ∈ s, isPySpace c = false) : strip s = s := by
  have hdrop : s.dropWhile isPySpace = s := by
    cases s with
    | nil => rfl
    | cons c s => rw [List.dropWhile_cons_of_neg (by simp [h c List.mem_cons_self])]
  rw [strip, hdrop, rstrip, List.rdropWhile_eq_self_iff]
  intro hne
  simp [h _ (List.getLast_mem hne)]

/-- Digits are a number unless there are too many of them. -/
theorem pyInt_digitChars (py : Python) {ds : List Nat} (hne : ds ≠ []) (hlt : ∀ d ∈ ds, d < 10) :
    pyInt py (digitChars ds) = if (py.intMaxStrDigits.any fun n => n < ds.length) then none
      else some ((ds.foldl (fun acc d => acc * 10 + d) 0 : Nat) : Int) := by
  have hchar : ∀ c ∈ digitChars ds, ∃ d < 10, c = Char.ofNat (UInt8.ofNat (48 + d)).toNat := by
    intro c hc
    obtain ⟨d, hd, rfl⟩ := List.mem_map.mp hc
    exact ⟨d, hlt d hd, rfl⟩
  have hcount : ((digitChars ds).countP fun c => (py.decimal c).isSome) = ds.length := by
    have hlen : (digitChars ds).length = ds.length := List.length_map _
    rw [← hlen, List.countP_eq_length]
    intro c hc
    obtain ⟨d, hd, rfl⟩ := hchar c hc
    rw [decimal_digitChar py hd, Option.isSome_some]
  have hstrip : strip (digitChars ds) = digitChars ds := by
    refine strip_eq_self fun c hc => ?_
    obtain ⟨d, hd, rfl⟩ := hchar c hc
    exact (digitChar_spec hd).2.2.2
  have hsign : ∀ c ∈ digitChars ds, c ≠ '-' ∧ c ≠ '+' := by
    intro c hc
    obtain ⟨d, hd, rfl⟩ := hchar c hc
    have hdigit := (digitChar_spec hd).2.1
    constructor <;> intro h <;> rw [h] at hdigit <;> exact absurd hdigit (by decide)
  have hdigits := @intDigits_digits py ds hlt 0 false (Or.inl hne)
  unfold pyInt
  simp only [hcount, hstrip]
  split
  · rfl
  · split
    · rename_i s hs
      exact absurd rfl (hsign '-' (by rw [hs]; exact List.mem_cons_self)).1
    · rename_i s hs
      exact absurd rfl (hsign '+' (by rw [hs]; exact List.mem_cons_self)).2
    · rw [hdigits]
      rfl

/-- **What `str` prints, `int` reads back.** -/
theorem pyInt_natStr (py : Python) {n : Nat} (hn : (decimal n).length ≤ 4300) :
    pyInt py (natStr n) = some (n : Int) := by
  obtain ⟨ds, hne, hlt, heq, hlen, hval⟩ := natStr_eq n
  have hlimit : (py.intMaxStrDigits.any fun m => decide (m < ds.length)) = false := by
    cases hmax : py.intMaxStrDigits with
    | none => rfl
    | some m =>
        have hm := py.intMaxStrDigits_ge m hmax
        simp only [Option.any_some, decide_eq_false_iff_not]
        omega
  rw [heq, pyInt_digitChars py hne hlt, hlimit, if_neg Bool.false_ne_true, hval]

/-! ### Sorting -/

/-- A listing of numbered things in any order is sorted into the order of the numbers. -/
theorem sortedByKey_range {α : Type} {key : α → Except PyError Int} {f : Nat → α} {n : Nat} {l : List α}
    (hkey : ∀ i < n, key (f i) = .ok (i : Int)) (hperm : l.Perm ((List.range n).map f)) :
    sortedByKey key l = .ok ((List.range n).map f) := by
  have hmem : ∀ a ∈ l, ∃ i < n, f i = a := by
    intro a ha
    obtain ⟨i, hi, rfl⟩ := List.mem_map.mp (hperm.mem_iff.mp ha)
    exact ⟨i, List.mem_range.mp hi, rfl⟩
  -- the number that the key stands for, of the elements listed
  let num : α → Int := fun a => (key a).toOption.getD 0
  have hnum : ∀ i < n, num (f i) = i := by
    intro i hi
    simp only [num, hkey i hi, Except.toOption, Option.getD_some]
  have hmapM : (l.mapM fun a => (key a).map fun m => (m, a)) = .ok (l.map fun a => (num a, a)) := by
    clear hperm
    induction l with
    | nil => rfl
    | cons a l ih =>
        obtain ⟨i, hi, rfl⟩ := hmem a List.mem_cons_self
        rw [List.mapM_cons, hkey i hi, ih fun b hb => hmem b (List.mem_cons_of_mem _ hb), List.map_cons,
          hnum i hi]
        rfl
  have hsorted : (l.map fun a => (num a, a)).insertionSort (fun x y => x.1 ≤ y.1) =
      (List.range n).map fun i : Nat => ((i : Int), f i) := by
    have hlist : ((List.range n).map f).map (fun a => (num a, a)) =
        (List.range n).map fun i : Nat => ((i : Int), f i) := by
      rw [List.map_map]
      refine List.map_congr_left fun i hi => ?_
      rw [Function.comp_apply, hnum i (List.mem_range.mp hi)]
    have hp := (List.perm_insertionSort (fun x y : Int × α => x.1 ≤ y.1) (l.map fun a => (num a, a))).trans
      (hperm.map fun a => (num a, a))
    rw [hlist] at hp
    have hrange : ((List.range n).map fun i : Nat => ((i : Int), f i)).Pairwise fun x y => x.1 ≤ y.1 := by
      rw [List.pairwise_map]
      refine List.Pairwise.imp ?_ List.pairwise_lt_range
      intro i j hij
      exact Int.ofNat_le.mpr (Nat.le_of_lt hij)
    refine List.Perm.eq_of_pairwise ?_ (List.pairwise_insertionSort _ _) hrange hp
    intro x y hx hy hxy hyx
    obtain ⟨i, _, rfl⟩ := List.mem_map.mp (hp.mem_iff.mp hx)
    obtain ⟨j, _, rfl⟩ := List.mem_map.mp hy
    have hij : i = j := Int.ofNat.inj (le_antisymm hxy hyx)
    rw [hij]
  unfold sortedByKey
  rw [hmapM, Except.ok_bind, hsorted, List.map_map]
  rfl

end Hwemu
