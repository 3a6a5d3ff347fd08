import Hwemu.ConfigStore
import Hwemu.TimeOverflow
import Hwemu.Hwectl

/-!
# What the texts of the utility stand for

The utility checks characters, the module reads bytes. Hexadecimal digits are the same to both. The
digits of a timer are the same to both when they are ASCII, and other digits are refused by the module.
-/

namespace Hwemu

namespace Hwectl

variable {w : Nat} {HZ : Nat} {py : Python} {s k v : Str}

/-! ### Hexadecimal digits -/

/-- The bytes that a string of hexadecimal digits stands for. -/
def hexBytes (s : Str) : List UInt8 := fromHex (utf8 s)

theorem hexChar_spec : ∀ c ∈ hexChars, c.toNat < 128 ∧ isXDigit (UInt8.ofNat c.toNat) = true :=
  List.all_iff_forall_prop.mp (by decide +kernel)

theorem ascii_of_isHexStr (h : isHexStr s = true) : ∀ c ∈ s, c.toNat < 128 := by
  intro c hc
  have hmem := List.all_eq_true.mp h c hc
  exact (hexChar_spec c (List.contains_iff_mem.mp hmem)).1

theorem length_utf8_of_ascii (h : ∀ c ∈ s, c.toNat < 128) : (utf8 s).length = s.length := by
  rw [utf8_of_ascii h, List.length_map]

theorem isXDigit_of_isHexStr (h : isHexStr s = true) : ∀ b ∈ utf8 s, isXDigit b = true := by
  intro b hb
  rw [utf8_of_ascii (ascii_of_isHexStr h)] at hb
  obtain ⟨c, hc, rfl⟩ := List.mem_map.mp hb
  exact (hexChar_spec c (List.contains_iff_mem.mp (List.all_eq_true.mp h c hc))).2

/-- The digits that `%02x` prints are those of the kernel. -/
theorem bytesToHexStr_eq (b : List UInt8) : bytesToHexStr b = asciiStr (bin2hex b) := by
  have hbyte : ∀ x : UInt8, [hexChar (x.toNat / 16), hexChar (x.toNat % 16)] =
      asciiStr [hexAscHi x, hexAscLo x] := forall_byte (by decide +kernel)
  rw [bytesToHexStr, bin2hex, asciiStr, List.map_flatMap]
  exact congrArg (fun f => b.flatMap f) (funext hbyte)

theorem utf8_bytesToHexStr (b : List UInt8) : utf8 (bytesToHexStr b) = bin2hex b := by
  have hascii : ∀ c, isXDigit c = true → c < 128 := fun c =>
    forall_byte (P := fun c => isXDigit c = true → c < 128) (by decide +kernel) c
  rw [bytesToHexStr_eq, utf8_asciiStr fun c hc => hascii c (isXDigit_of_mem_bin2hex hc)]

theorem hexBytes_bytesToHexStr (b : List UInt8) : hexBytes (bytesToHexStr b) = b := by
  rw [hexBytes, utf8_bytesToHexStr, fromHex_bin2hex]

theorem length_bytesToHexStr (b : List UInt8) : (bytesToHexStr b).length = 2 * b.length := by
  rw [bytesToHexStr_eq, asciiStr, List.length_map, length_bin2hex]

theorem isHexStr_bytesToHexStr (b : List UInt8) : isHexStr (bytesToHexStr b) = true := by
  have hbyte : ∀ x : UInt8, hexChars.contains (hexChar (x.toNat / 16)) = true ∧
      hexChars.contains (hexChar (x.toNat % 16)) = true := forall_byte (by decide +kernel)
  refine List.all_eq_true.mpr fun c hc => ?_
  obtain ⟨x, _, hx⟩ := List.mem_flatMap.mp hc
  rcases List.mem_pair.mp hx with rfl | rfl
  · exact (hbyte x).1
  · exact (hbyte x).2

/-- The bytes that a key or a value of the file stands for: the text between the quotes, or what the
hexadecimal digits stand for. -/
def iniBytes (s : Str) : List UInt8 := if isQuoted s then utf8 (unquote s) else hexBytes s

theorem hexBytes_convertQuoted (s : Str) : hexBytes (convertQuoted s) = iniBytes s := by
  unfold convertQuoted iniBytes
  split
  · exact hexBytes_bytesToHexStr _
  · rfl

/-- Digits in lower case are what their bytes are printed as. -/
theorem bin2hex_fromHex {src : List UInt8} {count : Nat}
    (hdigits : ∀ c ∈ src, isXDigit c = true ∧ (65 ≤ c && c ≤ 90) = false) (hlen : src.length = 2 * count) :
    bin2hex (fromHex src) = src := by
  have hchars : ∀ c, isXDigit c = true → (65 ≤ c && c ≤ 90) = false → c ∈ hexAsc := fun c =>
    forall_byte (P := fun c => isXDigit c = true → (65 ≤ c && c ≤ 90) = false → c ∈ hexAsc)
      (by decide +kernel) c
  have hpair : ∀ hi ∈ hexAsc, ∀ lo ∈ hexAsc,
      bin2hex [(hexToBin hi).getD 0 <<< 4 ||| (hexToBin lo).getD 0] = [hi, lo] := by decide +kernel
  induction count generalizing src with
  | zero =>
      obtain rfl : src = [] := List.length_eq_zero_iff.mp (by omega)
      rfl
  | succ count ih =>
      match src with
      | [] => rfl
      | [_] => simp only [List.length_singleton] at hlen; omega
      | hi :: lo :: src =>
          simp only [List.forall_mem_cons] at hdigits
          simp only [List.length_cons] at hlen
          have hfirst := hpair hi (hchars hi hdigits.1.1 hdigits.1.2) lo (hchars lo hdigits.2.1.1 hdigits.2.1.2)
          calc bin2hex (fromHex (hi :: lo :: src))
              = bin2hex [(hexToBin hi).getD 0 <<< 4 ||| (hexToBin lo).getD 0] ++ bin2hex (fromHex src) := rfl
            _ = hi :: lo :: src := by rw [hfirst, ih hdigits.2.2 (by omega)]; rfl

/-- Two keys in lower case that stand for the same bytes are the same. -/
theorem hexBytes_injective {k k' : Str} (hk : isHexStr k = true) (hk' : isHexStr k' = true)
    (hlower : ∀ c ∈ k, c.isUpper = false) (hlower' : ∀ c ∈ k', c.isUpper = false)
    (heven : k.length % 2 = 0) (heven' : k'.length % 2 = 0) (h : hexBytes k = hexBytes k') : k = k' := by
  have hback : ∀ s : Str, isHexStr s = true → (∀ c ∈ s, c.isUpper = false) → s.length % 2 = 0 →
      asciiStr (bin2hex (hexBytes s)) = s := by
    intro s hs hlow hlen
    have hascii := ascii_of_isHexStr hs
    have hdigits : ∀ b ∈ utf8 s, isXDigit b = true ∧ (65 ≤ b && b ≤ 90) = false := by
      intro b hb
      refine ⟨isXDigit_of_isHexStr hs b hb, ?_⟩
      rw [utf8_of_ascii hascii] at hb
      obtain ⟨c, hc, rfl⟩ := List.mem_map.mp hb
      have hupper := hlow c hc
      have hlt := hascii c hc
      rw [isUpper_eq, decide_eq_false_iff_not] at hupper
      rw [← Bool.not_eq_true, Bool.and_eq_true, decide_eq_true_eq, decide_eq_true_eq,
        UInt8.le_iff_toNat_le, UInt8.le_iff_toNat_le, UInt8.toNat_ofNat_of_lt' (show c.toNat < 2 ^ 8 by omega)]
      exact hupper
    rw [hexBytes, bin2hex_fromHex hdigits (show _ = 2 * (s.length / 2) by
      rw [length_utf8_of_ascii hascii]; omega), asciiStr_utf8 hascii]
  rw [← hback k hk hlower heven, h, hback k' hk' hlower' heven']

/-! ### Timers -/

def groupText (unit : Str) : Option Str → Str
  | none => []
  | some digits => digits ++ unit

/-- A group that is there has digits. -/
def IsDigits (py : Python) (g : Option Str) : Prop :=
  ∀ digits ∈ g, digits ≠ [] ∧ ∀ c ∈ digits, (py.decimal c).isSome

namespace TimerGroups

def body (g : TimerGroups) : Str :=
  groupText ['h'] g.h ++ (groupText ['m'] g.m ++ (groupText ['s'] g.s ++ groupText ['m', 's'] g.ms))

structure Digits (py : Python) (g : TimerGroups) : Prop where
  h : IsDigits py g.h
  m : IsDigits py g.m
  s : IsDigits py g.s
  ms : IsDigits py g.ms

end TimerGroups

theorem startsWith_split {pfx s : Str} (h : startsWith pfx s = true) : s = pfx ++ s.drop pfx.length := by
  obtain ⟨t, rfl⟩ := List.isPrefixOf_iff_prefix.mp h
  rw [List.drop_left]

theorem optGroup_split {α : Type} {unit : Str} {rest : Option Str → Str → Option α} {a : α}
    (h : optGroup py unit rest s = some a) :
    ∃ g tail, s = groupText unit g ++ tail ∧ IsDigits py g ∧ rest g tail = some a := by
  have hskip (h : rest none s = some a) :
      ∃ g tail, s = groupText unit g ++ tail ∧ IsDigits py g ∧ rest g tail = some a :=
    ⟨none, s, rfl, by simp [IsDigits], h⟩
  unfold optGroup at h
  simp only at h
  split at h
  · rename_i hcond
    obtain ⟨hne, hunit⟩ := hcond
    rcases Option.or_eq_some_iff.mp h with h | ⟨_, h⟩
    · refine ⟨some (s.takeWhile fun c => (py.decimal c).isSome), _, ?_, ?_, h⟩
      · have hdrop : s = s.takeWhile (fun c => (py.decimal c).isSome) ++
            s.drop (s.takeWhile fun c => (py.decimal c).isSome).length :=
          (List.prefix_iff_eq_append.mp (List.takeWhile_prefix _)).symm
        rw [groupText, List.append_assoc, ← startsWith_split hunit]
        exact hdrop
      · rintro digits ⟨⟩
        exact ⟨hne, List.all_eq_true.mp List.all_takeWhile⟩
    · exact hskip h
  · exact hskip h

/-- What the pattern matches. -/
theorem timerGroups_split {g : TimerGroups} (h : timerGroups py s = some g) :
    s = "timer:".toList ++ g.body ∧ g.Digits py := by
  unfold timerGroups at h
  split at h
  · rename_i hpfx
    obtain ⟨gh, s₁, hs, hh, h₁⟩ := optGroup_split h
    obtain ⟨gm, s₂, rfl, hm, h₂⟩ := optGroup_split h₁
    obtain ⟨gs, s₃, rfl, hsec, h₃⟩ := optGroup_split h₂
    obtain ⟨gms, s₄, rfl, hms, h₄⟩ := optGroup_split h₃
    split at h₄
    · rename_i hnil
      subst hnil
      obtain rfl := Option.some.inj h₄
      refine ⟨?_, hh, hm, hsec, hms⟩
      rw [startsWith_split hpfx, TimerGroups.body]
      have hlen : "timer:".toList.length = 6 := rfl
      rw [hlen, hs, List.append_nil]
    · simp at h₄
  · simp at h

/-- The numbers of the groups of an accepted key. -/
structure TimerGroups.Reads (py : Python) (g : TimerGroups) (h m s ms : Int) : Prop where
  h_eq : groupInt py g.h = .ok h
  m_eq : groupInt py g.m = .ok m
  s_eq : groupInt py g.s = .ok s
  ms_eq : groupInt py g.ms = .ok ms
  h_le : h ≤ 1193
  m_le : m ≤ 59
  s_le : s ≤ 59
  ms_le : ms ≤ 999

theorem asyncKeyTime_ok {t : Int} (ht : asyncKeyTime py k = .ok (.ok t)) :
    ∃ g h m s ms, timerGroups py k = some g ∧ g.Reads py h m s ms ∧
      t = h * 60 * 60 * 1000 + m * 60 * 1000 + s * 1000 + ms ∧ t ≠ 0 ∧ t ≤ 0xffffffff := by
  unfold asyncKeyTime at ht
  split at ht
  · simp at ht
  · rename_i g hg
    obtain ⟨h, hh, ht⟩ := Except.bind_eq_ok_iff.mp ht
    split at ht
    · simp at ht
    · rename_i h_le
      obtain ⟨m, hm, ht⟩ := Except.bind_eq_ok_iff.mp ht
      split at ht
      · simp at ht
      · rename_i m_le
        obtain ⟨s, hs, ht⟩ := Except.bind_eq_ok_iff.mp ht
        split at ht
        · simp at ht
        · rename_i s_le
          obtain ⟨ms, hms, ht⟩ := Except.bind_eq_ok_iff.mp ht
          split at ht
          · simp at ht
          · rename_i ms_le
            dsimp only at ht
            split at ht
            · simp at ht
            · rename_i hrange
              obtain rfl := Except.ok.inj (Except.ok.inj ht)
              exact ⟨g, h, m, s, ms, hg, ⟨hh, hm, hs, hms, by omega, by omega, by omega, by omega⟩, rfl,
                by omega, by omega⟩

/-! ### Timers that the module reads -/

theorem isDigit_of_decimal {c : Char} (hascii : c.toNat < 128) (hdecimal : (py.decimal c).isSome) :
    isDigit (UInt8.ofNat c.toNat) = true := by
  rw [py.decimal_ascii c hascii] at hdecimal
  split at hdecimal
  · rename_i hdigit
    have hall : ∀ n : Fin 128, (Char.ofNat n.val).isDigit = true → isDigit (UInt8.ofNat n.val) = true := by
      decide +kernel
    exact hall ⟨c.toNat, hascii⟩ (by rwa [Char.ofNat_toNat])
  · simp at hdecimal

/-- ASCII digits are digits to the kernel, and the number that `int` makes of them is the kernel's. -/
theorem pyInt_ascii {digits : Str} (hne : digits ≠ []) (hascii : ∀ c ∈ digits, c.toNat < 128)
    (hdecimal : ∀ c ∈ digits, (py.decimal c).isSome) :
    (∀ b ∈ utf8 digits, isDigit b = true) ∧
      ∀ n, pyInt py digits = some n → n = (digitsValue (utf8 digits) : Int) := by
  have hdigit : ∀ b ∈ utf8 digits, isDigit b = true := by
    intro b hb
    rw [utf8_of_ascii hascii] at hb
    obtain ⟨c, hc, rfl⟩ := List.mem_map.mp hb
    exact isDigit_of_decimal (hascii c hc) (hdecimal c hc)
  refine ⟨hdigit, ?_⟩
  intro n hn
  have hchars : digits = digitChars ((utf8 digits).map digitValue) := by
    have hbytes : utf8 digits = ((utf8 digits).map digitValue).map fun d => UInt8.ofNat (48 + d) := by
      rw [List.map_map]
      conv_lhs => rw [← List.map_id (utf8 digits)]
      exact List.map_congr_left fun b hb => (eq_digit (hdigit b hb)).2
    have hstr := asciiStr_utf8 hascii
    rw [hbytes, asciiStr, List.map_map] at hstr
    exact hstr.symm
  have hne' : (utf8 digits).map digitValue ≠ [] := by
    intro hnil
    rw [hnil] at hchars
    exact hne hchars
  have hlt : ∀ d ∈ (utf8 digits).map digitValue, d < 10 := by
    intro d hd
    obtain ⟨b, hb, rfl⟩ := List.mem_map.mp hd
    exact (eq_digit (hdigit b hb)).1
  rw [hchars, pyInt_digitChars py hne' hlt] at hn
  split at hn
  · simp at hn
  · rw [← Option.some.inj hn, List.foldl_map]
    rfl

/-- A group in ASCII digits is a number to the kernel, and the same number. -/
theorem isNumber_group {g : Option Str} (hg : IsDigits py g)
    (hascii : ∀ digits ∈ g, ∀ c ∈ digits, c.toNat < 128) : IsNumber (g.map utf8) ∧
      ∀ n, groupInt py g = .ok n → n = ((((g.map utf8).map digitsValue).getD 0 : Nat) : Int) := by
  cases g with
  | none => exact ⟨by simp [IsNumber], fun n hn => (Except.ok.inj hn).symm⟩
  | some digits =>
      obtain ⟨hne, hdecimal⟩ := hg digits rfl
      obtain ⟨hdigit, hval⟩ := pyInt_ascii hne (hascii digits rfl) hdecimal
      refine ⟨?_, ?_⟩
      · rintro text ⟨⟩
        refine ⟨?_, hdigit⟩
        intro hnil
        have hlen := length_utf8_of_ascii (hascii digits rfl)
        rw [hnil] at hlen
        exact hne (List.length_eq_zero_iff.mp hlen.symm)
      · intro n hn
        unfold groupInt at hn
        dsimp only at hn
        cases hint : pyInt py digits with
        | none => simp [hint] at hn
        | some n' =>
            rw [hint] at hn
            obtain rfl : n' = n := Except.ok.inj hn
            exact hval n' hint

namespace TimerGroups

variable {g : TimerGroups}

/-- The groups as the numbers that the kernel is to read. -/
def numbers (g : TimerGroups) : TimeNumbers := ⟨g.h.map utf8, g.m.map utf8, g.s.map utf8, g.ms.map utf8⟩

theorem itemText_utf8 (unit : String) (hunit : utf8 unit.toList = bytes unit) (digits : Option Str) :
    itemText unit (digits.map utf8) = utf8 (groupText unit.toList digits) := by
  cases digits with
  | none => rfl
  | some digits => rw [Option.map_some, itemText, groupText, utf8_append, hunit]

theorem text_numbers (g : TimerGroups) : g.numbers.text = utf8 g.body := by
  rw [body, utf8_append, utf8_append, utf8_append]
  have hh := itemText_utf8 "h" rfl g.h
  have hm := itemText_utf8 "m" rfl g.m
  have hs := itemText_utf8 "s" rfl g.s
  have hms := itemText_utf8 "ms" rfl g.ms
  simp only [TimeNumbers.text, numbers, hh, hm, hs, hms]
  rfl

theorem ascii_of_body (h : ∀ c ∈ g.body, c.toNat < 128) :
    ∀ o ∈ [g.h, g.m, g.s, g.ms], ∀ digits ∈ o, ∀ c ∈ digits, c.toNat < 128 := by
  simp only [body, List.mem_append] at h
  simp only [List.mem_cons, List.not_mem_nil, or_false]
  rintro o ho digits hdigits c hc
  have hmem : ∀ unit, c ∈ groupText unit o := by
    intro unit
    rw [Option.mem_def.mp hdigits, groupText]
    exact List.mem_append_left unit hc
  rcases ho with rfl | rfl | rfl | rfl
  · exact h c (Or.inl (hmem _))
  · exact h c (Or.inr (Or.inl (hmem _)))
  · exact h c (Or.inr (Or.inr (Or.inl (hmem _))))
  · exact h c (Or.inr (Or.inr (Or.inr (hmem _))))

theorem digits_numbers (h : g.Digits py) (hascii : ∀ c ∈ g.body, c.toNat < 128) : g.numbers.Digits where
  h := (isNumber_group h.h (ascii_of_body hascii g.h (by simp))).1
  m := (isNumber_group h.m (ascii_of_body hascii g.m (by simp))).1
  s := (isNumber_group h.s (ascii_of_body hascii g.s (by simp))).1
  ms := (isNumber_group h.ms (ascii_of_body hascii g.ms (by simp))).1

end TimerGroups

/-- The groups of a timer that the utility accepts, and the numbers they are to the kernel. -/
theorem numbers_key {t : Int} (ht : asyncKeyTime py k = .ok (.ok t)) (hascii : ∀ c ∈ k, c.toNat < 128) :
    ∃ g, timerGroups py k = some g ∧ utf8 k = bytes "timer:" ++ g.numbers.text ∧ g.numbers.Digits ∧
      g.numbers.Within digitsValue ∧ t = (g.numbers.time digitsValue : Int) ∧ 0 < t ∧ t ≤ uintMax := by
  obtain ⟨g, h, m, s, ms, hg, hreads, hsum, hne, hmax⟩ := asyncKeyTime_ok ht
  obtain ⟨rfl, hdigits⟩ := timerGroups_split hg
  have hbody : ∀ c ∈ g.body, c.toNat < 128 := fun c hc => hascii c (List.mem_append_right _ hc)
  have hh := (isNumber_group hdigits.h (TimerGroups.ascii_of_body hbody g.h (by simp))).2 h hreads.h_eq
  have hm := (isNumber_group hdigits.m (TimerGroups.ascii_of_body hbody g.m (by simp))).2 m hreads.m_eq
  have hs := (isNumber_group hdigits.s (TimerGroups.ascii_of_body hbody g.s (by simp))).2 s hreads.s_eq
  have hms := (isNumber_group hdigits.ms (TimerGroups.ascii_of_body hbody g.ms (by simp))).2 ms hreads.ms_eq
  have hle : ∀ {v : Option (List UInt8)} {max : Nat}, (v.map digitsValue).getD 0 ≤ max →
      ∀ digits ∈ v, digitsValue digits ≤ max := by
    rintro v max hle digits hd
    rw [Option.mem_def.mp hd] at hle
    exact hle
  have h_le := hreads.h_le
  have m_le := hreads.m_le
  have s_le := hreads.s_le
  have ms_le := hreads.ms_le
  refine ⟨g, hg, ?_, TimerGroups.digits_numbers hdigits hbody, ?_, ?_, ?_, ?_⟩
  · rw [utf8_append, g.text_numbers]
    rfl
  · refine ⟨hle ?_, hle ?_, hle ?_, hle ?_⟩
    · change ((g.h.map utf8).map digitsValue).getD 0 ≤ intMax
      unfold intMax
      omega
    · change ((g.m.map utf8).map digitsValue).getD 0 ≤ 59
      omega
    · change ((g.s.map utf8).map digitsValue).getD 0 ≤ 59
      omega
    · change ((g.ms.map utf8).map digitsValue).getD 0 ≤ 999
      omega
  · rw [hsum, hh, hm, hs, hms]
    simp only [TimeNumbers.time, TimerGroups.numbers]
    push_cast
    omega
  · omega
  · unfold uintMax
    omega

/-- **A timer in ASCII digits that the utility accepts** is a time of the grammar, the same one. -/
theorem timeText_key {t : Int} (ht : asyncKeyTime py k = .ok (.ok t)) (hascii : ∀ c ∈ k, c.toNat < 128) :
    0 < t ∧ ∃ time, utf8 k = bytes "timer:" ++ time ∧ TimeText time t.toNat := by
  obtain ⟨g, _, hkey, hdigits, hwithin, htime, hpos, hmax⟩ := numbers_key ht hascii
  obtain ⟨hvalue, hiff⟩ := TimeNumbers.value_eq hwithin.not_wide
  refine ⟨hpos, g.numbers.text, hkey, g.numbers, hdigits, hiff.mpr hwithin, rfl, ?_, by omega, by omega⟩
  omega

/-! ### What the module makes of a pair -/

theorem utf8_pair (k v : Str) : utf8 (k ++ '=' :: v) = utf8 k ++ 61 :: utf8 v := utf8_append k ('=' :: v)

/-- What `load_from_ini` makes sure of about a value. -/
structure ValueOk (v : Str) : Prop where
  hex : isHexStr (convertQuoted v) = true
  even : (convertQuoted v).length % 2 = 0
  pos : 1 ≤ (convertQuoted v).length
  le : (convertQuoted v).length ≤ hweMaxResponse * 2

namespace ValueOk

theorem length_utf8 (h : ValueOk v) : (utf8 (convertQuoted v)).length = (convertQuoted v).length :=
  length_utf8_of_ascii (ascii_of_isHexStr h.hex)

/-- A key that the module reads is a pair together with a value. -/
theorem textPair (h : ValueOk v) (hkey : ∀ b ∈ utf8 k, b ≠ 61 ∧ b ≠ 0) (hne : 1 ≤ (utf8 k).length)
    (hbound : (utf8 k).length + 1 + (convertQuoted v).length ≤ intMax) {p : Pair w}
    (hread : strToKey HZ (utf8 k ++ 61 :: utf8 (convertQuoted v)) ((utf8 k).length : Int) (Pair.zeroed w) =
      .ok (.ok p)) :
    Hwemu.textPair w HZ (utf8 (k ++ '=' :: convertQuoted v)) = some { p with resp := iniBytes v } := by
  have hlen := h.length_utf8
  have heven := h.even
  have hpos := h.pos
  have hle := h.le
  have hbound' : (utf8 k ++ 61 :: utf8 (convertQuoted v)).length ≤ intMax := by
    rw [List.length_append, List.length_cons]
    omega
  have hpair := strToPair_whole hkey hne (isXDigit_of_isHexStr h.hex)
    (show _ = 2 * ((convertQuoted v).length / 2) by omega) (by omega) (by omega) hbound' hread
  rw [Hwemu.textPair, utf8_pair, hpair, ← hexBytes_convertQuoted]
  rfl

end ValueOk

/-- What `load_from_ini` makes sure of about a key that is a request. -/
structure RequestOk (k : Str) : Prop where
  hex : isHexStr k = true
  even : k.length % 2 = 0
  le : k.length ≤ hweMaxRequest * 2

theorem RequestOk.textPair (h : RequestOk k) (hne : k ≠ []) (hv : ValueOk v) : ∃ q,
    Hwemu.textPair w HZ (utf8 (k ++ '=' :: convertQuoted v)) = some q ∧
      q.asyncRx = false ∧ q.req = hexBytes k ∧ q.resp = iniBytes v := by
  have hlen := length_utf8_of_ascii (ascii_of_isHexStr h.hex)
  have hdigits := isXDigit_of_isHexStr h.hex
  have heven := h.even
  have hle := h.le
  have hpos := List.length_pos_iff.mpr hne
  have hvle := hv.le
  have hread := strToKey_hex HZ hdigits (show _ = 2 * (k.length / 2) by omega) (by omega)
    (utf8 (convertQuoted v)) (Pair.zeroed w)
  have hkey : ∀ b ∈ utf8 k, b ≠ 61 ∧ b ≠ 0 := fun b hb =>
    ⟨(ne_of_isXDigit (hdigits b hb)).2.2, (ne_of_isXDigit (hdigits b hb)).1⟩
  refine ⟨_, hv.textPair hkey (by omega) ?_ hread, rfl, rfl, rfl⟩
  unfold hweMaxRequest at hle
  unfold hweMaxResponse at hvle
  unfold intMax
  omega

/-- What a key of a timer is written with. -/
theorem mem_timerKey {t : Int} (ht : asyncKeyTime py k = .ok (.ok t)) :
    ∀ c ∈ k, c ∈ "timer:hs".toList ∨ (py.decimal c).isSome := by
  obtain ⟨g, h, m, s, ms, hg, _⟩ := asyncKeyTime_ok ht
  obtain ⟨rfl, hdigits⟩ := timerGroups_split hg
  have hgroup : ∀ (unit : Str) (o : Option Str), (∀ c ∈ unit, c ∈ "timer:hs".toList) → IsDigits py o →
      ∀ c ∈ groupText unit o, c ∈ "timer:hs".toList ∨ (py.decimal c).isSome := by
    intro unit o hunit ho c hc
    cases o with
    | none => exact absurd hc List.not_mem_nil
    | some digits =>
        rcases List.mem_append.mp hc with hc | hc
        · exact Or.inr ((ho digits rfl).2 c hc)
        · exact Or.inl (hunit c hc)
  intro c hc
  simp only [TimerGroups.body, List.mem_append] at hc
  rcases hc with hc | hc | hc | hc | hc
  · exact Or.inl ((show ∀ c ∈ "timer:".toList, c ∈ "timer:hs".toList from
      List.all_iff_forall_prop.mp (by decide)) c hc)
  · exact hgroup _ _ (List.all_iff_forall_prop.mp (by decide)) hdigits.h c hc
  · exact hgroup _ _ (List.all_iff_forall_prop.mp (by decide)) hdigits.m c hc
  · exact hgroup _ _ (List.all_iff_forall_prop.mp (by decide)) hdigits.s c hc
  · exact hgroup _ _ (List.all_iff_forall_prop.mp (by decide)) hdigits.ms c hc

/-- No key of a timer has an equals sign or a null in it, whatever its digits. -/
theorem ne_of_mem_key {t : Int} (ht : asyncKeyTime py k = .ok (.ok t)) : ∀ b ∈ utf8 k, b ≠ 61 ∧ b ≠ 0 := by
  have hchars : ∀ c : Char, c.toNat < 128 → c = '=' ∨ c.toNat = 0 → c ∉ k := by
    intro c hascii hc hmem
    rcases mem_timerKey ht c hmem with hletter | hdecimal
    · have hletters : ∀ c ∈ "timer:hs".toList, c ≠ '=' ∧ c.toNat ≠ 0 := List.all_iff_forall_prop.mp (by decide)
      rcases hc with heq | hzero
      · exact (hletters c hletter).1 heq
      · exact (hletters c hletter).2 hzero
    · rw [py.decimal_ascii c hascii] at hdecimal
      rcases hc with rfl | hzero
      · exact absurd hdecimal (by decide)
      · rw [← Char.ofNat_toNat c, hzero] at hdecimal
        exact absurd hdecimal (by decide)
  intro b hb
  constructor
  · rintro rfl
    exact hchars _ (by decide) (Or.inl rfl) (mem_of_mem_utf8 hb (by decide))
  · rintro rfl
    exact hchars _ (by decide) (Or.inr rfl) (mem_of_mem_utf8 hb (by decide))

theorem textPair_timer {t : Int} (ht : asyncKeyTime py k = .ok (.ok t)) (hascii : ∀ c ∈ k, c.toNat < 128)
    (hv : ValueOk v) (hbound : k.length + 1 + (convertQuoted v).length ≤ intMax) : ∃ q,
    textPair w HZ (utf8 (k ++ '=' :: convertQuoted v)) = some q ∧
      q.asyncRx = true ∧ (q.periodMs : Int) = t ∧ q.req = [] ∧ q.resp = iniBytes v := by
  have hlen := length_utf8_of_ascii hascii
  obtain ⟨hpos, time, hkey, htext⟩ := timeText_key ht hascii
  have htime := (hweStrToTime_iff (show t.toNat ≠ 0 by omega)).mpr
    ⟨time, 61, utf8 (convertQuoted v), htext, by decide, rfl, rfl⟩
  have hsz : toSizeT ((utf8 k).length : Int) ≠ 0 := by
    rw [toSizeT_of_le (by unfold intMax at hbound; unfold uintMax; omega), hkey, List.length_append]
    exact Nat.ne_of_gt (Nat.add_pos_left (by decide) time.length)
  have hread := strToKey_timer HZ (utf8 (convertQuoted v)) hsz (by omega) htime (Pair.zeroed w)
  rw [← hkey] at hread
  have hne : 1 ≤ (utf8 k).length := by
    rw [hkey, List.length_append]
    exact Nat.le_add_right_of_le (by decide)
  exact ⟨_, hv.textPair (ne_of_mem_key ht) hne (by omega) hread, rfl, Int.toNat_of_nonneg (by omega), rfl, rfl⟩

/-- **Digits that are not ASCII** are refused by the module. -/
theorem ascii_of_textPair {t : Int} (ht : asyncKeyTime py k = .ok (.ok t))
    (hbound : (utf8 (k ++ '=' :: v)).length ≤ intMax) {q : Pair w}
    (hq : textPair w HZ (utf8 (k ++ '=' :: v)) = some q) : ∀ c ∈ k, c.toNat < 128 := by
  have hne := ne_of_mem_key ht
  unfold textPair at hq
  split at hq
  · rename_i p hparse
    obtain ⟨key, _, ⟨text, _, _, hsplit, hkey, _⟩, _⟩ := (strToPair_iff hbound).mp hparse
    rw [utf8_pair] at hsplit
    obtain ⟨rfl, _⟩ := append_cons_inj (fun b hb => (hne b hb).1) (fun b hb => (hkey.ne b hb).1) hsplit
    exact ascii_of_utf8 fun b hb => (hkey.ne b hb).2.2
  · simp at hq

end Hwectl

end Hwemu
