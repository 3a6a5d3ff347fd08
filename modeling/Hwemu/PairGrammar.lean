import Hwemu.PairBounds

/-!
# The grammar of pair texts

What a text that the parser accepts looks like, and what it stands for: a key, an equals sign and a
response up to a newline or the end, the key being a request or a time. `strToKey`, `strToResp` and
the time scanner are each compared with their part of the grammar in both directions.
-/

namespace Hwemu

variable {w : Nat}

/-! ### Times -/

/-- The numbers of a time, each with the digits it is written in if it is there. -/
structure TimeNumbers where
  h : Option (List UInt8)
  m : Option (List UInt8)
  s : Option (List UInt8)
  ms : Option (List UInt8)

def itemText (unit : String) : Option (List UInt8) → List UInt8
  | none => []
  | some digits => digits ++ bytes unit

namespace TimeNumbers

def text (g : TimeNumbers) : List UInt8 :=
  itemText "h" g.h ++ (itemText "m" g.m ++ (itemText "s" g.s ++ itemText "ms" g.ms))

/-- The milliseconds that the numbers stand for, digits being worth what `value` says. -/
def time (value : List UInt8 → Nat) (g : TimeNumbers) : Nat :=
  (g.h.map value).getD 0 * 3600000 + (g.m.map value).getD 0 * 60000 + (g.s.map value).getD 0 * 1000 +
    (g.ms.map value).getD 0

structure Digits (g : TimeNumbers) : Prop where
  h : IsNumber g.h
  m : IsNumber g.m
  s : IsNumber g.s
  ms : IsNumber g.ms

/-- Every number keeps to the limit of its unit. -/
structure Within (value : List UInt8 → Nat) (g : TimeNumbers) : Prop where
  h : ∀ digits ∈ g.h, value digits ≤ intMax
  m : ∀ digits ∈ g.m, value digits ≤ 59
  s : ∀ digits ∈ g.s, value digits ≤ 59
  ms : ∀ digits ∈ g.ms, value digits ≤ 999

/-- The numbers along the unit table. -/
def rows (g : TimeNumbers) : List (Pattern × Option (List UInt8)) :=
  [(⟨bytes "h", intMax, 60 * 60 * 1000⟩, g.h), (⟨bytes "m", 59, 60 * 1000⟩, g.m),
    (⟨bytes "s", 59, 1 * 1000⟩, g.s), (⟨bytes "ms", 999, 1⟩, g.ms)]

theorem map_fst_rows (g : TimeNumbers) : g.rows.map Prod.fst = pattern := rfl

theorem exists_rows {items : List (Pattern × Option (List UInt8))} (h : items.map Prod.fst = pattern) :
    ∃ g : TimeNumbers, items = g.rows := by
  have hlen := congrArg List.length h
  rw [List.length_map] at hlen
  match items, hlen, h with
  | [(p₁, h), (p₂, m), (p₃, s), (p₄, ms)], _, hfst =>
      simp only [pattern, List.map_cons, List.map_nil, List.cons.injEq, and_true] at hfst
      obtain ⟨rfl, rfl, rfl, rfl⟩ := hfst
      exact ⟨⟨h, m, s, ms⟩, rfl⟩

theorem writtenText_cons (p : Pattern) (unit : String) (hunit : bytes unit = p.unit)
    (v : Option (List UInt8)) (items : List (Pattern × Option (List UInt8))) :
    writtenText ((p, v) :: items) = itemText unit v ++ writtenText items := by
  cases v with
  | none => rfl
  | some digits => rw [writtenText, itemText, hunit, List.append_assoc]

theorem writtenText_rows (g : TimeNumbers) : writtenText g.rows = g.text := by
  rw [rows, writtenText_cons _ "h" rfl, writtenText_cons _ "m" rfl, writtenText_cons _ "s" rfl,
    writtenText_cons _ "ms" rfl, writtenText, List.append_nil]
  rfl

theorem itemsTime_rows (value : List UInt8 → Nat) (g : TimeNumbers) :
    itemsTime (g.rows.map fun x => (x.1, x.2.map value)) = g.time value := by
  simp only [rows, List.map_cons, List.map_nil, itemsTime, time]
  omega

theorem readRow_rows (g : TimeNumbers) :
    (∀ x ∈ g.rows, ReadRow x.1 x.2) ↔ g.Digits ∧ g.Within strtoullValue := by
  have hrow : ∀ (p : Pattern) (v : Option (List UInt8)), p.Ok →
      (ReadRow p v ↔ IsNumber v ∧ ∀ digits ∈ v, strtoullValue digits ≤ p.max) := by
    intro p v hp
    constructor
    · intro h
      exact ⟨fun digits hd => ⟨h.ne_nil digits hd, h.digits digits hd⟩,
        fun digits hd => h.fits.le _ (Option.mem_map_of_mem strtoullValue hd)⟩
    · rintro ⟨hnum, hle⟩
      refine ⟨fun digits hd => (hnum digits hd).1, fun digits hd => (hnum digits hd).2, hp.unit, ?_, hp.max⟩
      intro n hn
      obtain ⟨digits, hd, rfl⟩ := Option.mem_map.mp hn
      exact hle digits hd
  have hok := pattern_ok
  simp only [pattern, List.forall_mem_cons, List.not_mem_nil, false_implies, implies_true, and_true] at hok
  obtain ⟨hh, hm, hs, hms⟩ := hok
  simp only [rows, List.forall_mem_cons, List.not_mem_nil, false_implies, implies_true, and_true,
    hrow _ _ hh, hrow _ _ hm, hrow _ _ hs, hrow _ _ hms]
  constructor
  · rintro ⟨⟨h, h'⟩, ⟨m, m'⟩, ⟨s, s'⟩, ms, ms'⟩
    exact ⟨⟨h, m, s, ms⟩, ⟨h', m', s', ms'⟩⟩
  · rintro ⟨⟨h, m, s, ms⟩, ⟨h', m', s', ms'⟩⟩
    exact ⟨⟨h, h'⟩, ⟨m, m'⟩, ⟨s, s'⟩, ms, ms'⟩

end TimeNumbers

/-- A text with the units in order, and the time that the parser takes it for. A time that is not
zero has at least one number. -/
def TimeText (text : List UInt8) (t : Nat) : Prop :=
  ∃ g : TimeNumbers, g.Digits ∧ g.Within strtoullValue ∧ text = g.text ∧ t = g.time strtoullValue ∧
    1 ≤ t ∧ t ≤ uintMax

/-- **The time scanner reads the grammar of times**, in front of a separator. -/
theorem hweStrToTime_iff {s e : List UInt8} {t : Nat} (ht : t ≠ 0) :
    hweStrToTime s = .ok (t, e) ↔
      ∃ text sep rest, TimeText text t ∧ isSep sep = true ∧ e = sep :: rest ∧ s = text ++ sep :: rest := by
  constructor
  · intro h
    obtain ⟨items, sep, rest, hfst, hrows, hsep, he, hs, htime⟩ := hweStrToTime_stop h ht
    obtain ⟨g, rfl⟩ := TimeNumbers.exists_rows hfst
    obtain ⟨hdigits, hwithin⟩ := g.readRow_rows.mp hrows
    rw [readItems, g.itemsTime_rows] at htime
    exact ⟨g.text, sep, rest, ⟨g, hdigits, hwithin, rfl, htime, Nat.one_le_iff_ne_zero.mpr ht,
      time_of_hweStrToTime h⟩, hsep, he, g.writtenText_rows ▸ hs⟩
  · rintro ⟨_, sep, rest, ⟨g, hdigits, hwithin, rfl, rfl, _, hle⟩, hsep, rfl, rfl⟩
    have htime : itemsTime (readItems g.rows) = g.time strtoullValue := g.itemsTime_rows _
    rw [← htime] at ht hle ⊢
    rw [← g.writtenText_rows]
    exact hweStrToTime_read g.map_fst_rows (g.readRow_rows.mpr ⟨hdigits, hwithin⟩) ht hle hsep rest

section

variable {text : List UInt8} {t : Nat}

theorem mem_itemText {unit : String} {v : Option (List UInt8)} {c : UInt8} (hv : IsNumber v)
    (h : c ∈ itemText unit v) : isDigit c = true ∨ c ∈ bytes unit := by
  cases v with
  | none => exact absurd h List.not_mem_nil
  | some digits => exact (List.mem_append.mp h).imp_left ((hv digits rfl).2 c)

theorem TimeText.ne_zero (h : TimeText text t) : t ≠ 0 := by
  obtain ⟨_, _, _, _, _, hpos, _⟩ := h
  exact Nat.ne_of_gt hpos

/-- A time before an equals sign is read as what it stands for. -/
theorem TimeText.hweStrToTime (h : TimeText text t) (rest : List UInt8) :
    hweStrToTime (text ++ 61 :: rest) = .ok (t, 61 :: rest) :=
  (hweStrToTime_iff h.ne_zero).mpr ⟨text, 61, rest, h, by decide, rfl, rfl⟩

theorem TimeText.chars (h : TimeText text t) : ∀ c ∈ text, isDigit c = true ∨ c ∈ bytes "hms" := by
  obtain ⟨g, hdigits, _, rfl, _⟩ := h
  intro c hc
  simp only [TimeNumbers.text, List.mem_append] at hc
  have hunits : (∀ c ∈ bytes "h", c ∈ bytes "hms") ∧ (∀ c ∈ bytes "m", c ∈ bytes "hms") ∧
      (∀ c ∈ bytes "s", c ∈ bytes "hms") ∧ ∀ c ∈ bytes "ms", c ∈ bytes "hms" := by
    refine ⟨?_, ?_, ?_, ?_⟩ <;> exact List.all_iff_forall_prop.mp (by decide)
  rcases hc with hc | hc | hc | hc
  · exact (mem_itemText hdigits.h hc).imp_right (hunits.1 c)
  · exact (mem_itemText hdigits.m hc).imp_right (hunits.2.1 c)
  · exact (mem_itemText hdigits.s hc).imp_right (hunits.2.2.1 c)
  · exact (mem_itemText hdigits.ms hc).imp_right (hunits.2.2.2 c)

/-- A time begins with a digit and has a unit that is no hexadecimal digit. -/
theorem TimeText.digit_unit (h : TimeText text t) :
    (∃ c rest, text = c :: rest ∧ isDigit c = true) ∧ ∃ c ∈ text, isXDigit c = false := by
  obtain ⟨g, hdigits, _, rfl, htime, hpos, _⟩ := h
  have hitem : ∀ (unit : String) (v : Option (List UInt8)) (rest : List UInt8), IsNumber v →
      (∃ c ∈ bytes unit, isXDigit c = false) → v ≠ none →
      (∃ c tail, itemText unit v ++ rest = c :: tail ∧ isDigit c = true) ∧
        ∃ c ∈ itemText unit v ++ rest, isXDigit c = false := by
    intro unit v rest hv hunit hne
    obtain ⟨digits, rfl⟩ := Option.ne_none_iff_exists'.mp hne
    obtain ⟨hdne, hall⟩ := hv digits rfl
    obtain ⟨c, tail, rfl⟩ := List.exists_cons_of_ne_nil hdne
    obtain ⟨u, hu, hnot⟩ := hunit
    refine ⟨⟨c, tail ++ bytes unit ++ rest, by simp [itemText], hall c List.mem_cons_self⟩, u, ?_, hnot⟩
    exact List.mem_append_left rest (List.mem_append_right (c :: tail) hu)
  have hletter : ∀ unit ∈ ["h", "m", "s", "ms"], ∃ c ∈ bytes unit, isXDigit c = false := by decide
  simp only [List.forall_mem_cons] at hletter
  obtain ⟨hh, hm, hs, hms, _⟩ := hletter
  unfold TimeNumbers.text
  by_cases h₁ : g.h = none
  · by_cases h₂ : g.m = none
    · by_cases h₃ : g.s = none
      · by_cases h₄ : g.ms = none
        · rw [TimeNumbers.time, h₁, h₂, h₃, h₄] at htime
          exact absurd htime (Nat.ne_of_gt hpos)
        · have hlast := hitem "ms" g.ms [] hdigits.ms hms h₄
          rw [h₁, h₂, h₃]
          rwa [List.append_nil] at hlast
      · rw [h₁, h₂]
        exact hitem "s" g.s _ hdigits.s hs h₃
    · rw [h₁]
      exact hitem "m" g.m _ hdigits.m hm h₂
  · exact hitem "h" g.h _ hdigits.h hh h₁

end

/-! ### Keys and responses -/

/-- An even number of hexadecimal digits, of at most `max` bytes. -/
structure HexText (max : Nat) (digits : List UInt8) : Prop where
  ne_nil : digits ≠ []
  even : digits.length % 2 = 0
  le : digits.length ≤ 2 * max
  digits : ∀ c ∈ digits, isXDigit c = true

inductive PairKey where
  | request (req : List UInt8)
  | timer (t : Nat)

/-- A text before the equals sign, and what it stands for. -/
inductive KeyText : List UInt8 → PairKey → Prop where
  | request {digits : List UInt8} : HexText hweMaxRequest digits → KeyText digits (.request (fromHex digits))
  | time {text : List UInt8} {t : Nat} : TimeText text t → KeyText text (.timer t)
  | timer {text : List UInt8} {t : Nat} : TimeText text t → KeyText (bytes "timer:" ++ text) (.timer t)

/-- A text that stands for a pair. The response ends at a newline or at the end. -/
def PairText (str : List UInt8) (key : PairKey) (resp : List UInt8) : Prop :=
  ∃ text digits tail, str = text ++ 61 :: (digits ++ tail) ∧ KeyText text key ∧
    HexText hweMaxResponse digits ∧ (tail = [] ∨ ∃ t, tail = 10 :: t) ∧ resp = fromHex digits

/-- The fields that a key sets. -/
def PairKey.fill (HZ : Nat) : PairKey → Pair w → Pair w
  | .request req, mem => { mem with req := req, asyncRx := false }
  | .timer t, mem => { mem with
      req := []
      asyncRx := true
      periodMs := t
      period := msecsToJiffies w HZ t
      time := 0 }

section

variable {HZ : Nat} {text s : List UInt8} {key : PairKey} {mem p : Pair w}

/-- The characters of a key are hexadecimal digits or letters of a timer. -/
theorem KeyText.chars (h : KeyText text key) : ∀ c ∈ text, isXDigit c = true ∨ c ∈ bytes "timer:hms" := by
  have htime : ∀ {text t}, TimeText text t → ∀ c ∈ text, isXDigit c = true ∨ c ∈ bytes "timer:hms" := by
    intro text t h c hc
    rcases h.chars c hc with hdigit | hunit
    · exact Or.inl (by simp [isXDigit, hdigit])
    · exact Or.inr (List.mem_append_right (bytes "timer:") hunit)
  cases h with
  | request h => exact fun c hc => Or.inl (h.digits c hc)
  | time h => exact htime h
  | timer h =>
      intro c hc
      rcases List.mem_append.mp hc with hc | hc
      · exact Or.inr (List.mem_append_left (bytes "hms") hc)
      · exact htime h c hc

/-- No key has an equals sign or a null in it, or a character that is not ASCII. -/
theorem KeyText.ne (h : KeyText text key) : ∀ c ∈ text, c ≠ 61 ∧ c ≠ 0 ∧ c < 128 := by
  have hall : ∀ c, isXDigit c = true ∨ c ∈ bytes "timer:hms" → c ≠ 61 ∧ c ≠ 0 ∧ c < 128 := fun c =>
    forall_byte (P := fun c => isXDigit c = true ∨ c ∈ bytes "timer:hms" → c ≠ 61 ∧ c ≠ 0 ∧ c < 128)
      (by decide +kernel) c
  exact fun c hc => hall c (h.chars c hc)

theorem KeyText.length_pos (h : KeyText text key) : 1 ≤ text.length := by
  cases h with
  | request h => exact List.length_pos_iff.mpr h.ne_nil
  | time h =>
      obtain ⟨⟨c, rest, rfl, _⟩, _⟩ := h.digit_unit
      exact Nat.le_add_left 1 rest.length
  | timer h =>
      rw [List.length_append]
      exact Nat.le_add_right_of_le (by decide)

/-- A key of the grammar is read as what it stands for. -/
theorem strToKey_of_keyText (h : KeyText text key) (hmax : text.length ≤ uintMax) (rest : List UInt8)
    (mem : Pair w) :
    strToKey HZ (text ++ 61 :: rest) (text.length : Int) mem = .ok (.ok (key.fill HZ mem)) := by
  cases h with
  | request h =>
      have heven := h.even
      have hle := h.le
      exact strToKey_hex HZ h.digits (show _ = 2 * (text.length / 2) by omega) (by omega) rest mem
  | time h =>
      obtain ⟨⟨c, tail, rfl, hc⟩, hnot⟩ := h.digit_unit
      have hfound : hasPrefix (bytes "timer:") (c :: tail ++ 61 :: rest) = .ok false := by
        have hne : (116 : UInt8) ≠ c := by
          rintro rfl
          exact absurd hc (by decide)
        exact if_neg hne
      have hhex : isHexStr (c :: tail ++ 61 :: rest) (toSizeT ((c :: tail).length : Int)) = .ok false := by
        rw [toSizeT_of_le hmax, isHexStr_eq (by simp), List.take_left, List.all_eq_false.mpr (by simpa using hnot)]
      exact strToKey_time HZ rest hhex hfound h.ne_zero (h.hweStrToTime rest) mem
  | @timer time t h =>
      refine strToKey_timer HZ rest ?_ h.ne_zero (h.hweStrToTime rest) mem
      rw [toSizeT_of_le hmax, List.length_append]
      exact Nat.ne_of_gt (Nat.add_pos_left (by decide) time.length)

/-- What was found by a search, and what stands before it. -/
theorem strnchr_some {count n : Nat} {c : UInt8} (h : strnchr s count c = .ok (some n)) :
    ∃ pre post, s = pre ++ c :: post ∧ pre.length = n ∧ ∀ x ∈ pre, x ≠ c ∧ x ≠ 0 := by
  induction s generalizing count n with
  | nil => cases count <;> simp [strnchr] at h
  | cons x s ih =>
      cases count with
      | zero => simp [strnchr] at h
      | succ count =>
          rw [strnchr] at h
          split at h
          · rename_i hc
            obtain rfl : 0 = n := Option.some.inj (Except.ok.inj h)
            exact ⟨[], s, by rw [hc, List.nil_append], rfl, by simp⟩
          · rename_i hc
            split at h
            · simp at h
            · rename_i hzero
              obtain ⟨r, hr, h⟩ := Except.bind_eq_ok_iff.mp h
              obtain ⟨m, rfl, rfl⟩ := Option.map_eq_some_iff.mp (Except.ok.inj h)
              obtain ⟨pre, post, rfl, hlen, hpre⟩ := ih hr
              exact ⟨x :: pre, post, rfl, congrArg (· + 1) hlen, List.forall_mem_cons.mpr ⟨⟨hc, hzero⟩, hpre⟩⟩

/-- What was decoded are hexadecimal digits. -/
theorem hex2bin_digits {room count : Nat} {dst : List UInt8} (h : hex2bin room s count = .ok (some dst))
    (hlen : 2 * count ≤ s.length) :
    (∀ c ∈ s.take (2 * count), isXDigit c = true) ∧ dst = fromHex (s.take (2 * count)) := by
  have hdigit : ∀ c, (hexToBin c).isSome → isXDigit c = true := fun c =>
    forall_byte (P := fun c => (hexToBin c).isSome → isXDigit c = true) (by decide +kernel) c
  induction count generalizing room s dst with
  | zero =>
      have hdst : dst = [] := by
        cases room <;> simpa [hex2bin, eq_comm] using h
      exact ⟨by simp, hdst⟩
  | succ count ih =>
      rcases s with _ | ⟨hi, _ | ⟨lo, src⟩⟩
      · simp [hex2bin] at h
      · simp [hex2bin] at h
      · rw [hex2bin] at h
        split at h
        · rename_i a b ha hb
          cases room with
          | zero => simp at h
          | succ room =>
              obtain ⟨r, hr, h⟩ := Except.bind_eq_ok_iff.mp h
              obtain ⟨rest, rfl, rfl⟩ := Option.map_eq_some_iff.mp (Except.ok.inj h)
              obtain ⟨hdigits, hrest⟩ := ih hr (by simp only [List.length_cons] at hlen; omega)
              have htake : (hi :: lo :: src).take (2 * (count + 1)) = hi :: lo :: src.take (2 * count) := rfl
              rw [htake, fromHex, ← hrest, ha, hb]
              refine ⟨?_, rfl⟩
              rw [List.forall_mem_cons, List.forall_mem_cons]
              exact ⟨hdigit hi (by rw [ha]; rfl), hdigit lo (by rw [hb]; rfl), hdigits⟩
        · simp at h

/-- A text before the equals sign that is read is a key of the grammar. -/
theorem keyText_of_strToKey {rest : List UInt8} (hkey : ∀ c ∈ text, c ≠ 61) (hne : text ≠ [])
    (hmax : text.length ≤ intMax)
    (h : strToKey HZ (text ++ 61 :: rest) (text.length : Int) mem = .ok (.ok p)) :
    ∃ key, KeyText text key ∧ p = key.fill HZ mem := by
  -- what the scanner has read in front of the equals sign is all of the text
  have hscan : ∀ {time e t}, (∀ c ∈ time, c ≠ 61) → hweStrToTime (time ++ 61 :: rest) = .ok (t, e) →
      t ≠ 0 → deref e = .ok 61 → TimeText time t := by
    intro time e t htime hrun ht hderef
    obtain ⟨read, sep, tail, hread, _, rfl, hsplit⟩ := (hweStrToTime_iff ht).mp hrun
    obtain rfl : sep = 61 := Except.ok.inj hderef
    have hread61 : ∀ c ∈ read, c ≠ 61 := fun c hc => ((KeyText.time hread).ne c hc).1
    exact (append_cons_inj htime hread61 hsplit).1 ▸ hread
  unfold strToKey at h
  rw [toSizeT_of_le_intMax hmax, isHexStr_eq (by simp), List.take_left, Except.ok_bind] at h
  split at h
  · rename_i hhex
    split at h
    · simp at h
    · rename_i hfits
      split at h
      · simp at h
      · rename_i heven
        obtain ⟨res, hres, h⟩ := Except.bind_eq_ok_iff.mp h
        rw [toSizeT_half hmax] at hres
        cases res with
        | none => simp at h
        | some req =>
            have hhalf : 2 * (text.length / 2) = text.length := by omega
            obtain ⟨_, rfl⟩ := hex2bin_digits hres (by rw [hhalf]; simp)
            refine ⟨.request (fromHex text), .request ⟨hne, by omega, by omega, List.all_eq_true.mp hhex⟩, ?_⟩
            rw [hhalf, List.take_left] at h
            exact (Except.ok.inj (Except.ok.inj h)).symm
  · obtain ⟨found, hfound, h⟩ := Except.bind_eq_ok_iff.mp h
    obtain ⟨⟨t, e⟩, htime, h⟩ := Except.bind_eq_ok_iff.mp h
    dsimp only at h
    split at h
    · simp at h
    · rename_i ht
      obtain ⟨c, hc, h⟩ := Except.bind_eq_ok_iff.mp h
      split at h
      · simp at h
      · rename_i heq
        rw [not_not.mp heq] at hc
        have hp := (Except.ok.inj (Except.ok.inj h)).symm
        cases found with
        | false => exact ⟨.timer t, .time (hscan hkey htime ht hc), hp⟩
        | true =>
            -- the equals sign is not inside `timer:`
            obtain ⟨tail, hsplit⟩ := hasPrefix_split hfound
            obtain ⟨time, rfl⟩ : ∃ time, text = bytes "timer:" ++ time := by
              rcases List.append_eq_append_iff.mp hsplit with ⟨l, hl, hr⟩ | ⟨l, hl, _⟩
              · cases l with
                | nil => exact ⟨[], by rw [List.append_nil, hl, List.append_nil]⟩
                | cons x l =>
                    obtain rfl : 61 = x := (List.cons.inj hr).1
                    have hmem : (61 : UInt8) ∈ bytes "timer:" := by
                      rw [hl]
                      exact List.mem_append_right _ List.mem_cons_self
                    exact absurd hmem (by decide)
              · exact ⟨l, hl⟩
            rw [if_pos rfl, List.append_assoc] at htime
            exact ⟨.timer t, .timer (hscan (fun c hc => hkey c (List.mem_append_right _ hc)) htime ht hc), hp⟩

/-- A response that is read is hexadecimal digits up to a newline or the end. -/
theorem hexText_of_strToResp (hmax : s.length ≤ intMax) (h : strToResp s (s.length : Int) mem = .ok (.ok p)) :
    ∃ digits tail, s = digits ++ tail ∧ HexText hweMaxResponse digits ∧
      (tail = [] ∨ ∃ t, tail = 10 :: t) ∧ p = { mem with resp := fromHex digits } := by
  unfold strToResp at h
  rw [toSizeT_of_le_intMax hmax] at h
  obtain ⟨e, he, h⟩ := Except.bind_eq_ok_iff.mp h
  obtain ⟨digits, tail, rfl, htail, hsz⟩ : ∃ digits tail, s = digits ++ tail ∧
      (tail = [] ∨ ∃ t, tail = 10 :: t) ∧
      (e.map fun n : Nat => toInt n).getD (s.length : Int) = digits.length := by
    cases e with
    | none => exact ⟨s, [], (List.append_nil s).symm, Or.inl rfl, rfl⟩
    | some n =>
        obtain ⟨pre, post, rfl, rfl, _⟩ := strnchr_some he
        refine ⟨pre, 10 :: post, rfl, Or.inr ⟨post, rfl⟩, ?_⟩
        rw [Option.map_some, Option.getD_some]
        refine toInt_of_le ?_
        rw [List.length_append] at hmax
        omega
  dsimp only at h
  rw [hsz] at h
  have hlen : digits.length ≤ intMax := by
    rw [List.length_append] at hmax
    omega
  split at h
  · simp at h
  · rename_i hzero
    split at h
    · simp at h
    · rename_i hfits
      split at h
      · simp at h
      · rename_i heven
        obtain ⟨res, hres, h⟩ := Except.bind_eq_ok_iff.mp h
        rw [toSizeT_half hlen] at hres
        cases res with
        | none => simp at h
        | some resp =>
            have hhalf : 2 * (digits.length / 2) = digits.length := by omega
            obtain ⟨hdigits, hresp⟩ := hex2bin_digits hres (by rw [hhalf]; simp)
            rw [hhalf, List.take_left] at hdigits hresp
            refine ⟨digits, tail, rfl, ⟨?_, by omega, by omega, hdigits⟩, htail, ?_⟩
            · rintro rfl
              exact hzero rfl
            · rw [← hresp]
              exact (Except.ok.inj (Except.ok.inj h)).symm

/-- **The parser reads the grammar of pairs**, and stores what a text stands for. -/
theorem strToPair_iff {str : List UInt8} (hlen : str.length ≤ intMax) :
    strToPair HZ str mem = .ok (.ok p) ↔
      ∃ key resp, PairText str key resp ∧ p = { (key.fill HZ mem) with resp := resp } := by
  constructor
  · intro h
    unfold strToPair at h
    split at h
    · simp at h
    · obtain ⟨pos, hpos, h⟩ := Except.bind_eq_ok_iff.mp h
      cases pos with
      | none => simp at h
      | some e =>
          obtain ⟨text, rest, rfl, rfl, hkey⟩ := strnchr_some hpos
          have htotal : (text ++ 61 :: rest).length = text.length + (1 + rest.length) := by
            rw [List.length_append, List.length_cons, Nat.add_comm 1]
          have htext : text.length ≤ intMax := by omega
          have hrest : toInt (((text ++ 61 :: rest).length : Int) - (text.length + 1)) = rest.length := by
            have hdiff : ((text ++ 61 :: rest).length : Int) - (text.length + 1) = (rest.length : Int) := by omega
            rw [hdiff, toInt_of_le (by omega)]
          have hdrop : (text ++ 61 :: rest).drop (text.length + 1) = rest := by simp [List.drop_append]
          dsimp only at h
          rw [toInt_of_le htext, hrest, hdrop] at h
          split at h
          · simp at h
          · rename_i hne
            obtain ⟨read, hread, h⟩ := Except.bind_eq_ok_iff.mp h
            cases read with
            | error err => simp at h
            | ok q =>
                have hne' : text ≠ [] := by
                  rintro rfl
                  exact hne rfl
                obtain ⟨key, hkeyText, rfl⟩ :=
                  keyText_of_strToKey (fun c hc => (hkey c hc).1) hne' htext hread
                obtain ⟨digits, tail, rfl, hdigits, htail, rfl⟩ :=
                  hexText_of_strToResp (show rest.length ≤ intMax by omega) h
                exact ⟨key, _, ⟨text, digits, tail, rfl, hkeyText, hdigits, htail, rfl⟩, rfl⟩
  · rintro ⟨key, _, ⟨text, digits, tail, rfl, hkey, hdigits, htail, rfl⟩, rfl⟩
    have hlenText : text.length ≤ uintMax := by
      rw [List.length_append] at hlen
      unfold intMax at hlen
      unfold uintMax
      omega
    have heven := hdigits.even
    have hle := hdigits.le
    have hpos := List.length_pos_iff.mpr hdigits.ne_nil
    exact strToPair_eq (fun c hc => ⟨(hkey.ne c hc).1, (hkey.ne c hc).2.1⟩) hkey.length_pos hdigits.digits
      (show _ = 2 * (digits.length / 2) by omega) (by omega) (by omega) htail hlen
      (strToKey_of_keyText hkey hlenText _ mem)

end

/-- **What the parser accepts.** A text of at most `INT_MAX` bytes is accepted if and only if it is in
the grammar, is rejected otherwise, and is stored as the one pair that it stands for. -/
theorem pair_grammar (HZ : Nat) {str : List UInt8} (hlen : str.length ≤ intMax) (mem : Pair w) :
    ((∃ pair, strToPair HZ str mem = .ok (.ok pair)) ↔ ∃ key resp, PairText str key resp) ∧
    ((¬∃ key resp, PairText str key resp) → ∃ err, strToPair HZ str mem = .ok (.error err)) ∧
    ∀ pair key resp, strToPair HZ str mem = .ok (.ok pair) → PairText str key resp →
      pair = { (key.fill HZ mem) with resp := resp } := by
  have haccept : (∃ pair, strToPair HZ str mem = .ok (.ok pair)) ↔ ∃ key resp, PairText str key resp := by
    constructor
    · rintro ⟨pair, h⟩
      obtain ⟨key, resp, htext, _⟩ := (strToPair_iff hlen).mp h
      exact ⟨key, resp, htext⟩
    · rintro ⟨key, resp, htext⟩
      exact ⟨_, (strToPair_iff hlen).mpr ⟨key, resp, htext, rfl⟩⟩
  refine ⟨haccept, ?_, ?_⟩
  · intro hnot
    rcases strToPair_total (w := w) HZ hlen with ⟨q, _, hall⟩ | ⟨err, hall⟩
    · exact absurd (haccept.mp ⟨_, hall mem⟩) hnot
    · exact ⟨err, hall mem⟩
  · intro pair key resp hrun htext
    have hstored : strToPair HZ str mem = .ok (.ok { (key.fill HZ mem) with resp := resp }) :=
      (strToPair_iff hlen).mpr ⟨key, resp, htext, rfl⟩
    exact Except.ok.inj (Except.ok.inj (hrun.symm.trans hstored))

theorem pair_grammar_applies :
    (∃ key resp, PairText (bytes "timer:1m5ms=0aFF\n") key resp) ∧
    ∃ err, strToPair 250 (bytes "timer:5ms1m=0aFF\n") (Pair.zeroed 64) = .ok (.error err) := by
  have haccepted : ∃ pair, strToPair 250 (bytes "timer:1m5ms=0aFF\n") (Pair.zeroed 64) = .ok (.ok pair) :=
    ⟨{ Pair.zeroed 64 with
        resp := [0x0a, 0xff]
        asyncRx := true
        periodMs := 60005
        period := msecsToJiffies 64 250 60005 }, by decide +kernel⟩
  have hrejected : ¬∃ pair, strToPair 250 (bytes "timer:5ms1m=0aFF\n") (Pair.zeroed 64) = .ok (.ok pair) := by
    rintro ⟨pair, h⟩
    have herr : strToPair 250 (bytes "timer:5ms1m=0aFF\n") (Pair.zeroed 64) =
        .ok (.error "invalid data definition") := by decide +kernel
    exact absurd (Except.ok.inj (h.symm.trans herr)) (by simp)
  have hlen : (bytes "timer:5ms1m=0aFF\n").length ≤ intMax := by decide
  obtain ⟨hiff, hreject, _⟩ := pair_grammar 250 hlen (Pair.zeroed 64)
  exact ⟨(pair_grammar 250 (show (bytes "timer:1m5ms=0aFF\n").length ≤ intMax by decide) (Pair.zeroed 64)).1.mp
    haccepted, hreject fun hgrammar => hrejected (hiff.mpr hgrammar)⟩

/-- **Longer than an `int`.** Of a request of `2^32 + 2` digits the parser looks at two. -/
theorem long_request_accepted : ∃ str : List UInt8,
    (∃ pair, strToPair 250 str (Pair.zeroed 64) = .ok (.ok pair)) ∧ ¬∃ key resp, PairText str key resp := by
  have hzeros : ∀ c ∈ List.replicate (2 ^ 32 + 2) (48 : UInt8), c = 48 := fun c => List.eq_of_mem_replicate
  have hsep : ∀ c ∈ List.replicate (2 ^ 32 + 2) (48 : UInt8), c ≠ 61 ∧ c ≠ 0 := by
    intro c hc
    rw [hzeros c hc]
    decide
  refine ⟨List.replicate (2 ^ 32 + 2) 48 ++ 61 :: [97, 97], ?_, ?_⟩
  · have htotal : (List.replicate (2 ^ 32 + 2) (48 : UInt8) ++ 61 :: [97, 97]).length = 2 ^ 32 + 5 := by
      rw [List.length_append, List.length_replicate]
      rfl
    have hnchr := strnchr_append [97, 97] hsep
      (show (List.replicate (2 ^ 32 + 2) (48 : UInt8)).length < 2 ^ 32 + 5 by
        rw [List.length_replicate]
        omega)
    rw [List.length_replicate] at hnchr
    have hdrop : (List.replicate (2 ^ 32 + 2) (48 : UInt8) ++ 61 :: [97, 97]).drop (2 ^ 32 + 2 + 1) = [97, 97] := by
      have hlen : (List.replicate (2 ^ 32 + 2) (48 : UInt8)).length = 2 ^ 32 + 2 := List.length_replicate
      rw [List.drop_append, hlen, List.drop_eq_nil_of_le (by rw [hlen]; omega), List.nil_append,
        Nat.add_sub_cancel_left]
      rfl
    have hkey : strToKey 250 (List.replicate (2 ^ 32 + 2) (48 : UInt8) ++ 61 :: [97, 97]) 2 (Pair.zeroed 64) =
        .ok (.ok { Pair.zeroed 64 with req := [0] }) := rfl
    have hresp : strToResp [97, 97] 2 { Pair.zeroed 64 with req := [0] } =
        .ok (.ok { Pair.zeroed 64 with req := [0], resp := [0xaa] }) := rfl
    have hsize : toInt ((2 ^ 32 + 2 : Nat) : Int) = 2 := by decide
    have hrest : toInt (((2 ^ 32 + 5 : Nat) : Int) - (2 + 1)) = 2 := by decide
    refine ⟨{ Pair.zeroed 64 with req := [0], resp := [0xaa] }, ?_⟩
    unfold strToPair
    rw [htotal, if_neg (by omega), hnchr, Except.ok_bind]
    dsimp only
    rw [hsize, if_neg (by decide), hkey, Except.ok_bind]
    dsimp only
    rw [hdrop, hrest]
    exact hresp
  · rintro ⟨key, resp, text, digits, tail, hsplit, hkey, _⟩
    obtain ⟨rfl, _⟩ := append_cons_inj (fun c hc => (hsep c hc).1) (fun c hc => (hkey.ne c hc).1) hsplit
    have hdigit : ∀ c ∈ List.replicate (2 ^ 32 + 2) (48 : UInt8), isXDigit c = true := by
      intro c hc
      rw [hzeros c hc]
      decide
    generalize hzero : List.replicate (2 ^ 32 + 2) (48 : UInt8) = zeros at hkey hdigit
    cases hkey with
    | request h =>
        have hle := h.le
        rw [← hzero, List.length_replicate] at hle
        exact absurd hle (by decide)
    | time h =>
        obtain ⟨c, hc, hnot⟩ := h.digit_unit.2
        rw [hdigit c hc] at hnot
        exact absurd hnot (by decide)
    | timer h => exact absurd (hdigit 116 (List.mem_append_left _ (by decide))) (by decide)

end Hwemu
