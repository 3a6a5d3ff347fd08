import Hwemu.HwectlText

/-!
# Timers of the utility and of the module

A key that `check_async_key` accepts is a timer to `str_to_pair`: the groups of the regular expression
are the only numbers that the unit scan can find in it, and their total is the period.
-/

namespace Hwemu

namespace Hwectl

variable {w : Nat} {py : Python} {k : Str}

/-- A response as it is sent: hexadecimal digits, and perhaps a newline. -/
def RespText (r resp : List UInt8) : Prop :=
  ∃ digits tail, r = digits ++ tail ∧ HexText hweMaxResponse digits ∧ (tail = [] ∨ tail = [10]) ∧
    resp = fromHex digits

theorem strToResp_respText {r resp : List UInt8} (h : RespText r resp) (mem : Pair w) :
    r.length ≤ intMax ∧ strToResp r (r.length : Int) mem = .ok (.ok { mem with resp := resp }) := by
  obtain ⟨digits, tail, rfl, hdigits, htail, rfl⟩ := h
  have heven := hdigits.even
  have hle := hdigits.le
  have hpos := List.length_pos_iff.mpr hdigits.ne_nil
  have hone : tail.length ≤ 1 := by
    rcases htail with rfl | rfl
    · exact Nat.zero_le 1
    · exact le_rfl
  have hbound : (digits ++ tail).length ≤ intMax := by
    unfold hweMaxResponse at hle
    unfold intMax
    rw [List.length_append]
    omega
  have htail' : tail = [] ∨ ∃ t, tail = 10 :: t := htail.imp_right fun h => ⟨[], h⟩
  exact ⟨hbound, strToResp_eq hdigits.digits (show _ = 2 * (digits.length / 2) by omega) (by omega) (by omega)
    htail' hbound mem⟩

/-- A length is wrapped to no size only if it is a multiple of `2^32`. -/
theorem toSizeT_toInt_ne_zero {n : Nat} (h : n % 2 ^ 32 ≠ 0) :
    toInt (n : Int) ≠ 0 ∧ toSizeT (toInt (n : Int)) ≠ 0 := by
  simp only [toInt, toSizeT, Int.bmod_def]
  omega

/-- **The check of the utility is sound for the module.** A key in ASCII that it accepts, of a length
that is no multiple of `2^32`, is a timer of the same time in front of every response, and the groups
of the regular expression are the only numbers in it. -/
theorem async_key_sound (HZ : Nat) (mem : Pair w) (hk : checkAsyncKey py k = .ok (true, none))
    (hascii : ∀ c ∈ k, c.toNat < 128) (hlen : k.length % 2 ^ 32 ≠ 0) {r resp : List UInt8}
    (hr : RespText r resp) :
    ∃ t g pair, asyncKeyTime py k = .ok (.ok t) ∧ timerGroups py k = some g ∧
      strToPair HZ (utf8 k ++ 61 :: r) mem = .ok (.ok pair) ∧ pair.asyncRx = true ∧
      (pair.periodMs : Int) = t ∧ pair.resp = resp ∧
      g.numbers.Ends ((utf8 k).drop 6 ++ 61 :: r) (61 :: r) ∧
      ∀ (g' : TimeNumbers) e, g'.Ends ((utf8 k).drop 6 ++ 61 :: r) e → g' = g.numbers := by
  obtain ⟨t, ht⟩ : ∃ t, asyncKeyTime py k = .ok (.ok t) := by
    obtain ⟨res, hres, h⟩ := Except.bind_eq_ok_iff.mp hk
    cases res with
    | error err => simp at h
    | ok t => exact ⟨t, hres⟩
  obtain ⟨g, hg, hkey, hdigits, hwithin, htime, hpos, hmax⟩ := numbers_key ht hascii
  obtain ⟨hvalue, hiff⟩ := TimeNumbers.value_eq hwithin.not_wide
  have htext : TimeText g.numbers.text t.toNat :=
    ⟨g.numbers, hdigits, hiff.mpr hwithin, rfl, by omega, by omega, by omega⟩
  have hends : g.numbers.Ends ((utf8 k).drop 6 ++ 61 :: r) (61 :: r) := by
    rw [hkey]
    exact ⟨hdigits, rfl, 61, r, by decide, rfl⟩
  have hscan : hweStrToTime (g.numbers.text ++ 61 :: r) = .ok (t.toNat, 61 :: r) :=
    (hweStrToTime_iff (by omega)).mpr ⟨_, 61, r, htext, by decide, rfl, rfl⟩
  rw [← length_utf8_of_ascii hascii] at hlen
  obtain ⟨hne, hsz⟩ := toSizeT_toInt_ne_zero hlen
  have hread := strToKey_timer HZ r hsz (show t.toNat ≠ 0 by omega) hscan mem
  rw [← hkey] at hread
  have hchars : ∀ c ∈ utf8 k, c ≠ 61 ∧ c ≠ 0 := by
    intro c hc
    have hc' := (KeyText.timer htext).ne c (hkey ▸ hc)
    exact ⟨hc'.1, hc'.2.1⟩
  obtain ⟨hrlen, hresp⟩ := strToResp_respText hr { mem with
    req := []
    asyncRx := true
    periodMs := t.toNat
    period := msecsToJiffies w HZ t.toNat
    time := 0 }
  refine ⟨t, g, _, ht, hg, (strToPair_eq_resp hchars hne hrlen hread).trans hresp, rfl, ?_, rfl, hends, ?_⟩
  · exact Int.toNat_of_nonneg hpos.le
  · exact fun g' e h => h.unique hends

/-- A key with leading zeros and a skipped unit. -/
theorem async_key_sound_applies : ∃ t g pair, asyncKeyTime samplePython "timer:007m5ms".toList = .ok (.ok t) ∧
    timerGroups samplePython "timer:007m5ms".toList = some g ∧
    strToPair 250 (utf8 "timer:007m5ms".toList ++ 61 :: bytes "aa\n") (Pair.zeroed 64) = .ok (.ok pair) ∧
    (pair.periodMs : Int) = t := by
  have hk : checkAsyncKey samplePython "timer:007m5ms".toList = .ok (true, none) :=
    Except.eq_ok_of_toOption (by decide +kernel)
  have hr : RespText (bytes "aa\n") [0xaa] :=
    ⟨bytes "aa", [10], rfl, ⟨by decide, by decide, by decide, List.all_iff_forall_prop.mp (by decide)⟩, Or.inr rfl, rfl⟩
  obtain ⟨t, g, pair, ht, hg, hpair, _, hperiod, _⟩ :=
    async_key_sound 250 (Pair.zeroed 64) hk (List.all_iff_forall_prop.mp (by decide)) (by decide) hr
  exact ⟨t, g, pair, ht, hg, hpair, hperiod⟩

/-! ### A key that is too long -/

/-- An interpreter that puts no limit on the digits of a number. -/
def unlimitedPython : Python :=
  { samplePython with
    intMaxStrDigits := none
    intMaxStrDigits_ge := fun _ hn => absurd hn (Option.not_mem_none _) }

section

variable {ds : List Nat}

theorem takeWhile_digitChars (hlt : ∀ d ∈ ds, d < 10) {c : Char} (hc : py.decimal c = none) (tail : Str) :
    (digitChars ds ++ c :: tail).takeWhile (fun c => (py.decimal c).isSome) = digitChars ds := by
  have hdecimal : ∀ c ∈ digitChars ds, (py.decimal c).isSome := by
    intro c hc
    obtain ⟨d, hd, rfl⟩ := List.mem_map.mp hc
    rw [decimal_digitChar py (hlt d hd), Option.isSome_some]
  rw [List.takeWhile_append_of_pos hdecimal, List.takeWhile_cons_of_neg (by simp [hc]), List.append_nil]

/-- Hours alone are the first group. -/
theorem timerGroups_hours (py : Python) (hne : ds ≠ []) (hlt : ∀ d ∈ ds, d < 10) :
    timerGroups py ("timer:".toList ++ (digitChars ds ++ ['h'])) = some ⟨some (digitChars ds), none, none, none⟩ := by
  have hunit : py.decimal 'h' = none := by
    rw [py.decimal_ascii 'h' (by decide)]
    rfl
  have hne' : digitChars ds ≠ [] := by
    intro hnil
    exact hne (List.map_eq_nil_iff.mp hnil)
  have hempty : ∀ {α : Type} (unit : Str) (rest : Option Str → Str → Option α),
      optGroup py unit rest [] = rest none [] := by
    intro α unit rest
    simp [optGroup]
  have hstart : startsWith "timer:".toList ("timer:".toList ++ (digitChars ds ++ ['h'])) = true := rfl
  have hdrop : ("timer:".toList ++ (digitChars ds ++ ['h'])).drop 6 = digitChars ds ++ ['h'] := rfl
  unfold timerGroups
  rw [if_pos hstart, hdrop, optGroup]
  simp only [takeWhile_digitChars hlt hunit [], List.drop_left]
  rw [if_pos ⟨hne', rfl⟩]
  simp only [List.length_singleton, List.drop_one, List.tail_cons, hempty, if_true, Option.some_or]

/-- One hour, in whatever digits. -/
theorem checkAsyncKey_hour (hne : ds ≠ []) (hlt : ∀ d ∈ ds, d < 10) (hint : pyInt py (digitChars ds) = some 1) :
    checkAsyncKey py ("timer:".toList ++ (digitChars ds ++ ['h'])) = .ok (true, none) := by
  have hgroup : groupInt py (some (digitChars ds)) = .ok 1 := by
    unfold groupInt
    dsimp only
    rw [hint]
  have hnone : groupInt py none = .ok 0 := rfl
  have htime : asyncKeyTime py ("timer:".toList ++ (digitChars ds ++ ['h'])) = .ok (.ok 3600000) := by
    unfold asyncKeyTime
    rw [timerGroups_hours py hne hlt]
    simp only [hgroup, hnone, Except.ok_bind]
    rw [if_neg (by decide), if_neg (by decide), if_neg (by decide), if_neg (by decide), if_neg (by decide)]
    rfl
  rw [checkAsyncKey, htime]
  rfl

end

/-- **A key as long as an `int` can count.** The module takes a key of `2^32` characters for an empty
one. -/
theorem long_key_refused : ∃ (py : Python) (k : Str), checkAsyncKey py k = .ok (true, none) ∧
    (∀ c ∈ k, c.toNat < 128) ∧ RespText (bytes "aa") [0xaa] ∧
    strToPair 250 (utf8 k ++ 61 :: bytes "aa") (Pair.zeroed 64) = .ok (.error "empty request") := by
  have hlt : ∀ d ∈ List.replicate (2 ^ 32 - 8) 0 ++ [1], d < 10 := by
    intro d hd
    rcases List.mem_append.mp hd with hd | hd
    · rw [List.eq_of_mem_replicate hd]
      decide
    · rw [List.mem_singleton.mp hd]
      decide
  have hvalue : (List.replicate (2 ^ 32 - 8) 0 ++ [1]).foldl (fun acc d => acc * 10 + d) 0 = 1 := by
    have hzeros : ∀ n, (List.replicate n 0).foldl (fun acc d => acc * 10 + d) 0 = 0 := by
      intro n
      induction n with
      | zero => rfl
      | succ n ih => exact ih
    rw [List.foldl_append, hzeros]
    rfl
  have hlength : (List.replicate (2 ^ 32 - 8) 0 ++ [1]).length = 2 ^ 32 - 7 := by
    rw [List.length_append, List.length_replicate]
    rfl
  generalize List.replicate (2 ^ 32 - 8) 0 ++ [1] = ds at hlt hvalue hlength
  have hne : ds ≠ [] := by
    rintro rfl
    exact absurd hlength (by decide)
  have hchars : ∀ c ∈ "timer:".toList ++ (digitChars ds ++ ['h']), c.toNat < 128 ∧ c ≠ '=' ∧ c.toNat ≠ 0 := by
    intro c hc
    rcases List.mem_append.mp hc with hc | hc
    · exact (show ∀ c ∈ "timer:".toList, c.toNat < 128 ∧ c ≠ '=' ∧ c.toNat ≠ 0 from
        List.all_iff_forall_prop.mp (by decide)) c hc
    · rcases List.mem_append.mp hc with hc | hc
      · obtain ⟨d, hd, rfl⟩ := List.mem_map.mp hc
        have hspec : ∀ d < 10, (Char.ofNat (UInt8.ofNat (48 + d)).toNat).toNat < 128 ∧
            Char.ofNat (UInt8.ofNat (48 + d)).toNat ≠ '=' ∧
            (Char.ofNat (UInt8.ofNat (48 + d)).toNat).toNat ≠ 0 := by decide
        exact hspec d (hlt d hd)
      · rw [List.mem_singleton.mp hc]
        decide
  have hascii : ∀ c ∈ "timer:".toList ++ (digitChars ds ++ ['h']), c.toNat < 128 := fun c hc => (hchars c hc).1
  refine ⟨unlimitedPython, "timer:".toList ++ (digitChars ds ++ ['h']), ?_, hascii, ?_, ?_⟩
  · refine checkAsyncKey_hour hne hlt ?_
    rw [pyInt_digitChars unlimitedPython hne hlt, hvalue]
    rfl
  · exact ⟨bytes "aa", [], rfl, ⟨by decide, by decide, by decide, List.all_iff_forall_prop.mp (by decide)⟩, Or.inl rfl, rfl⟩
  · have hkey : ∀ b ∈ utf8 ("timer:".toList ++ (digitChars ds ++ ['h'])), b ≠ 61 ∧ b ≠ 0 := by
      intro b hb
      constructor
      · rintro rfl
        exact (hchars _ (mem_of_mem_utf8 hb (by decide))).2.1 rfl
      · rintro rfl
        exact (hchars _ (mem_of_mem_utf8 hb (by decide))).2.2 rfl
    have hlen : (utf8 ("timer:".toList ++ (digitChars ds ++ ['h']))).length = 2 ^ 32 := by
      have hsix : "timer:".toList.length = 6 := rfl
      rw [length_utf8_of_ascii hascii, List.length_append, List.length_append, hsix, digitChars, List.length_map,
        hlength, List.length_singleton]
      norm_num
    have htotal : (utf8 ("timer:".toList ++ (digitChars ds ++ ['h'])) ++ 61 :: bytes "aa").length = 2 ^ 32 + 3 := by
      have hthree : (61 :: bytes "aa").length = 3 := rfl
      rw [List.length_append, hlen, hthree]
    have hnchr := strnchr_append (bytes "aa") hkey (show _ < 2 ^ 32 + 3 by rw [hlen]; omega)
    have hzero : toInt ((2 ^ 32 : Nat) : Int) = 0 := by decide
    unfold strToPair
    rw [htotal, if_neg (by omega), hnchr, Except.ok_bind]
    dsimp only
    rw [hlen, if_pos hzero]
    rfl

end Hwectl

end Hwemu
