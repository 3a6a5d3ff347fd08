import Hwemu.TimeText
import Hwemu.Lib.Except
import Mathlib.Data.List.TakeWhile

/-!
# The pair text format

What the parser guarantees about a pair it accepts, and the round trip through the printed text in
both directions.
-/

namespace Hwemu

variable {w : Nat}

/-- The ranges a pair in a device keeps to. -/
structure Pair.Valid (p : Pair w) : Prop where
  resp_pos : 1 ≤ p.resp.length
  resp_le : p.resp.length ≤ hweMaxResponse
  sync : p.asyncRx = false → 1 ≤ p.req.length ∧ p.req.length ≤ hweMaxRequest
  timer : p.asyncRx = true → p.req = [] ∧ 1 ≤ p.periodMs ∧ p.periodMs ≤ uintMax

/-- The record `mem` with the fields the parser sets for the pair `p`. -/
def Pair.filled (HZ : Nat) (mem p : Pair w) : Pair w :=
  if p.asyncRx then
    { mem with
      req := p.req
      resp := p.resp
      asyncRx := true
      periodMs := p.periodMs
      period := msecsToJiffies w HZ p.periodMs
      time := 0 }
  else { mem with req := p.req, resp := p.resp, asyncRx := false }

/-! ### From a pair to its text and back -/

/-- The test looks at the first `size` characters. -/
theorem isHexStr_eq {str : List UInt8} {size : Nat} (hsize : size ≤ str.length) :
    isHexStr str size = .ok ((str.take size).all isXDigit) := by
  induction str generalizing size with
  | nil =>
      obtain rfl : size = 0 := by simpa using hsize
      rfl
  | cons c str ih =>
      cases size with
      | zero => rfl
      | succ size =>
          rw [List.take_succ_cons, List.all_cons, isHexStr, ih (by simpa using hsize)]
          cases isXDigit c <;> rfl

/-- The number of bytes that hexadecimal digits stand for. -/
theorem toSizeT_tdiv_two {n count : Nat} (hn : n = 2 * count) (hcount : count ≤ uintMax) :
    toSizeT ((n : Int).tdiv 2) = count := by
  have htdiv : (n : Int).tdiv 2 = (count : Int) := by
    rw [Int.tdiv_eq_ediv_of_nonneg (by omega)]
    omega
  rw [htdiv, toSizeT_of_le hcount]

/-- A response in hexadecimal digits is read up to the end or to a newline. -/
theorem strToResp_eq {resp tail : List UInt8} {count : Nat} (hdigits : ∀ c ∈ resp, isXDigit c = true)
    (hlen : resp.length = 2 * count) (hpos : 1 ≤ count) (hle : count ≤ hweMaxResponse)
    (htail : tail = [] ∨ ∃ t, tail = 10 :: t) (hbound : (resp ++ tail).length ≤ intMax) (pair : Pair w) :
    strToResp (resp ++ tail) ((resp ++ tail).length : Int) pair =
      .ok (.ok { pair with resp := fromHex resp }) := by
  have hmax : (resp ++ tail).length ≤ uintMax := hbound.trans (by decide)
  have hint : toInt (resp.length : Int) = resp.length := by
    refine toInt_of_le ?_
    rw [List.length_append] at hbound
    omega
  have hchars : ∀ c ∈ resp, c ≠ 10 ∧ c ≠ 0 := fun c hc =>
    ⟨(ne_of_isXDigit (hdigits c hc)).2.1, (ne_of_isXDigit (hdigits c hc)).1⟩
  have hsize : ∃ e, strnchr (resp ++ tail) (toSizeT (resp ++ tail).length) 10 = .ok e ∧
      (e.map fun n : Nat => toInt n).getD (resp ++ tail).length = resp.length := by
    rw [toSizeT_of_le hmax]
    rcases htail with rfl | ⟨t, rfl⟩
    · rw [List.append_nil]
      exact ⟨none, strnchr_none hchars, rfl⟩
    · refine ⟨some resp.length, strnchr_append t hchars ?_, ?_⟩
      · rw [List.length_append, List.length_cons]
        omega
      · rw [Option.map_some, Option.getD_some]
        exact hint
  obtain ⟨e, hnchr, hsz⟩ := hsize
  have hhex : hex2bin hweMaxResponse (resp ++ tail) count = .ok (some (fromHex resp)) :=
    hex2bin_eq tail hdigits hlen hle
  have c1 : ¬(resp.length : Int) = 0 := by omega
  have c2 : ¬(resp.length : Int) > hweMaxResponse * 2 := by omega
  have c3 : ¬(resp.length : Int) % 2 = 1 := by omega
  have hcount : count ≤ uintMax := by
    unfold hweMaxResponse at hle
    unfold uintMax
    omega
  simp only [strToResp, hnchr, hsz, bind, Except.bind, pure, Except.pure, c1, c2, c3, if_false,
    toSizeT_tdiv_two hlen hcount, hhex]

/-- A request in hexadecimal digits is read in front of any response. -/
theorem strToKey_hex (HZ : Nat) {key : List UInt8} {count : Nat} (hdigits : ∀ c ∈ key, isXDigit c = true)
    (hlen : key.length = 2 * count) (hle : count ≤ hweMaxRequest) (rest : List UInt8) (mem : Pair w) :
    strToKey HZ (key ++ 61 :: rest) (key.length : Int) mem =
      .ok (.ok { mem with req := fromHex key, asyncRx := false }) := by
  have hmax : key.length ≤ uintMax := by
    unfold hweMaxRequest at hle
    unfold uintMax
    omega
  have hhex : isHexStr (key ++ 61 :: rest) key.length = .ok true := by
    rw [isHexStr_eq (by simp), List.take_left, List.all_eq_true.mpr hdigits]
  have c1 : ¬(key.length : Int) > hweMaxRequest * 2 := by omega
  have c2 : ¬(key.length : Int) % 2 = 1 := by omega
  simp only [strToKey, toSizeT_of_le hmax, hhex, bind, Except.bind, pure, Except.pure, c1, c2, if_true,
    if_false, toSizeT_tdiv_two hlen (by omega), hex2bin_eq (61 :: rest) hdigits hlen hle]

/-- What is not all hexadecimal digits is read as a time, behind `timer:` or without it. -/
theorem strToKey_time (HZ : Nat) {str : List UInt8} {sz : Int} {found : Bool} {t : Nat} (rest : List UInt8)
    (hhex : isHexStr str (toSizeT sz) = .ok false) (hfound : hasPrefix (bytes "timer:") str = .ok found)
    (hpos : t ≠ 0) (htime : hweStrToTime (if found then str.drop 6 else str) = .ok (t, 61 :: rest))
    (mem : Pair w) :
    strToKey HZ str sz mem =
      .ok (.ok { mem with
        req := []
        asyncRx := true
        periodMs := t
        period := msecsToJiffies w HZ t
        time := 0 }) := by
  simp only [strToKey, hhex, hfound, htime, bind, Except.bind, pure, Except.pure, if_false,
    Bool.false_eq_true, hpos, deref, ne_eq, not_true]

/-- A timer is read in front of any response, of whatever length it is thought to be. -/
theorem strToKey_timer (HZ : Nat) {time : List UInt8} {sz : Int} {t : Nat} (rest : List UInt8)
    (hsz : toSizeT sz ≠ 0) (hpos : t ≠ 0) (htime : hweStrToTime (time ++ 61 :: rest) = .ok (t, 61 :: rest))
    (mem : Pair w) :
    strToKey HZ (bytes "timer:" ++ time ++ 61 :: rest) sz mem =
      .ok (.ok { mem with
        req := []
        asyncRx := true
        periodMs := t
        period := msecsToJiffies w HZ t
        time := 0 }) := by
  have hhex : isHexStr (bytes "timer:" ++ time ++ 61 :: rest) (toSizeT sz) = .ok false := by
    obtain ⟨n, hn⟩ := Nat.exists_eq_succ_of_ne_zero hsz
    rw [hn]
    rfl
  have hfound : hasPrefix (bytes "timer:") (bytes "timer:" ++ time ++ 61 :: rest) = .ok true := by
    rw [List.append_assoc]
    exact hasPrefix_append _ _
  refine strToKey_time HZ rest hhex hfound hpos ?_ mem
  rw [if_pos rfl, List.append_assoc]
  exact htime

/-- What is left behind a key, however the length of the key is wrapped. -/
theorem toInt_rest (n : Nat) {m : Nat} (hm : m ≤ intMax) :
    toInt (((n + 1 + m : Nat) : Int) - (toInt (n : Int) + 1)) = m := by
  unfold intMax at hm
  simp only [toInt, Int.bmod_def]
  omega

/-- A key that is read is a pair together with the response. -/
theorem strToPair_eq_resp {HZ : Nat} {key rest : List UInt8} {mem pair : Pair w}
    (hkey : ∀ c ∈ key, c ≠ 61 ∧ c ≠ 0) (hne : toInt (key.length : Int) ≠ 0) (hrest : rest.length ≤ intMax)
    (hread : strToKey HZ (key ++ 61 :: rest) (toInt (key.length : Int)) mem = .ok (.ok pair)) :
    strToPair HZ (key ++ 61 :: rest) mem = strToResp rest (rest.length : Int) pair := by
  have htotal : (key ++ 61 :: rest).length = key.length + 1 + rest.length := by
    rw [List.length_append, List.length_cons]
    omega
  have hnchr := strnchr_append rest hkey (show key.length < (key ++ 61 :: rest).length by omega)
  have hleft : toInt (((key ++ 61 :: rest).length : Int) - (toInt (key.length : Int) + 1)) = rest.length := by
    rw [htotal]
    exact toInt_rest key.length hrest
  have hdrop : (key ++ 61 :: rest).drop (key.length + 1) = rest := by simp [List.drop_append]
  have c1 : ¬(key ++ 61 :: rest).length = 0 := by omega
  simp only [strToPair, c1, if_false, hnchr, bind, Except.bind, hne, hread, hdrop, hleft]

/-- A request or a timer that is read, and a response in hexadecimal digits, are a pair. -/
theorem strToPair_eq {HZ : Nat} {key resp tail : List UInt8} {count : Nat} {mem pair : Pair w}
    (hkey : ∀ c ∈ key, c ≠ 61 ∧ c ≠ 0) (hne : 1 ≤ key.length)
    (hdigits : ∀ c ∈ resp, isXDigit c = true) (hlen : resp.length = 2 * count) (hpos : 1 ≤ count)
    (hle : count ≤ hweMaxResponse) (htail : tail = [] ∨ ∃ t, tail = 10 :: t)
    (hbound : (key ++ 61 :: (resp ++ tail)).length ≤ intMax)
    (hread : strToKey HZ (key ++ 61 :: (resp ++ tail)) (key.length : Int) mem = .ok (.ok pair)) :
    strToPair HZ (key ++ 61 :: (resp ++ tail)) mem = .ok (.ok { pair with resp := fromHex resp }) := by
  rw [List.length_append, List.length_cons] at hbound
  have hsz : toInt (key.length : Int) = key.length := toInt_of_le (by omega)
  have hrest : (resp ++ tail).length ≤ intMax := by omega
  have hne' : toInt (key.length : Int) ≠ 0 := by
    rw [hsz]
    omega
  have hread' : strToKey HZ (key ++ 61 :: (resp ++ tail)) (toInt (key.length : Int)) mem = .ok (.ok pair) := by
    rw [hsz]
    exact hread
  rw [strToPair_eq_resp hkey hne' hrest hread']
  exact strToResp_eq hdigits hlen hpos hle htail hrest pair

theorem strToPair_whole {HZ : Nat} {key resp : List UInt8} {count : Nat} {mem pair : Pair w}
    (hkey : ∀ c ∈ key, c ≠ 61 ∧ c ≠ 0) (hne : 1 ≤ key.length)
    (hdigits : ∀ c ∈ resp, isXDigit c = true) (hlen : resp.length = 2 * count) (hpos : 1 ≤ count)
    (hle : count ≤ hweMaxResponse) (hbound : (key ++ 61 :: resp).length ≤ intMax)
    (hread : strToKey HZ (key ++ 61 :: resp) (key.length : Int) mem = .ok (.ok pair)) :
    strToPair HZ (key ++ 61 :: resp) mem = .ok (.ok { pair with resp := fromHex resp }) := by
  rw [← List.append_nil resp] at hbound hread
  have hparse := strToPair_eq hkey hne hdigits hlen hpos hle (Or.inl rfl) hbound hread
  rwa [List.append_nil] at hparse

/-- The text of a request or of a timer, up to the equals sign. -/
def keyText (p : Pair w) : List UInt8 :=
  if p.asyncRx then bytes "timer:" ++ hweTimeToStr (hweMaxPairStr + 1 - 6) p.periodMs
  else bin2hex p.req

theorem pairToStr_eq {p : Pair w} (hp : p.Valid) :
    pairToStr p = keyText p ++ 61 :: bin2hex p.resp := by
  have h1 : (!p.asyncRx && (p.req.length < 1 || hweMaxRequest < p.req.length)) = false := by
    cases hasync : p.asyncRx with
    | true => rfl
    | false =>
        obtain ⟨hpos, hle⟩ := hp.sync hasync
        simp [Nat.not_lt.mpr hle, List.ne_nil_of_length_pos hpos]
  have h2 : (decide (p.resp.length < 1) || decide (hweMaxResponse < p.resp.length)) = false := by
    simp [Nat.not_lt.mpr hp.resp_le, List.ne_nil_of_length_pos hp.resp_pos]
  have hlen : (bytes "timer:").length = 6 := rfl
  simp only [pairToStr, h1, h2, hlen, Bool.false_eq_true, if_false, keyText, List.append_assoc,
    List.singleton_append]

theorem keyText_length {p : Pair w} (hp : p.Valid) :
    1 ≤ (keyText p).length ∧ (keyText p).length ≤ 2 * hweMaxRequest := by
  cases hasync : p.asyncRx with
  | false =>
      obtain ⟨hpos, hle⟩ := hp.sync hasync
      simp only [keyText, hasync, Bool.false_eq_true, if_false, length_bin2hex]
      omega
  | true =>
      have hsize : 32 ≤ hweMaxPairStr + 1 - 6 := by decide
      have htime := (hweTimeToStr_eq hsize (hp.timer hasync).2.2).2
      have htimer : (bytes "timer:").length = 6 := rfl
      simp only [keyText, hasync, if_true, List.length_append, htimer]
      unfold hweMaxRequest
      omega

theorem forall_mem_itemsText {P : UInt8 → Prop} {items : List (Pattern × Option Nat)}
    (hdigit : ∀ c, isDigit c = true → P c) (hrows : ∀ x ∈ items, ∀ c ∈ x.1.unit, P c) :
    ∀ c ∈ itemsText items, P c := by
  induction items with
  | nil => simp [itemsText]
  | cons x items ih =>
      intro c hc
      have hrest := ih fun y hy => hrows y (List.mem_cons_of_mem x hy)
      obtain ⟨p, _ | v⟩ := x
      · exact hrest c hc
      · rcases List.mem_append.mp hc with hdec | hc
        · exact hdigit c (isDigit_of_mem_decimal hdec)
        · rcases List.mem_append.mp hc with hunit | hc
          · exact hrows _ List.mem_cons_self c hunit
          · exact hrest c hc

/-- What holds of the hexadecimal digits and of the letters of a timer holds of every character before
the separator. -/
theorem forall_mem_keyText {P : UInt8 → Prop} (hdigit : ∀ c, isXDigit c = true → P c)
    (hletter : ∀ c ∈ bytes "timer:hms", P c) {p : Pair w} (hp : p.Valid) : ∀ c ∈ keyText p, P c := by
  intro c hc
  cases hasync : p.asyncRx with
  | false =>
      simp only [keyText, hasync, Bool.false_eq_true, if_false] at hc
      exact hdigit c (isXDigit_of_mem_bin2hex hc)
  | true =>
      simp only [keyText, hasync, if_true] at hc
      rcases List.mem_append.mp hc with htimer | htime
      · exact hletter c (List.mem_append_left (bytes "hms") htimer)
      · rw [(hweTimeToStr_eq (by decide) (hp.timer hasync).2.2).1] at htime
        have hunits : ∀ x ∈ timeItems p.periodMs, ∀ c ∈ x.1.unit, c ∈ bytes "timer:hms" := by
          simp only [timeItems, List.forall_mem_cons, List.not_mem_nil, false_implies, implies_true,
            and_true]
          refine ⟨?_, ?_, ?_, ?_⟩ <;> exact List.all_iff_forall_prop.mp (by decide)
        refine forall_mem_itemsText (fun c hc => hdigit c ?_) ?_ c htime
        · simp [isXDigit, hc]
        · exact fun x hx c hc => hletter c (hunits x hx c hc)

/-- No equals sign and no null stands before the separator. -/
theorem ne_of_mem_keyText {p : Pair w} (hp : p.Valid) {c : UInt8} (hc : c ∈ keyText p) :
    c ≠ 61 ∧ c ≠ 0 := by
  have hdigit : ∀ c, isXDigit c = true → c ≠ 61 ∧ c ≠ 0 := fun c hc =>
    ⟨(ne_of_isXDigit hc).2.2, (ne_of_isXDigit hc).1⟩
  exact forall_mem_keyText hdigit (List.all_iff_forall_prop.mp (by decide)) hp c hc

/-- The request part of the text, or the timer part, is read back in front of any response. -/
theorem strToKey_keyText (HZ : Nat) {p : Pair w} (hp : p.Valid) (rest : List UInt8) (mem : Pair w) :
    strToKey HZ (keyText p ++ 61 :: rest) ((keyText p).length : Int) mem =
      .ok (.ok { (mem.filled HZ p) with resp := mem.resp }) := by
  obtain ⟨hpos, hlen⟩ := keyText_length hp
  cases hasync : p.asyncRx with
  | false =>
      have hkey : keyText p = bin2hex p.req := by simp [keyText, hasync]
      rw [hkey, strToKey_hex HZ (fun c hc => isXDigit_of_mem_bin2hex hc) (length_bin2hex p.req) (hp.sync hasync).2,
        fromHex_bin2hex]
      simp [Pair.filled, hasync]
  | true =>
      obtain ⟨hreq, hms, hmax⟩ := hp.timer hasync
      have hkey : keyText p = bytes "timer:" ++ hweTimeToStr (hweMaxPairStr + 1 - 6) p.periodMs := by
        simp [keyText, hasync]
      have hroom : 32 ≤ hweMaxPairStr + 1 - 6 := by decide
      have htime := hweStrToTime_hweTimeToStr hroom (Nat.ne_of_gt hms) hmax rest
      rw [hkey] at hpos hlen ⊢
      have hsz : toSizeT ((bytes "timer:" ++ hweTimeToStr (hweMaxPairStr + 1 - 6) p.periodMs).length : Int) ≠ 0 := by
        unfold hweMaxRequest at hlen
        rw [toSizeT_of_le (by unfold uintMax; omega)]
        exact Nat.ne_of_gt hpos
      rw [strToKey_timer HZ rest hsz (Nat.ne_of_gt hms) htime]
      simp [Pair.filled, hasync, hreq]

theorem length_pairToStr {p : Pair w} (hp : p.Valid) :
    1 ≤ (pairToStr p).length ∧ (pairToStr p).length ≤ hweMaxPairStr := by
  obtain ⟨hpos, hkey⟩ := keyText_length hp
  have hresp := hp.resp_le
  rw [pairToStr_eq hp, List.length_append, List.length_cons, length_bin2hex]
  unfold hweMaxPairStr
  omega

/-- **Printing and parsing.** The text of a valid pair is accepted, and the parser fills in exactly
the fields of that pair. -/
theorem strToPair_pairToStr (HZ : Nat) {p : Pair w} (hp : p.Valid) (mem : Pair w) :
    strToPair HZ (pairToStr p) mem = .ok (.ok (mem.filled HZ p)) := by
  have hbound : (pairToStr p).length ≤ intMax := by
    have hle := (length_pairToStr hp).2
    unfold hweMaxPairStr hweMaxRequest hweMaxResponse at hle
    unfold intMax
    omega
  rw [pairToStr_eq hp] at hbound ⊢
  rw [strToPair_whole (fun c hc => ne_of_mem_keyText hp hc) (keyText_length hp).1
    (fun c hc => isXDigit_of_mem_bin2hex hc) (length_bin2hex p.resp) hp.resp_pos hp.resp_le hbound
    (strToKey_keyText HZ hp _ mem), fromHex_bin2hex]
  cases hasync : p.asyncRx <;> simp [Pair.filled, hasync]

/-! ### What the parser accepts -/

theorem ret_of_scanUnits {str : List UInt8} {ps : List Pattern} {s ep : List UInt8} {n ret : Nat}
    {scan : TimeScan} (h : scanUnits str ps s n ep ret = .ok scan) : scan.ret ≤ uintMax := by
  induction ps generalizing s n ep ret with
  | nil =>
      rw [scanUnits, Except.ok.injEq] at h
      simp [← h]
  | cons p ps ih =>
      rw [scanUnits] at h
      obtain ⟨found, _, h⟩ := Except.bind_eq_ok_iff.mp h
      split at h
      · exact ih h
      · split at h
        · simp [← Except.ok.inj h]
        · simp only at h
          split at h
          · simp [← Except.ok.inj h]
          · rename_i hover
            obtain ⟨c, _, h⟩ := Except.bind_eq_ok_iff.mp h
            split at h
            · rw [← Except.ok.inj h]
              exact Nat.le_of_not_lt hover
            · obtain ⟨next, _, h⟩ := Except.bind_eq_ok_iff.mp h
              split at h
              · simp [← Except.ok.inj h]
              · exact ih h

theorem time_of_hweStrToTime {str e : List UInt8} {t : Nat} (h : hweStrToTime str = .ok (t, e)) :
    t ≤ uintMax := by
  obtain ⟨num, _, h⟩ := Except.bind_eq_ok_iff.mp h
  obtain ⟨scan, hscan, h⟩ := Except.bind_eq_ok_iff.mp h
  obtain ⟨c, _, h⟩ := Except.bind_eq_ok_iff.mp h
  have hret : scan.ret ≤ uintMax := by
    split at hscan
    · simp [← Except.ok.inj hscan]
    · exact ret_of_scanUnits hscan
  have ht := congrArg Prod.fst (Except.ok.inj h)
  simp only at ht
  rw [← ht]
  split
  · exact hret
  · exact Nat.zero_le _

/-- Half of an even length that is not zero. -/
theorem toSizeT_half_pos {sz : Int} (hbounds : -(2 ^ 31) ≤ sz ∧ sz < 2 ^ 31) (hne : ¬sz = 0)
    (heven : ¬sz % 2 = 1) : 1 ≤ toSizeT (sz.tdiv 2) := by
  obtain ⟨k, rfl⟩ : ∃ k, sz = 2 * k := ⟨sz / 2, by omega⟩
  rw [Int.mul_tdiv_cancel_left k (by decide)]
  unfold toSizeT
  omega

theorem strToKey_ok {HZ : Nat} {str : List UInt8} {sz : Int} {mem pair : Pair w}
    (hbounds : -(2 ^ 31) ≤ sz ∧ sz < 2 ^ 31) (hne : ¬sz = 0)
    (h : strToKey HZ str sz mem = .ok (.ok pair)) :
    (∃ req, 1 ≤ req.length ∧ req.length ≤ hweMaxRequest ∧
        pair = { mem with req := req, asyncRx := false }) ∨
      (∃ t, 1 ≤ t ∧ t ≤ uintMax ∧ pair = { mem with
        req := []
        asyncRx := true
        periodMs := t
        period := msecsToJiffies w HZ t
        time := 0 }) := by
  obtain ⟨hex, _, h⟩ := Except.bind_eq_ok_iff.mp h
  split at h
  · refine Or.inl ?_
    split at h
    · simp at h
    · split at h
      · simp at h
      · rename_i heven
        obtain ⟨res, hres, h⟩ := Except.bind_eq_ok_iff.mp h
        cases res with
        | none => simp at h
        | some req =>
            obtain ⟨hlen, hle⟩ := length_of_hex2bin hres
            refine ⟨req, ?_, by omega, by simpa [eq_comm] using h⟩
            rw [hlen]
            exact toSizeT_half_pos hbounds hne heven
  · refine Or.inr ?_
    obtain ⟨found, _, h⟩ := Except.bind_eq_ok_iff.mp h
    obtain ⟨⟨t, e⟩, htime, h⟩ := Except.bind_eq_ok_iff.mp h
    simp only at h
    split at h
    · simp at h
    · rename_i ht
      obtain ⟨c, _, h⟩ := Except.bind_eq_ok_iff.mp h
      split at h
      · simp at h
      · exact ⟨t, Nat.one_le_iff_ne_zero.mpr ht, time_of_hweStrToTime htime,
          by simpa [eq_comm] using h⟩

theorem strToResp_ok {s : List UInt8} {sz : Int} {mem pair : Pair w}
    (hbounds : -(2 ^ 31) ≤ sz ∧ sz < 2 ^ 31) (h : strToResp s sz mem = .ok (.ok pair)) :
    ∃ resp, 1 ≤ resp.length ∧ resp.length ≤ hweMaxResponse ∧ pair = { mem with resp := resp } := by
  rw [strToResp] at h
  obtain ⟨e, _, h⟩ := Except.bind_eq_ok_iff.mp h
  have hbounds' : -(2 ^ 31) ≤ (e.map fun n : Nat => toInt n).getD sz ∧
      (e.map fun n : Nat => toInt n).getD sz < 2 ^ 31 := by
    cases e with
    | none => exact hbounds
    | some n =>
        rw [Option.map_some, Option.getD_some]
        exact toInt_bounds _
  simp only at h
  generalize (e.map fun n : Nat => toInt n).getD sz = len at h hbounds'
  split at h
  · simp at h
  · rename_i hne
    split at h
    · simp at h
    · split at h
      · simp at h
      · rename_i heven
        obtain ⟨res, hres, h⟩ := Except.bind_eq_ok_iff.mp h
        cases res with
        | none => simp at h
        | some resp =>
            obtain ⟨hlen, hle⟩ := length_of_hex2bin hres
            refine ⟨resp, ?_, by omega, by simpa [eq_comm] using h⟩
            rw [hlen]
            exact toSizeT_half_pos hbounds' hne heven

/-- **What an accepted text gives.** The pair is valid, and beyond the fields of its kind the
record is as it was. -/
theorem strToPair_ok {HZ : Nat} {str : List UInt8} {mem pair : Pair w}
    (h : strToPair HZ str mem = .ok (.ok pair)) : pair.Valid ∧ pair = mem.filled HZ pair := by
  unfold strToPair at h
  split at h
  · simp at h
  · obtain ⟨pos, _, h⟩ := Except.bind_eq_ok_iff.mp h
    cases pos with
    | none => simp at h
    | some e =>
        simp only at h
        split at h
        · simp at h
        · rename_i hne
          obtain ⟨key, hkey, h⟩ := Except.bind_eq_ok_iff.mp h
          cases key with
          | error err => simp at h
          | ok key =>
              obtain ⟨resp, hpos, hle, rfl⟩ := strToResp_ok (toInt_bounds _) h
              rcases strToKey_ok (toInt_bounds _) hne hkey with
                ⟨req, hreq, hmax, rfl⟩ | ⟨t, ht, hmax, rfl⟩
              · exact ⟨⟨hpos, hle, fun _ => ⟨hreq, hmax⟩, by simp⟩, by simp [Pair.filled]⟩
              · exact ⟨⟨hpos, hle, by simp, fun _ => ⟨rfl, ht, hmax⟩⟩, by simp [Pair.filled]⟩

/-! ### The round trip -/

/-- The same kind, request bytes, response bytes and, for a timer, period in milliseconds. -/
structure Pair.Same (p q : Pair w) : Prop where
  kind : q.asyncRx = p.asyncRx
  req : q.req = p.req
  resp : q.resp = p.resp
  period : p.asyncRx = true → q.periodMs = p.periodMs

theorem Pair.same_filled (HZ : Nat) (mem p : Pair w) : Pair.Same p (mem.filled HZ p) := by
  cases hasync : p.asyncRx with
  | false => exact ⟨by simp [filled, hasync], by simp [filled, hasync], by simp [filled, hasync],
      by simp [hasync]⟩
  | true => exact ⟨by simp [filled, hasync], by simp [filled, hasync], by simp [filled, hasync],
      by simp [filled, hasync]⟩

theorem Pair.Valid.of_same {p q : Pair w} (hq : q.Valid) (h : p.Same q) : p.Valid := by
  refine ⟨h.resp ▸ hq.resp_pos, h.resp ▸ hq.resp_le, ?_, ?_⟩
  · intro hsync
    have hreq := hq.sync (h.kind.trans hsync)
    rwa [h.req] at hreq
  · intro htimer
    have hperiod := hq.timer (h.kind.trans htimer)
    rwa [h.req, h.period htimer] at hperiod

theorem Pair.Same.pairToStr_eq {p q : Pair w} (h : p.Same q) : pairToStr q = pairToStr p := by
  cases hasync : p.asyncRx with
  | false => simp [pairToStr, h.kind, h.req, h.resp, hasync]
  | true => simp [pairToStr, h.kind, h.req, h.resp, h.period hasync, hasync]

theorem cstr_pairToStr {p : Pair w} (hp : p.Valid) : cstr (pairToStr p) = pairToStr p := by
  refine List.takeWhile_eq_self_iff.mpr fun c hc => ?_
  rw [Hwemu.pairToStr_eq hp] at hc
  simp only [ne_eq, decide_eq_true_eq]
  rcases List.mem_append.mp hc with hkey | hc
  · exact (ne_of_mem_keyText hp hkey).2
  · rcases List.mem_cons.mp hc with rfl | hresp
    · decide
    · exact (ne_of_isXDigit (isXDigit_of_mem_bin2hex hresp)).1

/-- **The pair text format round-trips.** Every valid pair prints as a null-terminated text that
fits the pair string buffer and is parsed back as the same pair. Every accepted text gives a pair
whose printed text is parsed back as the same pair and printed once more as the same text. The
record parsed into, `mem` or `mem'`, may hold anything before. -/
theorem pair_text_roundTrip (HZ : Nat) (mem : Pair w) :
    (∀ p : Pair w, p.Valid →
      (pairToStr p).length ≤ hweMaxPairStr ∧ cstr (pairToStr p) = pairToStr p ∧
        ∃ q, strToPair HZ (pairToStr p) mem = .ok (.ok q) ∧ p.Same q) ∧
    (∀ (str : List UInt8) (mem' p : Pair w), strToPair HZ str mem' = .ok (.ok p) →
      ∃ q, strToPair HZ (pairToStr p) mem = .ok (.ok q) ∧ p.Same q ∧ pairToStr q = pairToStr p) := by
  refine ⟨fun p hp => ?_, fun str mem' p hparse => ?_⟩
  · exact ⟨(length_pairToStr hp).2, cstr_pairToStr hp, mem.filled HZ p, strToPair_pairToStr HZ hp mem,
      Pair.same_filled HZ mem p⟩
  · obtain ⟨hp, _⟩ := strToPair_ok hparse
    have hsame := Pair.same_filled HZ mem p
    exact ⟨mem.filled HZ p, strToPair_pairToStr HZ hp mem, hsame, hsame.pairToStr_eq⟩

/-- A record with every field zero, as `kzalloc` gives it. -/
def Pair.zeroed (w : Nat) : Pair w :=
  { addr := 0
    req := []
    resp := []
    dev := 0
    index := 0
    filename := []
    asyncRx := false
    periodMs := 0
    period := 0
    time := 0 }

/-- The pair of the longest period the format has, on a machine of 250 ticks a second. -/
def longestTimer : Pair 64 :=
  { Pair.zeroed 64 with
    resp := [0xaa, 0xbb]
    asyncRx := true
    periodMs := uintMax
    period := msecsToJiffies 64 250 uintMax }

theorem longestTimer_valid : longestTimer.Valid :=
  ⟨by decide, by decide, by decide, by decide⟩

theorem pair_text_roundTrip_applies :
    (∃ q, strToPair 250 (pairToStr longestTimer) (Pair.zeroed 64) = .ok (.ok q) ∧
      longestTimer.Same q) ∧
    (∃ q, strToPair 250 (pairToStr longestTimer) (Pair.zeroed 64) = .ok (.ok q) ∧
      longestTimer.Same q ∧ pairToStr q = pairToStr longestTimer) := by
  have hparse : strToPair 250 (bytes "1193h2m47s295ms=AAbb\n") (Pair.zeroed 64) =
      .ok (.ok longestTimer) := by decide +kernel
  exact ⟨((pair_text_roundTrip 250 (Pair.zeroed 64)).1 longestTimer longestTimer_valid).2.2,
    (pair_text_roundTrip 250 (Pair.zeroed 64)).2 _ _ _ hparse⟩

end Hwemu
