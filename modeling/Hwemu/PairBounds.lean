import Hwemu.PairText

/-!
# The parser stays inside its buffers

Whatever the buffer holds, the parser returns: the equals sign it looks for first stops every later
scan of the request part, and the response part is scanned by its length. What it returns depends on
the text alone, not on the memory it fills in.
-/

namespace Hwemu

variable {w : Nat}

/-! ### Single scans -/

theorem strnchr_total {s : List UInt8} {count : Nat} (c : UInt8) (h : count ≤ s.length) :
    ∃ r, strnchr s count c = .ok r ∧ ∀ n, r = some n → n < count ∧ s.drop n ≠ [] ∧ c ∈ s := by
  induction s generalizing count with
  | nil =>
      obtain rfl : count = 0 := by simpa using h
      exact ⟨none, rfl, by simp⟩
  | cons x s ih =>
      cases count with
      | zero => exact ⟨none, rfl, by simp⟩
      | succ count =>
          rw [strnchr]
          by_cases hc : x = c
          · rw [if_pos hc]
            refine ⟨some 0, rfl, ?_⟩
            intro n hn
            obtain rfl := Option.some.inj hn
            exact ⟨Nat.succ_pos _, by simp, by simp [hc]⟩
          · by_cases hx : x = 0
            · rw [if_neg hc, if_pos hx]
              exact ⟨none, rfl, by simp⟩
            · obtain ⟨r, hr, hspec⟩ := ih (by simpa using h)
              rw [if_neg hc, if_neg hx, hr, Except.ok_bind]
              refine ⟨r.map (· + 1), rfl, ?_⟩
              intro n hn
              obtain ⟨m, hm, rfl⟩ := Option.map_eq_some_iff.mp hn
              obtain ⟨hlt, hne, hmem⟩ := hspec m hm
              exact ⟨by omega, by simpa using hne, List.mem_cons_of_mem x hmem⟩

/-- A search for longer than the buffer is runs over its end. -/
theorem strnchr_overrun {s : List UInt8} {count : Nat} {c : UInt8} (hs : ∀ x ∈ s, x ≠ c ∧ x ≠ 0)
    (hcount : s.length < count) : strnchr s count c = .error .outOfBounds := by
  induction s generalizing count with
  | nil =>
      obtain ⟨n, rfl⟩ : ∃ n, count = n + 1 := ⟨count - 1, by simp at hcount; omega⟩
      rfl
  | cons x s ih =>
      obtain ⟨n, rfl⟩ : ∃ n, count = n + 1 := ⟨count - 1, by simp at hcount; omega⟩
      obtain ⟨hx, hx0⟩ := hs x List.mem_cons_self
      rw [strnchr, if_neg hx, if_neg hx0,
        ih (fun y hy => hs y (List.mem_cons_of_mem x hy)) (by simpa using hcount)]
      rfl

/-- A comparison with a literal ends at a character the literal does not have. -/
theorem hasPrefix_total {lit s : List UInt8} {c : UInt8} (hlit : c ∉ lit) (hs : c ∈ s) :
    ∃ r, hasPrefix lit s = .ok r ∧ (r = true → c ∈ s.drop lit.length) := by
  induction lit generalizing s with
  | nil => exact ⟨true, by cases s <;> rfl, fun _ => by simpa using hs⟩
  | cons a lit ih =>
      cases s with
      | nil => simp at hs
      | cons b s =>
          rw [hasPrefix]
          by_cases hab : a = b
          · have hne : c ≠ b := by
              rintro rfl
              exact hlit (by simp [hab])
            have hmem : c ∈ s := (List.mem_cons.mp hs).resolve_left hne
            rw [if_pos hab]
            exact ih (fun hmem' => hlit (List.mem_cons_of_mem a hmem')) hmem
          · rw [if_neg hab]
            exact ⟨false, rfl, by simp⟩

theorem deref_total {s : List UInt8} {c : UInt8} (hs : c ∈ s) : ∃ x, deref s = .ok x := by
  cases s with
  | nil => simp at hs
  | cons x s => exact ⟨x, rfl⟩

/-- A run of digits ends before a character that is none. -/
theorem simpleStrtoullFrom_total {s : List UInt8} {c : UInt8} (hc : isDigit c = false) (hs : c ∈ s)
    (acc : Nat) : ∃ n ep, simpleStrtoullFrom acc s = .ok (n, ep) ∧ c ∈ ep := by
  induction s generalizing acc with
  | nil => simp at hs
  | cons x s ih =>
      rw [simpleStrtoullFrom]
      by_cases hx : isDigit x = true
      · have hne : c ≠ x := by
          rintro rfl
          simp [hc] at hx
        rw [if_pos hx]
        exact ih ((List.mem_cons.mp hs).resolve_left hne) _
      · rw [if_neg hx]
        exact ⟨acc, x :: s, rfl, hs⟩

theorem hex2bin_total {room count : Nat} {src : List UInt8} (hroom : count ≤ room)
    (hsrc : 2 * count ≤ src.length) : ∃ r, hex2bin room src count = .ok r := by
  induction count generalizing room src with
  | zero => exact ⟨some [], by cases room <;> rfl⟩
  | succ count ih =>
      match src with
      | [] => simp at hsrc
      | [_] => simp at hsrc; omega
      | hi :: lo :: src =>
          rw [hex2bin]
          split
          · obtain ⟨room, rfl⟩ : ∃ n, room = n + 1 := ⟨room - 1, by omega⟩
            obtain ⟨r, hr⟩ := @ih room src (by omega) (by simp at hsrc; omega)
            simp only [hr]
            exact ⟨_, rfl⟩
          · exact ⟨none, rfl⟩

/-! ### The time scanner, in front of a separator -/

theorem notMem_unit {sep : UInt8} (hsep : isSep sep = true) : ∀ p ∈ pattern, sep ∉ p.unit := by
  have hall : ∀ c, isSep c = true → ∀ p ∈ pattern, c ∉ p.unit := fun c =>
    forall_byte (P := fun c => isSep c = true → ∀ p ∈ pattern, c ∉ p.unit) (by decide +kernel) c
  exact hall sep hsep

section

variable {sep : UInt8}

theorem unitAt_total {unit ep : List UInt8} (hunit : sep ∉ unit) (hep : sep ∈ ep) :
    ∃ r, unitAt unit ep = .ok r ∧ (r = true → sep ∈ ep.drop unit.length) := by
  obtain ⟨found, hfound, hrest⟩ := hasPrefix_total hunit hep
  unfold unitAt
  rw [hfound, Except.ok_bind]
  cases found with
  | false => exact ⟨false, rfl, by simp⟩
  | true =>
      obtain ⟨next, hnext⟩ := deref_total (hrest rfl)
      simp only [if_true, hnext, Except.ok_bind]
      exact ⟨_, rfl, fun _ => hrest rfl⟩

theorem scanUnits_total (hdigit : isDigit sep = false) {str : List UInt8} (hstr : sep ∈ str)
    {ps : List Pattern} (hps : ∀ p ∈ ps, sep ∉ p.unit) {s ep : List UInt8} (hs : sep ∈ s) (hep : sep ∈ ep)
    (n ret : Nat) :
    ∃ scan, scanUnits str ps s n ep ret = .ok scan ∧ sep ∈ scan.ep ∧ sep ∈ scan.s := by
  induction ps generalizing s ep n ret with
  | nil => exact ⟨_, rfl, hs, hs⟩
  | cons p ps ih =>
      have hrest : ∀ q ∈ ps, sep ∉ q.unit := fun q hq => hps q (List.mem_cons_of_mem p hq)
      obtain ⟨found, hfound, hnext⟩ := unitAt_total (hps p List.mem_cons_self) hep
      rw [scanUnits, hfound, Except.ok_bind]
      cases found with
      | false => exact ih hrest hs hep n ret
      | true =>
          have hmem := hnext rfl
          obtain ⟨c, hc⟩ := deref_total hmem
          obtain ⟨m, ep', hnum, hep'⟩ := simpleStrtoullFrom_total hdigit hmem 0
          have hnum' : simpleStrtoull (ep.drop p.unit.length) = .ok (m, ep') := hnum
          simp only [Bool.not_true, Bool.false_eq_true, if_false, hc, hnum', Except.ok_bind]
          split
          · exact ⟨_, rfl, hs, hs⟩
          · split
            · exact ⟨_, rfl, hstr, hs⟩
            · split
              · exact ⟨_, rfl, hmem, hmem⟩
              · split
                · exact ⟨_, rfl, hep', hmem⟩
                · exact ih hrest hmem hep' m _

/-- The time scanner never reads past a separator. -/
theorem hweStrToTime_total (hsep : isSep sep = true) {str : List UInt8} (h : sep ∈ str) :
    ∃ t e, hweStrToTime str = .ok (t, e) ∧ sep ∈ e := by
  have hdigit := (isSep_spec hsep).1
  obtain ⟨n, ep, hnum, hep⟩ := simpleStrtoullFrom_total hdigit h 0
  have hnum' : simpleStrtoull str = .ok (n, ep) := hnum
  have hscan : ∃ scan, (if ep = str then .ok ⟨0, ep, str⟩ else scanUnits str pattern str n ep 0) =
      .ok scan ∧ sep ∈ scan.ep ∧ sep ∈ scan.s := by
    split
    · exact ⟨_, rfl, hep, h⟩
    · exact scanUnits_total hdigit h (notMem_unit hsep) h hep n 0
  obtain ⟨scan, hscan, hend, hstop⟩ := hscan
  obtain ⟨c, hc⟩ := deref_total hstop
  unfold hweStrToTime
  rw [hnum', Except.ok_bind]
  dsimp only
  rw [hscan, Except.ok_bind, hc, Except.ok_bind]
  exact ⟨_, _, rfl, hend⟩

end

/-! ### The two halves of a pair -/

theorem toSizeT_half {n : Nat} (h : n ≤ intMax) : toSizeT ((n : Int).tdiv 2) = n / 2 := by
  have htdiv : (n : Int).tdiv 2 = ((n / 2 : Nat) : Int) := by
    rw [Int.tdiv_eq_ediv_of_nonneg (by omega)]
    omega
  rw [htdiv]
  refine toSizeT_of_le ?_
  unfold intMax at h
  unfold uintMax
  omega

theorem toSizeT_of_le_intMax {n : Nat} (h : n ≤ intMax) : toSizeT (n : Int) = n := by
  refine toSizeT_of_le ?_
  unfold intMax at h
  unfold uintMax
  omega

/-- The response part of a text gives the same response, or the same error, whatever record it is
stored in. -/
theorem strToResp_total {s : List UInt8} (h : s.length ≤ intMax) :
    (∃ resp, ∀ mem : Pair w, strToResp s s.length mem = .ok (.ok { mem with resp := resp })) ∨
      ∃ err, ∀ mem : Pair w, strToResp s s.length mem = .ok (.error err) := by
  obtain ⟨e, he, hpos⟩ := strnchr_total (s := s) 10 (le_refl s.length)
  obtain ⟨n, hn, hlen⟩ : ∃ n : Nat, ((e.map fun n : Nat => toInt n).getD (s.length : Int)) = n ∧
      n ≤ s.length := by
    cases e with
    | none => exact ⟨s.length, rfl, le_rfl⟩
    | some m =>
        have hlt := (hpos m rfl).1
        rw [Option.map_some, Option.getD_some]
        exact ⟨m, toInt_of_le (hlt.le.trans h), hlt.le⟩
  unfold strToResp
  simp only [toSizeT_of_le_intMax h, he, Except.ok_bind, hn]
  split
  · exact Or.inr ⟨_, fun _ => rfl⟩
  · split
    · exact Or.inr ⟨_, fun _ => rfl⟩
    · split
      · exact Or.inr ⟨_, fun _ => rfl⟩
      · rename_i hfits _
        have hroom : n / 2 ≤ hweMaxResponse := by omega
        obtain ⟨r, hr⟩ := @hex2bin_total hweMaxResponse (n / 2) s hroom (by omega)
        simp only [toSizeT_half (hlen.trans h), hr, Except.ok_bind]
        cases r with
        | none => exact Or.inr ⟨_, fun _ => rfl⟩
        | some resp => exact Or.inl ⟨resp, fun _ => rfl⟩

theorem strToKey_total (HZ : Nat) {str : List UInt8} {e : Nat} (he : e < str.length)
    (h : e ≤ intMax) (hsep : 61 ∈ str) :
    (∃ q : Pair w, ∀ mem, strToKey HZ str e mem = .ok (.ok { (mem.filled HZ q) with resp := mem.resp })) ∨
      ∃ err, ∀ mem : Pair w, strToKey HZ str e mem = .ok (.error err) := by
  unfold strToKey
  simp only [toSizeT_of_le_intMax h, isHexStr_eq he.le, Except.ok_bind]
  cases (str.take e).all isXDigit with
  | true =>
      simp only [if_true]
      split
      · exact Or.inr ⟨_, fun _ => rfl⟩
      · split
        · exact Or.inr ⟨_, fun _ => rfl⟩
        · rename_i hfits _
          have hroom : e / 2 ≤ hweMaxRequest := by omega
          obtain ⟨r, hr⟩ := @hex2bin_total hweMaxRequest (e / 2) str hroom (by omega)
          simp only [toSizeT_half h, hr, Except.ok_bind]
          cases r with
          | none => exact Or.inr ⟨_, fun _ => rfl⟩
          | some req =>
              refine Or.inl ⟨{ Pair.zeroed w with req := req }, fun mem => ?_⟩
              simp [Pair.filled, Pair.zeroed]
  | false =>
      have hnot : 61 ∉ bytes "timer:" := by decide
      obtain ⟨found, hfound, hrest⟩ := hasPrefix_total hnot hsep
      simp only [Bool.false_eq_true, if_false, hfound, Except.ok_bind]
      have hs : 61 ∈ (if found = true then str.drop 6 else str) := by
        cases found with
        | true => exact hrest rfl
        | false => exact hsep
      obtain ⟨t, rest, htime, hend⟩ := hweStrToTime_total (show isSep 61 = true by decide) hs
      obtain ⟨c, hc⟩ := deref_total hend
      simp only [htime, Except.ok_bind]
      split
      · exact Or.inr ⟨_, fun _ => rfl⟩
      · simp only [hc, Except.ok_bind]
        split
        · exact Or.inr ⟨_, fun _ => rfl⟩
        · refine Or.inl ⟨{ Pair.zeroed w with asyncRx := true, periodMs := t }, fun mem => ?_⟩
          simp [Pair.filled, Pair.zeroed]

/-- **The parser always returns.** A text of at most `INT_MAX` bytes is parsed as the same pair into
any record, or rejected with the same message. -/
theorem strToPair_total (HZ : Nat) {str : List UInt8} (h : str.length ≤ intMax) :
    (∃ q : Pair w, q.Valid ∧ ∀ mem, strToPair HZ str mem = .ok (.ok (mem.filled HZ q))) ∨
      ∃ err, ∀ mem : Pair w, strToPair HZ str mem = .ok (.error err) := by
  suffices hshape : (∃ q : Pair w, ∀ mem, strToPair HZ str mem = .ok (.ok (mem.filled HZ q))) ∨
      ∃ err, ∀ mem : Pair w, strToPair HZ str mem = .ok (.error err) by
    rcases hshape with ⟨q, hq⟩ | hreject
    · refine Or.inl ⟨q, ?_, hq⟩
      have hself := Pair.same_filled HZ (Pair.zeroed w) q
      have hvalid := (strToPair_ok (hq (Pair.zeroed w))).1
      exact hvalid.of_same hself
    · exact Or.inr hreject
  unfold strToPair
  split
  · exact Or.inr ⟨_, fun _ => rfl⟩
  · obtain ⟨pos, hpos, hspec⟩ := strnchr_total (s := str) 61 (le_refl str.length)
    simp only [hpos, Except.ok_bind]
    cases pos with
    | none => exact Or.inr ⟨_, fun _ => rfl⟩
    | some e =>
        obtain ⟨hlt, _, hsep⟩ := hspec e rfl
        have hsz : toInt (e : Int) = e := toInt_of_le (by omega)
        have hrest : toInt ((str.length : Int) - ((e : Int) + 1)) = (str.drop (e + 1)).length := by
          rw [List.length_drop]
          have hdiff : (str.length : Int) - ((e : Int) + 1) = ((str.length - (e + 1) : Nat) : Int) := by
            omega
          rw [hdiff, toInt_of_le (by omega)]
        have hshort : (str.drop (e + 1)).length ≤ intMax := by
          rw [List.length_drop]
          omega
        simp only [hsz, hrest]
        split
        · exact Or.inr ⟨_, fun _ => rfl⟩
        · rcases strToKey_total (w := w) HZ hlt (by omega) hsep with ⟨q, hkey⟩ | ⟨err, hkey⟩
          · simp only [hkey, Except.ok_bind]
            rcases strToResp_total (w := w) hshort with ⟨resp, hresp⟩ | ⟨err, hresp⟩
            · refine Or.inl ⟨{ q with resp := resp }, fun mem => ?_⟩
              rw [hresp]
              cases hasync : q.asyncRx <;> simp [Pair.filled, hasync]
            · exact Or.inr ⟨err, fun mem => hresp _⟩
          · simp only [hkey, Except.ok_bind]
            exact Or.inr ⟨err, fun _ => rfl⟩

/-- **The parser stays inside its buffers.** A text of at most `INT_MAX` bytes is read without going
past its end and stored without going past the arrays of the pair, whether it is accepted or not; and
the time scanner, which is given no length, does not go past an equals sign. -/
theorem parser_bounds (HZ : Nat) {str : List UInt8} (hlen : str.length ≤ intMax) (mem : Pair w) :
    (∃ result, strToPair HZ str mem = .ok result) ∧
    (∀ pair, strToPair HZ str mem = .ok (.ok pair) →
      pair.req.length ≤ hweMaxRequest ∧ pair.resp.length ≤ hweMaxResponse) ∧
    ∀ s, 61 ∈ s → ∃ t e, hweStrToTime s = .ok (t, e) ∧ 61 ∈ e := by
  refine ⟨?_, ?_, fun s hs => hweStrToTime_total (by decide) hs⟩
  · rcases strToPair_total (w := w) HZ hlen with ⟨q, _, hall⟩ | ⟨err, hall⟩
    · exact ⟨_, hall mem⟩
    · exact ⟨_, hall mem⟩
  · intro pair hpair
    obtain ⟨hvalid, _⟩ := strToPair_ok hpair
    refine ⟨?_, hvalid.resp_le⟩
    cases hasync : pair.asyncRx with
    | false => exact (hvalid.sync hasync).2
    | true =>
        rw [(hvalid.timer hasync).1]
        exact Nat.zero_le _

/-- A text that is rejected after the time scanner has read most of it. -/
theorem parser_bounds_applies :
    (∃ result, strToPair 250 (bytes "timer:18446744073709551617h60m=0a") (Pair.zeroed 64) = .ok result) ∧
    ∃ t e, hweStrToTime (bytes "1h60m=0a") = .ok (t, e) ∧ 61 ∈ e := by
  have hlen : (bytes "timer:18446744073709551617h60m=0a").length ≤ intMax := by decide
  obtain ⟨hreturns, _, hscan⟩ := parser_bounds 250 hlen (Pair.zeroed 64)
  exact ⟨hreturns, hscan _ (by decide)⟩

/-- **Longer than an `int`.** The size of a response of `2^31` digits is negative, and the search for
the newline runs over the end of the buffer. -/
theorem long_response_overruns :
    ∃ str : List UInt8, strToPair 250 str (Pair.zeroed 64) = .error .outOfBounds := by
  have hones : ∀ c ∈ List.replicate (2 ^ 31) (49 : UInt8), c ≠ 10 ∧ c ≠ 0 := by
    intro c hc
    rw [List.eq_of_mem_replicate hc]
    decide
  have htotal : ([97, 97] ++ 61 :: List.replicate (2 ^ 31) (49 : UInt8)).length = 2 ^ 31 + 3 := by
    rw [List.length_append, @List.length_cons _ 61, List.length_replicate]
    rfl
  have hnchr : strnchr ([97, 97] ++ 61 :: List.replicate (2 ^ 31) (49 : UInt8)) (2 ^ 31 + 3) 61 =
      .ok (some 2) := strnchr_append _ (List.all_iff_forall_prop.mp (by decide)) (show 2 < 2 ^ 31 + 3 by omega)
  have hkey : strToKey 250 ([97, 97] ++ 61 :: List.replicate (2 ^ 31) (49 : UInt8)) 2 (Pair.zeroed 64) =
      .ok (.ok { Pair.zeroed 64 with req := [0xaa] }) := rfl
  have hsize : toInt ((2 : Nat) : Int) = 2 := by decide
  have hrest : toInt (((2 ^ 31 + 3 : Nat) : Int) - (2 + 1)) = -2 ^ 31 := by decide
  have hoverrun : strnchr (List.replicate (2 ^ 31) (49 : UInt8)) (toSizeT (-2 ^ 31)) 10 =
      .error .outOfBounds := by
    refine strnchr_overrun hones ?_
    rw [List.length_replicate]
    decide
  refine ⟨[97, 97] ++ 61 :: List.replicate (2 ^ 31) 49, ?_⟩
  unfold strToPair
  rw [htotal, if_neg (by omega), hnchr, Except.ok_bind]
  dsimp only
  rw [hsize, if_neg (by decide), hkey, Except.ok_bind]
  change strToResp (List.replicate (2 ^ 31) 49) (toInt _) _ = _
  rw [hrest, strToResp, hoverrun]
  rfl

/-! ### The record that is filled in -/

/-- The record at another address, which the parser does not look at. -/
def Pair.moved (addr : Nat) (p : Pair w) : Pair w := { p with addr := addr }

theorem strToKey_moved (HZ : Nat) (str : List UInt8) (sz : Int) (addr : Nat) (mem : Pair w) :
    strToKey HZ str sz (mem.moved addr) = (strToKey HZ str sz mem).map (Except.map (Pair.moved addr)) := by
  unfold strToKey
  cases isHexStr str (toSizeT sz) with
  | error f => rfl
  | ok hex =>
      simp only [Except.ok_bind]
      cases hex with
      | true =>
          simp only [if_true]
          split
          · rfl
          · split
            · rfl
            · cases hex2bin hweMaxRequest str (toSizeT (sz.tdiv 2)) with
              | error f => rfl
              | ok req =>
                  cases req with
                  | none => rfl
                  | some req => rfl
      | false =>
          simp only [Bool.false_eq_true, if_false]
          cases hasPrefix (bytes "timer:") str with
          | error f => rfl
          | ok found =>
              simp only [Except.ok_bind]
              cases hweStrToTime (if found = true then str.drop 6 else str) with
              | error f => rfl
              | ok scan =>
                  simp only [Except.ok_bind]
                  split
                  · rfl
                  · cases deref scan.2 with
                    | error f => rfl
                    | ok c =>
                        simp only [Except.ok_bind]
                        split
                        · rfl
                        · rfl

theorem strToResp_moved (s : List UInt8) (sz : Int) (addr : Nat) (mem : Pair w) :
    strToResp s sz (mem.moved addr) = (strToResp s sz mem).map (Except.map (Pair.moved addr)) := by
  unfold strToResp
  cases strnchr s (toSizeT sz) 10 with
  | error f => rfl
  | ok e =>
      simp only [Except.ok_bind]
      split
      · rfl
      · split
        · rfl
        · split
          · rfl
          · cases hex2bin hweMaxResponse s (toSizeT (((e.map fun n : Nat => toInt n).getD sz).tdiv 2)) with
            | error f => rfl
            | ok resp =>
                cases resp with
                | none => rfl
                | some resp => rfl

theorem strToPair_moved (HZ : Nat) (str : List UInt8) (addr : Nat) (mem : Pair w) :
    strToPair HZ str (mem.moved addr) = (strToPair HZ str mem).map (Except.map (Pair.moved addr)) := by
  unfold strToPair
  split
  · rfl
  · cases strnchr str str.length 61 with
    | error f => rfl
    | ok pos =>
        simp only [Except.ok_bind]
        cases pos with
        | none => rfl
        | some e =>
            dsimp only
            split
            · rfl
            · rw [strToKey_moved]
              generalize toInt ((str.length : Int) - (toInt e + 1)) = sz
              cases strToKey HZ str (toInt e) mem with
              | error f => rfl
              | ok key =>
                  cases key with
                  | error err => rfl
                  | ok pair => exact strToResp_moved (str.drop (e + 1)) sz addr pair

end Hwemu
