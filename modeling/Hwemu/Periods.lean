import Hwemu.Schedule
import Hwemu.ConfigStore

/-!
# The period of a timer pair

A pair of `t` milliseconds should fire every so many jiffies as just cover `t` milliseconds. When
the ticks come at every jiffy it does, unless `t` is negative as an `int`, which `msecs_to_jiffies`
answers with a constant, or the period is longer than the comparison of jiffies can look ahead.
-/

namespace Hwemu

variable {w HZ N : Nat} {J : BitVec w} {d : Dev w} {p : Pair w}

/-- The smallest number of jiffies that covers `t` milliseconds. -/
def jiffiesCovering (HZ t : Nat) : Nat := (t * HZ + 999) / 1000

theorem jiffiesCovering_le_iff {t n : Nat} : jiffiesCovering HZ t ≤ n ↔ t * HZ ≤ n * 1000 := by
  unfold jiffiesCovering
  rw [Nat.div_le_iff_le_mul_add_pred (by decide)]
  omega

theorem jiffiesCovering_pos {t : Nat} (hHZ : 0 < HZ) (ht : 0 < t) : 0 < jiffiesCovering HZ t := by
  have hms : 0 < t * HZ := Nat.mul_pos ht hHZ
  by_contra hzero
  have hle := jiffiesCovering_le_iff.mp (Nat.le_of_not_lt hzero)
  omega

/-- When `msecs_to_jiffies` returns the number of jiffies that covers the time. -/
theorem toNat_msecsToJiffies (hw : 2 ≤ w) {t : Nat} (hN : jiffiesCovering HZ t < 2 ^ w) :
    (msecsToJiffies w HZ t).toNat = jiffiesCovering HZ t ↔
      t < 2 ^ 31 ∨ jiffiesCovering HZ t = 2 ^ (w - 2) - 2 := by
  unfold msecsToJiffies
  by_cases hlong : 2 ^ 31 ≤ t
  · have hlt : 2 ^ (w - 2) - 2 < 2 ^ w :=
      lt_of_le_of_lt (Nat.sub_le _ _) (Nat.pow_lt_pow_right (by decide) (by omega))
    rw [if_pos hlong, maxJiffyOffset, BitVec.toNat_ofNat, Nat.mod_eq_of_lt hlt]
    constructor
    · intro h
      exact Or.inr h.symm
    · rintro (hshort | h)
      · omega
      · exact h.symm
  · rw [if_neg hlong, BitVec.toNat_ofNat]
    exact iff_of_true (Nat.mod_eq_of_lt hN) (Or.inl (by omega))

/-- Ticks at `m` consecutive jiffies, the first at `J`. -/
def consecutive (J : BitVec w) (m : Nat) : List (BitVec w) :=
  (List.range m).map fun i => J + BitVec.ofNat w i

theorem consecutive_succ (J : BitVec w) (m : Nat) :
    consecutive J (m + 1) = consecutive J m ++ [J + BitVec.ofNat w m] := by
  rw [consecutive, List.range_succ, List.map_append]
  rfl

/-- The multiples of `N` below `m`. -/
def multiples (N m : Nat) : List Nat := (List.range m).filter fun i => N ∣ i

theorem mem_multiples {m i : Nat} : i ∈ multiples N m ↔ i < m ∧ N ∣ i := by
  simp [multiples]

theorem multiples_succ (N m : Nat) :
    multiples N (m + 1) = multiples N m ++ if N ∣ m then [m] else [] := by
  rw [multiples, List.range_succ, List.filter_append, List.filter_singleton]
  by_cases hdvd : N ∣ m
  · rw [if_pos hdvd, decide_eq_true hdvd]
    rfl
  · rw [if_neg hdvd, decide_eq_false hdvd]
    rfl

theorem length_multiples_gt (hN : 0 < N) {m k : Nat} (hk : k * N < m) :
    k + 1 ≤ (multiples N m).length := by
  have hsub : (List.range (k + 1)).map (· * N) ⊆ multiples N m := by
    intro i hi
    obtain ⟨j, hj, rfl⟩ := List.mem_map.mp hi
    have hle : j * N ≤ k * N := Nat.mul_le_mul_right N (by simpa [Nat.lt_succ_iff] using hj)
    exact mem_multiples.mpr ⟨lt_of_le_of_lt hle hk, Nat.dvd_mul_left N j⟩
  have hnodup : ((List.range (k + 1)).map (· * N)).Nodup :=
    List.nodup_range.map fun i j hij => Nat.eq_of_mul_eq_mul_right hN hij
  simpa using (hnodup.subperm hsub).length_le

theorem multiples_below {m : Nat} (hm : 0 < m) (hle : m ≤ N) : multiples N m = [0] := by
  induction m with
  | zero => exact absurd hm (lt_irrefl 0)
  | succ m ih =>
      rw [multiples_succ]
      rcases Nat.eq_zero_or_pos m with rfl | hpos
      · rw [if_pos (Nat.dvd_zero N)]
        rfl
      · rw [ih hpos (by omega), if_neg (Nat.not_dvd_of_pos_of_lt hpos (by omega)), List.append_nil]

/-! ### Ticks at every jiffy -/

/-- The furthest that `time_after_eq` looks ahead. -/
def maxPeriod (w : Nat) : Nat := 2 ^ (w - 1) + 1

theorem maxPeriod_lt (hw : 32 ≤ w) : maxPeriod w < 2 ^ w := by
  have hhalf : 2 ^ w = 2 * 2 ^ (w - 1) := by
    rw [← Nat.pow_succ', Nat.succ_eq_add_one, Nat.sub_add_cancel (by omega)]
  have htwo : 2 ≤ 2 ^ (w - 1) := Nat.le_self_pow (by omega) 2
  unfold maxPeriod
  omega

/-- The pair is not due at jiffies 0, unless it is due at the next tick again or there is none. -/
def MissesZero (N : Nat) (J : BitVec w) (m : Nat) : Prop :=
  N = 1 ∨ ∀ i, i * N + 1 < m → J + BitVec.ofNat w (i * N) ≠ 0

/-- Up to `maxPeriod` jiffies ahead the comparison tells when the time has come. -/
theorem timeAfterEq_ahead (hw : 0 < w) {r : Nat} (hpos : 0 < r) (hr : r ≤ N) (hN : N ≤ maxPeriod w) :
    timeAfterEq (BitVec.ofNat w r) (BitVec.ofNat w N) = decide (r = N) := by
  have hhalf : 2 ^ w = 2 * 2 ^ (w - 1) := by
    rw [← Nat.pow_succ', Nat.succ_eq_add_one, Nat.sub_add_cancel hw]
  have hone : 0 < 2 ^ (w - 1) := Nat.two_pow_pos _
  unfold maxPeriod at hN
  by_cases hlt : r < 2 ^ w
  · have hnat : (BitVec.ofNat w r).toNat = r := by
      rw [BitVec.toNat_ofNat, Nat.mod_eq_of_lt hlt]
    rw [timeAfterEq_ofNat hw (by omega) (by omega), hnat]
    apply decide_eq_decide.mpr
    omega
  · have hsame : r = N := by omega
    subst hsame
    simp [timeAfterEq]

/-- **The tick after `m + 1` ticks** at consecutive jiffies: the pair fires when the number of jiffies
since the first of them is a multiple of its period. -/
theorem timerPair_consecutive (hw : 0 < w) {m : Nat} (hasync : p.asyncRx = true)
    (hperiod : p.period = BitVec.ofNat w N) (hpos : 0 < N) (hN : N ≤ maxPeriod w)
    (htime : p.time = J + BitVec.ofNat w (m / N * N)) (hzero : N = 1 ∨ p.time ≠ 0) :
    timerPair (J + BitVec.ofNat w (m + 1)) p =
      if N ∣ m + 1 then ({ p with time := J + BitVec.ofNat w (m + 1) }, true) else (p, false) := by
  have hsplit : m + 1 = m / N * N + (m % N + 1) := by
    rw [← Nat.add_assoc, Nat.div_add_mod']
  have hmod : m % N + 1 ≤ N := Nat.mod_lt m hpos
  have hdvd : N ∣ m + 1 ↔ m % N + 1 = N := by
    rw [hsplit, Nat.dvd_add_right (Nat.dvd_mul_left N (m / N))]
    constructor
    · intro h
      exact le_antisymm hmod (Nat.le_of_dvd (Nat.succ_pos _) h)
    · intro h
      rw [h]
  rw [timerPair_timer hasync]
  by_cases htime₀ : p.time = 0
  · -- the pair looks new, and its period is one jiffy
    have hone : N = 1 := hzero.resolve_right (not_not_intro htime₀)
    have hnow : timerTime (J + BitVec.ofNat w (m + 1)) p = J + BitVec.ofNat w (m + 1) :=
      if_neg (not_not_intro htime₀)
    have hrefl : timeAfterEq (J + BitVec.ofNat w (m + 1)) (J + BitVec.ofNat w (m + 1)) = true := by
      simp [timeAfterEq]
    rw [hnow, hrefl, if_pos rfl, if_pos (by rw [hone]; exact Nat.one_dvd _)]
  · have hdue : timerTime (J + BitVec.ofNat w (m + 1)) p =
        BitVec.ofNat w N + (J + BitVec.ofNat w (m / N * N)) := by
      rw [timerTime, if_pos htime₀, htime, hperiod, BitVec.add_comm]
    have htick : J + BitVec.ofNat w (m + 1) =
        BitVec.ofNat w (m % N + 1) + (J + BitVec.ofNat w (m / N * N)) := by
      rw [hsplit, BitVec.ofNat_add]
      ac_rfl
    have hahead : timeAfterEq (J + BitVec.ofNat w (m + 1))
        (BitVec.ofNat w N + (J + BitVec.ofNat w (m / N * N))) = decide (m % N + 1 = N) := by
      rw [htick, timeAfterEq_add]
      exact timeAfterEq_ahead hw (Nat.succ_pos _) hmod hN
    rw [hdue, hahead]
    by_cases hcome : m % N + 1 = N
    · rw [if_pos (decide_eq_true hcome), if_pos (hdvd.mpr hcome), htick, hcome]
    · rw [if_neg (by simpa using hcome), if_neg (mt hdvd.mp hcome)]

/-- The calls for a pair that fires every `N` jiffies from the first of `m` consecutive ones on. -/
def callsEvery (N : Nat) (d : Dev w) (p : Pair w) (J : BitVec w) (m : Nat) : List (RxCall w) :=
  (multiples N m).map fun i => ⟨d.iface, d.device, { p with time := J + BitVec.ofNat w i }⟩

/-- **Ticks at consecutive jiffies** fire a new pair at each multiple of its period. -/
theorem callsAt_consecutive (hw : 0 < w) (hasync : p.asyncRx = true) (hnew : p.time = 0)
    (hperiod : p.period = BitVec.ofNat w N) (hpos : 0 < N) (hN : N ≤ maxPeriod w) {m : Nat}
    (hzero : MissesZero N J m) (d : Dev w) :
    p.callsAt d.iface d.device (consecutive J m) = callsEvery N d p J m ∧
      p.firedAt (consecutive J m) = (List.range m).map (fun i => decide (N ∣ i)) ∧
      ∀ n, m = n + 1 → p.afterTicks (consecutive J m) = { p with time := J + BitVec.ofNat w (n / N * N) } := by
  induction m with
  | zero => exact ⟨rfl, rfl, fun n hn => absurd hn (Nat.succ_ne_zero n).symm⟩
  | succ m ih =>
      have hzero' : MissesZero N J m := hzero.imp_right fun h i hi => h i (by omega)
      obtain ⟨hcalls, hfired, hafter⟩ := ih hzero'
      have htick : timerPair (J + BitVec.ofNat w m) (p.afterTicks (consecutive J m)) =
          if N ∣ m then ({ p with time := J + BitVec.ofNat w m }, true)
          else (p.afterTicks (consecutive J m), false) := by
        cases m with
        | zero =>
            rw [if_pos (Nat.dvd_zero N)]
            change timerPair (J + BitVec.ofNat w 0) p = _
            rw [timerPair_timer hasync, timerTime, if_neg (not_not_intro hnew)]
            simp [timeAfterEq]
        | succ n =>
            have hp := hafter n rfl
            rw [hp]
            have hmiss : N = 1 ∨ J + BitVec.ofNat w (n / N * N) ≠ 0 := by
              refine hzero.imp_right fun h => h (n / N) ?_
              have hle := Nat.div_mul_le_self n N
              omega
            exact timerPair_consecutive (p := { p with time := J + BitVec.ofNat w (n / N * N) })
              hw hasync hperiod hpos hN rfl hmiss
      rw [consecutive_succ, Pair.callsAt_append, Pair.firedAt_append, Pair.afterTicks_append, hcalls,
        hfired]
      refine ⟨?_, ?_, ?_⟩
      · rw [Pair.callsAt, Pair.callsAt, List.append_nil, Pair.call, htick, callsEvery, callsEvery,
          multiples_succ, List.map_append]
        congr 1
        split
        · rfl
        · rfl
      · rw [Pair.firedAt, Pair.firedAt, htick, List.range_succ, List.map_append, List.map_singleton]
        congr 1
        split
        · rename_i hdvd
          rw [decide_eq_true hdvd]
        · rename_i hdvd
          rw [decide_eq_false hdvd]
      · intro n hn
        obtain rfl := Nat.succ.inj hn
        change (timerPair (J + BitVec.ofNat w m) (p.afterTicks (consecutive J m))).1 = _
        rw [htick]
        split
        · rename_i hdvd
          rw [Nat.div_mul_cancel hdvd]
        · rename_i hdvd
          cases m with
          | zero => exact absurd (Nat.dvd_zero N) hdvd
          | succ n =>
              have hp := hafter n rfl
              rw [hp, Nat.succ_div, if_neg hdvd, Nat.add_zero]

theorem one_ne_zero_bitVec (hw : 0 < w) : (1 : BitVec w) ≠ 0 := by
  intro heq
  have hnat := congrArg BitVec.toNat heq
  have hlt : 1 < 2 ^ w := Nat.one_lt_two_pow hw.ne'
  simp [Nat.mod_eq_of_lt hlt] at hnat

/-- A run from 1 on that ends when the pair is due for the second time. -/
theorem missesZero_one (hw : 0 < w) {m : Nat} (hm : m ≤ N + 1) : MissesZero N (1 : BitVec w) m := by
  right
  intro i hi
  have hzero : i = 0 := by
    by_contra hne
    have hle := Nat.le_mul_of_pos_left N (Nat.pos_of_ne_zero hne)
    omega
  rw [hzero, Nat.zero_mul]
  simpa using one_ne_zero_bitVec hw

/-- A period longer than `maxPeriod`, or one of 0 jiffies, is over at the next tick. -/
theorem timerPair_next (hw : 2 ≤ w) (hasync : p.asyncRx = true) (hone : p.time = 1)
    (hperiod : p.period.toNat = 0 ∨ maxPeriod w < p.period.toNat) : (timerPair 2 p).2 = true := by
  have hhalf : 2 ^ w = 2 * 2 ^ (w - 1) := by
    rw [← Nat.pow_succ', Nat.succ_eq_add_one, Nat.sub_add_cancel (by omega)]
  have htwo : 2 ≤ 2 ^ (w - 1) := Nat.le_self_pow (by omega) 2
  have hlt := p.period.isLt
  have hone_lt : (1 : Nat) < 2 ^ w := by omega
  have hne : p.time ≠ 0 := hone ▸ one_ne_zero_bitVec (by omega)
  have htick : (2 : BitVec w) = 1 + 1 := by
    apply BitVec.eq_of_toNat_eq
    simp
  have hdue : timeAfterEq (1 : BitVec w) p.period = true := by
    unfold timeAfterEq
    have hnat : (1 : BitVec w).toNat = 1 := by simp [Nat.mod_eq_of_lt hone_lt]
    rw [decide_eq_true_eq, BitVec.toInt_pos_iff, BitVec.toNat_sub, hnat]
    unfold maxPeriod at hperiod
    rcases hperiod with hzero | hlong
    · rw [hzero, Nat.sub_zero, Nat.add_mod_left, Nat.mod_eq_of_lt hone_lt]
      omega
    · rw [Nat.mod_eq_of_lt (by omega)]
      omega
  rw [timerPair_timer hasync, timerTime, if_pos hne, hone, BitVec.add_comm, htick, timeAfterEq_add, hdue]
  rfl

/-! ### Runs -/

section

variable {es : List (Event w)} {m : Nat}

/-- The pair fires every `N` jiffies from the first tick on, and so at least `k` times more in a run
that goes on for `k` periods. -/
structure Honoured (N : Nat) (d : Dev w) (p : Pair w) (J : BitVec w) (m : Nat) (es : List (Event w)) :
    Prop where
  fired : firedTicks d.iface p.addr es = (List.range m).map fun i => decide (N ∣ i)
  scheduled : firings p.addr es = callsEvery N d p J m
  enough : ∀ k, k * N < m → k + 1 ≤ (firings p.addr es).length

theorem TimerRun.firings_whole (h : TimerRun HZ d p es) :
    firings p.addr es = p.callsAt d.iface d.device (lockedTicks d.iface es) := by
  obtain ⟨_, _, k₁, k₂, hinv, hd, hp, hrun⟩ := h.start
  exact (pair_followed hinv hd hp hrun).2.2

theorem TimerRun.honoured (h : TimerRun HZ d p es) (hw : 0 < w)
    (hticks : lockedTicks d.iface es = consecutive J m) (hperiod : p.period = BitVec.ofNat w N)
    (hpos : 0 < N) (hN : N ≤ maxPeriod w) (hzero : MissesZero N J m) : Honoured N d p J m es := by
  obtain ⟨hasync, hnew, _⟩ := h.start
  obtain ⟨hcalls, hfired, _⟩ := callsAt_consecutive hw hasync hnew hperiod hpos hN hzero d
  rw [← hticks, ← h.firings_whole] at hcalls
  rw [← hticks, ← h.firedTicks_eq] at hfired
  refine ⟨hfired, hcalls, ?_⟩
  intro k hk
  rw [hcalls, callsEvery, List.length_map]
  exact length_multiples_gt hpos hk

/-- Every timer pair that the parser makes can be a pair of a device, and the ticks can come at any
times. -/
theorem exists_timerRun {q : Pair w} (hq : q.Valid) (hasync : q.asyncRx = true) (js : List (BitVec w)) :
    ∃ d p es, TimerRun HZ d p es ∧ p.periodMs = q.periodMs ∧
      p.period = msecsToJiffies w HZ q.periodMs ∧ lockedTicks d.iface es = js := by
  obtain ⟨k, hdevice, hk⟩ := @Kernel.Holds.ifaceAddStore w _ HZ .i2c _ (Kernel.Holds.loaded w HZ) (by decide)
    (bytes "1") (by decide)
  have hreach : SysReachable HZ k :=
    Reachable.sys ⟨[.ifaceAddStore .i2c (bytes "1") .succeeds], .cons ⟨_, hdevice⟩ (.nil k)⟩
  obtain ⟨d, hd, hindex, _⟩ := @Kernel.Holds.findDevice w _ HZ .i2c _ hk 0 (by decide)
  have htexts : (Contents.addDev .i2c fun _ => []) .i2c = [[]] := rfl
  have hmax : hweMaxPairStr ≤ intMax := by decide
  obtain ⟨ret, k₁, hrun, haccepts, _⟩ := hk.devAddStore hd (by rw [htexts, hindex]; rfl)
    ((length_pairToStr hq).2.trans hmax) (rfl : (AddPairEnv.succeeds w).kmalloc = some _) rfl
  have hret : 0 ≤ ret := by
    refine haccepts.mpr ⟨(Pair.zeroed w).filled HZ q, ?_, by decide, fun _ _ ht => absurd ht List.not_mem_nil⟩
    rw [textPair, strToPair_pairToStr HZ hq]
  have hdev := Kernel.mem_devs_of_mem hd
  rcases devAddStore_cases hk.inv hdev hrun with ⟨mem, q', _, hparse, _, hadd⟩ | ⟨hneg, _⟩
  · rw [strToPair_pairToStr HZ hq] at hparse
    obtain rfl := Except.ok.inj (Except.ok.inj hparse)
    rw [Pair.filled, if_pos hasync] at hadd
    generalize hplaced : Pair.placed _ d = p at hadd
    have haddr : p.addr = k.heap.next := hplaced ▸ rfl
    have htimer : p.asyncRx = true := hplaced ▸ rfl
    have hmem := hadd.mem_devs rfl hdev
    have hnew : ¬k.HasPair d.addr p.addr := by
      rintro ⟨d', hd', _, p', hp', heq⟩
      have hold := hk.inv.pairFresh d' hd' p' hp'
      omega
    have hstep : SysStep HZ k (.op (.devAddStore d.addr (pairToStr q) (.succeeds w))) k₁ := ⟨ret, hrun⟩
    have hp : p ∈ (d.addPair p).pairList :=
      List.mem_append_right d.pairList (List.mem_singleton_self p)
    obtain ⟨es, k₂, hticks, hjs⟩ := ticks_run (hstep.inv hreach.inv) hmem hp HZ js
    have hpair : TimerRun HZ (d.addPair p) p es :=
      ⟨k, .devAddStore d.addr (pairToStr q) (.succeeds w), k₁, k₂, hreach, ⟨ret, hrun⟩, hnew, hmem, hp,
        htimer, hticks⟩
    exact ⟨d.addPair p, p, es, hpair, hplaced ▸ rfl, hplaced ▸ rfl, hjs⟩
  · omega

/-- Only the period of `N` jiffies is kept, and only up to `maxPeriod`: a run that goes on until the
pair should fire, or does fire, for the second time tells. -/
theorem period_of_honoured (hw : 2 ≤ w) {q : Pair w} (hq : q.Valid) (hasync : q.asyncRx = true)
    (hN : 0 < N) (hone : N = 1 → (msecsToJiffies w HZ q.periodMs).toNat = 1)
    (hall : ∀ {d : Dev w} {p es J m}, TimerRun HZ d p es → p.periodMs = q.periodMs →
      p.period = msecsToJiffies w HZ q.periodMs → lockedTicks d.iface es = consecutive J m →
      MissesZero N J m → Honoured N d p J m es) :
    (msecsToJiffies w HZ q.periodMs).toNat = N ∧ N ≤ maxPeriod w := by
  generalize hP : (msecsToJiffies w HZ q.periodMs).toNat = P at hone ⊢
  by_cases hrange : P = 0 ∨ maxPeriod w < P
  · -- the pair fires at the second tick
    obtain ⟨d, p, es, hrun, hms, hperiod, hticks⟩ := @exists_timerRun w HZ q hq hasync (consecutive 1 2)
    obtain ⟨htimer, hnew, _⟩ := hrun.start
    have hfired := (hall hrun hms hperiod hticks (missesZero_one (by omega) (by omega))).fired
    rw [hrun.firedTicks_eq, hticks] at hfired
    have hsecond : p.firedAt (consecutive 1 2) = [true, true] := by
      have hfirst : timerPair (1 + BitVec.ofNat w 0) p = ({ p with time := 1 }, true) := by
        rw [timerPair_timer htimer, timerTime, if_neg (not_not_intro hnew)]
        simp [timeAfterEq]
      have hnext := timerPair_next (p := { p with time := 1 }) hw htimer rfl (by rw [← hP, ← hperiod] at hrange; exact hrange)
      have htwo : (1 + BitVec.ofNat w 1 : BitVec w) = 2 := by
        apply BitVec.eq_of_toNat_eq
        simp
      change [(timerPair (1 + BitVec.ofNat w 0) p).2,
        (timerPair (1 + BitVec.ofNat w 1) (timerPair (1 + BitVec.ofNat w 0) p).1).2] = _
      rw [hfirst, htwo, hnext]
    rw [hsecond] at hfired
    have hdvd : N ∣ 1 := by
      simpa [List.range_succ] using hfired.symm
    have hunit := hone (Nat.dvd_one.mp hdvd)
    have hbig : 1 ≤ maxPeriod w := Nat.le_add_left ..
    omega
  · obtain ⟨hpos, hle⟩ := not_or.mp hrange
    obtain ⟨d, p, es, hrun, hms, hperiod, hticks⟩ := @exists_timerRun w HZ q hq hasync
      (consecutive 1 (min P N + 1))
    have hfired := (hall hrun hms hperiod hticks (missesZero_one (by omega) (by omega))).fired
    have hactual : p.period = BitVec.ofNat w P := by
      rw [hperiod, ← hP, BitVec.ofNat_toNat, BitVec.setWidth_eq]
    have hkept := (hrun.honoured (by omega) hticks hactual (by omega) (by omega) (missesZero_one (by omega) (by omega))).fired
    rw [hkept] at hfired
    have hsame := List.map_inj_left.mp hfired (min P N) (List.mem_range.mpr (Nat.lt_succ_self _))
    have hiff : P ∣ min P N ↔ N ∣ min P N := decide_eq_decide.mp hsame
    have heq : P = N := by
      rcases le_total P N with hPN | hNP
      · rw [min_eq_left hPN] at hiff
        exact le_antisymm hPN (Nat.le_of_dvd (by omega) (hiff.mp (dvd_refl P)))
      · rw [min_eq_right hNP] at hiff
        exact le_antisymm (Nat.le_of_dvd hN (hiff.mpr (dvd_refl N))) hNP
    exact ⟨heq, by omega⟩

/-- **Which periods are kept.** The pair of an accepted timer text keeps its period, in every run with
ticks at consecutive jiffies in which it is not due at jiffies 0, exactly when the number of
milliseconds is not negative as an `int` and the period is at most `maxPeriod`. -/
theorem timer_period {text : List UInt8} {mem q : Pair w} (hw : 32 ≤ w) (hHZ : 0 < HZ)
    (hparse : strToPair HZ text mem = .ok (.ok q)) (htimer : q.asyncRx = true) :
    (∀ (d : Dev w) p es J m, TimerRun HZ d p es → p.periodMs = q.periodMs → p.period = q.period →
      lockedTicks d.iface es = consecutive J m → MissesZero (jiffiesCovering HZ q.periodMs) J m →
      Honoured (jiffiesCovering HZ q.periodMs) d p J m es) ↔
    (q.periodMs < 2 ^ 31 ∨ jiffiesCovering HZ q.periodMs = 2 ^ (w - 2) - 2) ∧
      jiffiesCovering HZ q.periodMs ≤ maxPeriod w := by
  obtain ⟨hq, hfilled⟩ := strToPair_ok hparse
  have hperiod : q.period = msecsToJiffies w HZ q.periodMs := by
    rw [hfilled, Pair.filled, if_pos htimer]
  have hpos : 0 < jiffiesCovering HZ q.periodMs := jiffiesCovering_pos hHZ (hq.timer htimer).2.1
  have hmax : maxPeriod w < 2 ^ w := maxPeriod_lt hw
  constructor
  · intro hall
    have hone : jiffiesCovering HZ q.periodMs = 1 → (msecsToJiffies w HZ q.periodMs).toNat = 1 := by
      intro heq
      have hle := jiffiesCovering_le_iff.mp heq.le
      have hshort : q.periodMs ≤ q.periodMs * HZ := Nat.le_mul_of_pos_right _ hHZ
      rw [← heq]
      exact (toNat_msecsToJiffies (by omega) (heq ▸ Nat.one_lt_two_pow (by omega))).mpr (Or.inl (by omega))
    obtain ⟨heq, hle⟩ := period_of_honoured (by omega) hq htimer hpos hone
      fun {d p es J m} hrun hms hp => hall d p es J m hrun hms (hp.trans hperiod.symm)
    exact ⟨(toNat_msecsToJiffies (by omega) (by omega)).mp heq, hle⟩
  · rintro ⟨hN, hle⟩ d p es J m hrun hms hp hticks hzero
    refine hrun.honoured (by omega) hticks ?_ hpos hle hzero
    have heq := (toNat_msecsToJiffies (by omega) (by omega)).mpr hN
    rw [hp, hperiod, ← heq, BitVec.ofNat_toNat, BitVec.setWidth_eq]

end

theorem timer_period_applies : ∃ (d : Dev 32) (es : List (Event 32)), TimerRun 250 d sampleTimer es ∧
    lockedTicks d.iface es = consecutive 1 6 ∧
    firedTicks d.iface sampleTimer.addr es = [true, false, true, false, true, false] := by
  obtain ⟨d, es, hrun, hticks⟩ := sampleTimer_run (consecutive 1 6)
  have hparse : strToPair 250 (bytes "timer:8ms=cc\n") (Pair.zeroed 32) =
      .ok (.ok { Pair.zeroed 32 with resp := [0xcc], asyncRx := true, periodMs := 8, period := 2 }) := by
    decide +kernel
  have hmisses : MissesZero (jiffiesCovering 250 8) (1 : BitVec 32) 6 := by
    right
    intro i hi
    have htwo : jiffiesCovering 250 8 = 2 := rfl
    rw [htwo] at hi ⊢
    have hlt : i < 3 := by omega
    interval_cases i <;> decide
  have hkept := (timer_period (le_refl 32) (by decide) hparse rfl).mpr ⟨Or.inl (by decide), by decide⟩
    d sampleTimer es 1 6 hrun rfl rfl hticks hmisses
  exact ⟨d, es, hrun, hticks, hkept.fired⟩

/-- A pair of 2³¹ milliseconds, that is 2³¹ jiffies, has not fired again after as many jiffies. -/
theorem long_period_lost : ∃ (q : Pair 64) (d : Dev 64) (p : Pair 64) (es : List (Event 64)),
    strToPair 1000 (bytes "timer:596h31m23s648ms=cc") (Pair.zeroed 64) = .ok (.ok q) ∧
      q.asyncRx = true ∧ jiffiesCovering 1000 q.periodMs = 2 ^ 31 ∧ TimerRun 1000 d p es ∧
      p.periodMs = q.periodMs ∧ p.period = q.period ∧
      lockedTicks d.iface es = consecutive 1 (2 ^ 31 + 1) ∧
      MissesZero (2 ^ 31) (1 : BitVec 64) (2 ^ 31 + 1) ∧ (firings p.addr es).length = 1 ∧
      ¬Honoured (2 ^ 31) d p 1 (2 ^ 31 + 1) es := by
  have hparse : strToPair 1000 (bytes "timer:596h31m23s648ms=cc") (Pair.zeroed 64) =
      .ok (.ok { Pair.zeroed 64 with
        resp := [0xcc], asyncRx := true, periodMs := 2 ^ 31, period := maxJiffyOffset 64 }) := by
    decide +kernel
  obtain ⟨hq, _⟩ := strToPair_ok hparse
  obtain ⟨d, p, es, hrun, hms, hperiod, hticks⟩ := @exists_timerRun 64 1000 _ hq rfl
    (consecutive 1 (2 ^ 31 + 1))
  have hactual : p.period = BitVec.ofNat 64 (2 ^ 62 - 2) := hperiod
  have hfires := hrun.honoured (by decide) hticks hactual (by decide) (by decide)
    (missesZero_one (by decide) (by decide))
  have hone : (firings p.addr es).length = 1 := by
    rw [hfires.scheduled, callsEvery, List.length_map, multiples_below (by decide) (by decide)]
    rfl
  refine ⟨_, d, p, es, hparse, rfl, by decide, hrun, hms, hactual, hticks, missesZero_one (by decide) le_rfl,
    hone, ?_⟩
  intro hkept
  have htwo := hkept.enough 1 (by decide)
  omega

end Hwemu
