import Hwemu.Lib.Periodic
import Hwemu.TimerRuns
import Mathlib.Data.List.Chain

/-!
# When a timer pair fires

The time recorded for a timer pair is the time it was due and not the time of the tick, so the pair
keeps to its schedule. This holds as long as the two times that `time_after_eq` compares are less
than half of the range of `jiffies` apart, and as long as no pair is due when `jiffies` is 0.
-/

namespace Hwemu

variable {w : Nat} {k k₁ k₂ : Kernel w} {d : Dev w} {p : Pair w} {HZ : Nat}

/-! ### The comparison -/

theorem timeAfterEq_ofNat {jiff : BitVec w} {s : Nat} (hw : 0 < w)
    (hlate : jiff.toNat < s + 2 ^ (w - 1)) (hearly : s ≤ jiff.toNat + 2 ^ (w - 1)) :
    timeAfterEq jiff (BitVec.ofNat w s) = decide (s ≤ jiff.toNat) := by
  have hhalf : 2 ^ w = 2 * 2 ^ (w - 1) := by
    rw [← Nat.pow_succ', Nat.succ_eq_add_one, Nat.sub_add_cancel hw]
  have hint : (jiff - BitVec.ofNat w s).toInt = (jiff.toNat : Int) - s := by
    rw [BitVec.toInt_sub, BitVec.toInt_ofNat', BitVec.toInt_eq_toNat_bmod, Int.bmod_sub_bmod,
      Int.sub_bmod_bmod]
    apply Int.bmod_eq_of_le_mul_two
    · omega
    · omega
  unfold timeAfterEq
  rw [hint]
  apply decide_eq_decide.mpr
  omega

theorem timeAfterEq_add (jiff j c : BitVec w) : timeAfterEq (jiff + c) (j + c) = timeAfterEq jiff j := by
  have hcancel : jiff + c - (j + c) = jiff - j := by grind
  unfold timeAfterEq
  rw [hcancel]

/-! ### One pair on its schedule -/

/-- The time of a pair that has fired `n` times, due first at `start` and then every `period`. -/
structure OnSchedule (start period n : Nat) (p : Pair w) : Prop where
  unfired : n = 0 → p.time = 0
  recorded : ∀ m, n = m + 1 → p.time.toNat = start + m * period

section

variable {start period n : Nat} {jiff : BitVec w}

theorem OnSchedule.timerTime_eq (h : OnSchedule start period n p) (hperiod : p.period.toNat = period)
    (hpos : 0 < start) (hfirst : n = 0 → jiff.toNat = start) :
    timerTime jiff p = BitVec.ofNat w (start + n * period) := by
  unfold timerTime
  cases n with
  | zero =>
      rw [if_neg (not_not_intro (h.unfired rfl)), Nat.zero_mul, Nat.add_zero, ← hfirst rfl,
        BitVec.ofNat_toNat, BitVec.setWidth_eq]
  | succ m =>
      have hrecorded := h.recorded m rfl
      have hne : p.time ≠ 0 := by
        intro hzero
        rw [hzero] at hrecorded
        have hzero' : (0 : BitVec w).toNat = 0 := by simp
        omega
      rw [if_pos hne, Nat.succ_mul, ← Nat.add_assoc, ← hrecorded, ← hperiod, BitVec.ofNat_add, BitVec.ofNat_toNat,
        BitVec.ofNat_toNat, BitVec.setWidth_eq, BitVec.setWidth_eq]

/-- **One tick.** The pair fires when its next time on the schedule has come, and records it. -/
theorem OnSchedule.timerPair_eq (h : OnSchedule start period n p) (hperiod : p.period.toNat = period)
    (hasync : p.asyncRx = true) (hpos : 0 < start) (hfirst : n = 0 → jiff.toNat = start)
    (hlater : ∀ m, n = m + 1 → start + m * period ≤ jiff.toNat) (hhalf : period ≤ 2 ^ (w - 1))
    (hrange : jiff.toNat < start + n * period + 2 ^ (w - 1)) :
    timerPair jiff p = if start + n * period ≤ jiff.toNat then
      ({ p with time := BitVec.ofNat w (start + n * period) }, true) else (p, false) := by
  have hle : start ≤ jiff.toNat := by
    cases n with
    | zero => exact (hfirst rfl).ge
    | succ m => exact le_trans (Nat.le_add_right ..) (hlater m rfl)
  have hw : 0 < w := by
    apply Nat.pos_of_ne_zero
    rintro rfl
    have hlt := jiff.isLt
    omega
  have hearly : start + n * period ≤ jiff.toNat + 2 ^ (w - 1) := by
    cases n with
    | zero => omega
    | succ m =>
        have hbefore := hlater m rfl
        rw [Nat.succ_mul]
        omega
  rw [timerPair_timer hasync, h.timerTime_eq hperiod hpos hfirst, timeAfterEq_ofNat hw hrange hearly]
  simp only [decide_eq_true_eq]

/-- A time that has come is recorded as it is. -/
theorem toNat_recorded (hdue : start + n * period ≤ jiff.toNat) :
    (BitVec.ofNat w (start + n * period)).toNat = start + n * period := by
  rw [BitVec.toNat_ofNat]
  exact Nat.mod_eq_of_lt (lt_of_le_of_lt hdue jiff.isLt)

theorem OnSchedule.step (h : OnSchedule start period n p) (iface : HweIface) (device : Option Nat)
    (hdue : timerPair jiff p = if start + n * period ≤ jiff.toNat then
      ({ p with time := BitVec.ofNat w (start + n * period) }, true) else (p, false)) :
    (p.call jiff iface device).length = (if start + n * period ≤ jiff.toNat then 1 else 0) ∧
      OnSchedule start period (if start + n * period ≤ jiff.toNat then n + 1 else n)
        (timerPair jiff p).1 := by
  unfold Pair.call
  rw [hdue]
  split
  · rename_i hcome
    refine ⟨rfl, fun hzero => absurd hzero (Nat.succ_ne_zero n), ?_⟩
    intro m hm
    obtain rfl := Nat.succ.inj hm
    exact toNat_recorded hcome
  · exact ⟨rfl, h⟩

/-- The step of the induction over the ticks: at the next tick the pair keeps to its schedule. -/
theorem OnSchedule.timerPair_afterTicks {js : List (BitVec w)}
    (h : OnSchedule start p.period.toNat (Periodic.count start p.period.toNat (js.map BitVec.toNat))
      (p.afterTicks js))
    (hasync : p.asyncRx = true) (hpos : 0 < start) (hhalf : p.period.toNat ≤ 2 ^ (w - 1))
    (hsorted : ((js ++ [jiff]).map BitVec.toNat).Pairwise (· < ·))
    (hfirst : ∀ t ∈ ((js ++ [jiff]).map BitVec.toNat).head?, t = start)
    (hrange : jiff.toNat < start + Periodic.count start p.period.toNat (js.map BitVec.toNat) *
      p.period.toNat + 2 ^ (w - 1)) :
    timerPair jiff (p.afterTicks js) =
      if start + Periodic.count start p.period.toNat (js.map BitVec.toNat) * p.period.toNat ≤ jiff.toNat
      then ({ p.afterTicks js with time := BitVec.ofNat w (start +
        Periodic.count start p.period.toNat (js.map BitVec.toNat) * p.period.toNat) }, true)
      else (p.afterTicks js, false) := by
  rw [List.map_append, List.map_singleton] at hsorted hfirst
  have hbelow := (List.pairwise_append.mp hsorted).2.2
  obtain ⟨time, hsame⟩ := p.afterTicks_same js
  apply h.timerPair_eq (by rw [hsame]) (by rw [hsame]; exact hasync) hpos ?_ ?_ hhalf hrange
  · intro hzero
    cases hjs : js.map BitVec.toNat with
    | nil =>
        rw [hjs] at hfirst
        exact hfirst _ rfl
    | cons t ts =>
        rw [hjs] at hfirst hzero
        have hcount : 0 < Periodic.count start p.period.toNat (t :: ts) := by
          apply Periodic.count_pos
          rw [← hfirst t rfl]
          rfl
        omega
  · intro m hm
    exact Periodic.last_due (fun s hs => (hbelow s hs _ (List.mem_singleton_self _)).le) hm

/-- **Ticks at increasing times** fire a new pair as its schedule says, while the backlog is less than
half of the range of `jiffies`. -/
theorem onSchedule_afterTicks (iface : HweIface) (device : Option Nat) (hasync : p.asyncRx = true)
    (hnew : p.time = 0) (hpos : 0 < start) (hhalf : p.period.toNat ≤ 2 ^ (w - 1))
    {js : List (BitVec w)} (hsorted : (js.map BitVec.toNat).Pairwise (· < ·))
    (hfirst : ∀ t ∈ (js.map BitVec.toNat).head?, t = start)
    (hrange : ∀ js₁ jiff, js₁ ++ [jiff] <+: js → jiff.toNat <
      start + (p.callsAt iface device js₁).length * p.period.toNat + 2 ^ (w - 1)) :
    (p.callsAt iface device js).length =
        Periodic.count start p.period.toNat (js.map BitVec.toNat) ∧
      OnSchedule start p.period.toNat (Periodic.count start p.period.toNat (js.map BitVec.toNat))
        (p.afterTicks js) := by
  induction js using List.reverseRecOn with
  | nil => exact ⟨rfl, fun _ => hnew, fun m hm => absurd hm (Nat.succ_ne_zero m).symm⟩
  | append_singleton js jiff ih =>
      have hupto : js <+: js ++ [jiff] := List.prefix_append js [jiff]
      have hsorted₁ : (js.map BitVec.toNat).Pairwise (· < ·) := hsorted.sublist (hupto.sublist.map _)
      have hfirst₁ : ∀ t ∈ (js.map BitVec.toNat).head?, t = start := by
        intro t ht
        apply hfirst t
        rw [List.map_append, List.head?_append, ht]
        rfl
      obtain ⟨hlength, hschedule⟩ := ih hsorted₁ hfirst₁ fun js₁ j hj => hrange js₁ j (hj.trans hupto)
      have hback := hrange js jiff (List.prefix_refl _)
      rw [hlength] at hback
      have hpair := hschedule.timerPair_afterTicks hasync hpos hhalf hsorted hfirst hback
      obtain ⟨hcall, hnext⟩ := hschedule.step iface device hpair
      rw [Pair.callsAt_append, List.length_append, hlength, List.map_append, List.map_singleton,
        Periodic.count_concat, Pair.afterTicks_append]
      refine ⟨?_, hnext⟩
      rw [Pair.callsAt, Pair.callsAt, List.append_nil, hcall]
      split
      · rfl
      · rfl

end

/-! ### Runs -/

section

variable {es es₁ es₂ : List (Event w)} {start : Nat} {jiff : BitVec w} {free : HweIface → Bool}
  {calls : List (RxCall w)}

/-- The backlog of the pair is below half of the range of `jiffies` at each tick of the run. -/
def BacklogBelow (iface : HweIface) (p : Pair w) (start : Nat) (es : List (Event w)) : Prop :=
  ∀ es₁ jiff free calls es₂, es = es₁ ++ .tick jiff free calls :: es₂ → free iface = true →
    jiff.toNat < start + (firings p.addr es₁).length * p.period.toNat + 2 ^ (w - 1)

theorem TimerRun.onSchedule (h : TimerRun HZ d p es) (hhalf : p.period.toNat ≤ 2 ^ (w - 1))
    (hpos : 0 < start) (hfirst : ((lockedTicks d.iface es).map BitVec.toNat).head? = some start)
    (hsorted : ((lockedTicks d.iface es).map BitVec.toNat).Pairwise (· < ·))
    (hrange : BacklogBelow d.iface p start es) {js : List (BitVec w)}
    (hjs : js <+: lockedTicks d.iface es) :
    (p.callsAt d.iface d.device js).length =
        Periodic.count start p.period.toNat (js.map BitVec.toNat) ∧
      OnSchedule start p.period.toNat (Periodic.count start p.period.toNat (js.map BitVec.toNat))
        (p.afterTicks js) := by
  obtain ⟨hasync, hunfired, _⟩ := h.start
  apply onSchedule_afterTicks d.iface d.device hasync hunfired hpos hhalf
  · exact hsorted.sublist (hjs.sublist.map _)
  · intro t ht
    obtain ⟨js', hall⟩ := hjs
    rw [← hall, List.map_append, List.head?_append, ht] at hfirst
    exact Option.some.inj hfirst
  · intro js₁ jiff hjs₁
    obtain ⟨js₂, hall⟩ := hjs₁.trans hjs
    rw [List.append_assoc, List.singleton_append] at hall
    obtain ⟨es₁, free, calls, es₂, rfl, hfree, rfl, _⟩ := lockedTicks_split hall.symm
    rw [← h.firings_eq.1]
    exact hrange es₁ jiff free calls es₂ rfl hfree

theorem lockedTicks_tick {iface : HweIface} (hfree : free iface = true) :
    lockedTicks iface [.tick jiff free calls] = [jiff] := by
  simp [lockedTicks, hfree]

/-- **The schedule of a timer pair.** From the operation that added the pair on, whatever else
happens, the pair fires at the ticks that take the semaphore of its interface and at which its next
time has come, counted from the first of these ticks, and records that time. -/
theorem timer_schedule {J₁ P : Nat} (h : TimerRun HZ d p (es₁ ++ .tick jiff free calls :: es₂))
    (hperiod : p.period.toNat = P) (hone : 1 ≤ P) (hhalf : P ≤ 2 ^ (w - 1)) (hpos : 0 < J₁)
    (hfirst : ((lockedTicks d.iface (es₁ ++ .tick jiff free calls :: es₂)).map BitVec.toNat).head? =
      some J₁)
    (hsorted : ((lockedTicks d.iface (es₁ ++ .tick jiff free calls :: es₂)).map
      BitVec.toNat).Pairwise (· < ·))
    (hrange : BacklogBelow d.iface p J₁ (es₁ ++ .tick jiff free calls :: es₂)) :
    (free d.iface = false → firings p.addr [.tick jiff free calls] = []) ∧
    (free d.iface = true →
      let n := (firings p.addr es₁).length
      let N := (firings p.addr (es₁ ++ [.tick jiff free calls])).length
      firings p.addr [.tick jiff free calls] = (if J₁ + n * P ≤ jiff.toNat then
        [⟨d.iface, d.device, { p with time := BitVec.ofNat w (J₁ + n * P) }⟩] else []) ∧
      (J₁ + n * P ≤ jiff.toNat → (BitVec.ofNat w (J₁ + n * P)).toNat = J₁ + n * P) ∧
      N ≤ 1 + (jiff.toNat - J₁) / P ∧
      (((lockedTicks d.iface (es₁ ++ [.tick jiff free calls])).map BitVec.toNat).IsChain
        (fun s t => t ≤ s + P) → N = 1 + (jiff.toNat - J₁) / P)) := by
  subst hperiod
  obtain ⟨hbefore, htick⟩ := h.firings_eq
  constructor
  · intro hfree
    rw [htick]
    simp [lockedTicks, hfree, Pair.callsAt]
  · intro hfree n N
    have hlocked : lockedTicks d.iface [.tick jiff free calls] = [jiff] := lockedTicks_tick hfree
    have hall : lockedTicks d.iface (es₁ ++ .tick jiff free calls :: es₂) =
        lockedTicks d.iface es₁ ++ [jiff] ++ lockedTicks d.iface es₂ := by
      rw [List.append_cons, lockedTicks_append, lockedTicks_append, hlocked]
    have hupto : lockedTicks d.iface es₁ ++ [jiff] <+:
        lockedTicks d.iface (es₁ ++ .tick jiff free calls :: es₂) := by
      rw [hall]
      exact List.prefix_append _ _
    have hupto₁ : lockedTicks d.iface es₁ <+:
        lockedTicks d.iface (es₁ ++ .tick jiff free calls :: es₂) :=
      (List.prefix_append _ [jiff]).trans hupto
    obtain ⟨hlength₁, hschedule₁⟩ := h.onSchedule hhalf hpos hfirst hsorted hrange hupto₁
    obtain ⟨hlength, _⟩ := h.onSchedule hhalf hpos hfirst hsorted hrange hupto
    have hn : n = Periodic.count J₁ p.period.toNat ((lockedTicks d.iface es₁).map BitVec.toNat) := by
      rw [← hlength₁, ← hbefore]
    have hN : N = Periodic.count J₁ p.period.toNat
        ((lockedTicks d.iface es₁).map BitVec.toNat ++ [jiff.toNat]) := by
      rw [← List.map_singleton, ← List.map_append, ← hlength, Pair.callsAt_append, ← hlocked,
        ← htick, ← hbefore, ← firings_append]
    have hsorted₂ := hsorted.sublist (hupto.sublist.map BitVec.toNat)
    have hhead : ((lockedTicks d.iface es₁ ++ [jiff]).map BitVec.toNat).head? = some J₁ := by
      rw [← hfirst, hall, List.map_append, List.head?_append]
      cases lockedTicks d.iface es₁ with
      | nil => rfl
      | cons => rfl
    have hback := hrange es₁ jiff free calls es₂ rfl hfree
    rw [show (firings p.addr es₁).length = n from rfl, hn] at hback
    have hpair := hschedule₁.timerPair_afterTicks h.start.1 hpos hhalf hsorted₂
      (fun t ht => Option.some.inj (ht.symm.trans hhead)) hback
    rw [← hn] at hpair
    obtain ⟨time, hsame⟩ := p.afterTicks_same (lockedTicks d.iface es₁)
    rw [List.map_append, List.map_singleton] at hsorted₂ hhead
    have hle : ∀ s ∈ (lockedTicks d.iface es₁).map BitVec.toNat ++ [jiff.toNat], s ≤ jiff.toNat := by
      intro s hs
      rcases List.mem_append.mp hs with hold | hlast
      · exact ((List.pairwise_append.mp hsorted₂).2.2 s hold _ (List.mem_singleton_self _)).le
      · exact (List.mem_singleton.mp hlast).le
    refine ⟨?_, toNat_recorded, ?_, ?_⟩
    · rw [htick, hlocked, Pair.callsAt, Pair.callsAt, List.append_nil, Pair.call, hpair]
      split
      · rw [hsame]
        rfl
      · rfl
    · rw [hN]
      exact Periodic.count_le hone hle
    · intro hchain
      rw [lockedTicks_append, hlocked, List.map_append, List.map_singleton] at hchain
      rw [hN]
      exact Periodic.count_eq hone hhead hle hchain

end

theorem timer_schedule_applies : ∃ (d : Dev 32) (es₁ es₂ : List (Event 32)) (free : HweIface → Bool)
    (calls : List (RxCall 32)), TimerRun 250 d sampleTimer (es₁ ++ .tick 8 free calls :: es₂) ∧
      lockedTicks d.iface es₁ = [1] ∧ firings sampleTimer.addr [.tick 8 free calls] =
        [⟨d.iface, d.device, { sampleTimer with time := BitVec.ofNat 32 (1 + 1 * 2) }⟩] := by
  obtain ⟨d, es, hrun, hjs⟩ := sampleTimer_run [1, 8]
  have hsplit : lockedTicks d.iface es = [1] ++ 8 :: [] := hjs
  obtain ⟨es₁, free, calls, es₂, rfl, hfree, hes₁, _⟩ := lockedTicks_split hsplit
  have hfired : (firings sampleTimer.addr es₁).length = 1 := by
    rw [hrun.firings_eq.1, hes₁]
    rfl
  have hrange : BacklogBelow d.iface sampleTimer 1 (es₁ ++ .tick 8 free calls :: es₂) := by
    intro es jiff free' calls' es' hes hfree'
    have hmem : jiff ∈ ([1, 8] : List (BitVec 32)) := by
      rw [← hjs, hes, List.append_cons, lockedTicks_append, lockedTicks_append, lockedTicks_tick hfree']
      simp
    have hle : jiff.toNat ≤ 8 := by
      rcases List.mem_cons.mp hmem with rfl | hlast
      · decide
      · rw [List.mem_singleton.mp hlast]
        decide
    omega
  have hschedule := timer_schedule hrun rfl (by decide) (by decide) (Nat.one_pos)
    (by rw [hjs]; rfl) (by rw [hjs]; decide) hrange
  refine ⟨d, es₁, es₂, free, calls, hrun, hes₁, ?_⟩
  have hfires := (hschedule.2 hfree).1
  rw [hfired] at hfires
  exact hfires

/-- After 2³¹ jiffies without a tick a pair that is due does not fire. -/
theorem overdue_pair_waits : ∃ (d : Dev 32) (es₁ es₂ : List (Event 32)) (free : HweIface → Bool)
    (calls : List (RxCall 32)),
    TimerRun 250 d sampleTimer (es₁ ++ .tick (2 ^ 31 + 4) free calls :: es₂) ∧ free d.iface = true ∧
      lockedTicks d.iface es₁ = [1] ∧ (firings sampleTimer.addr es₁).length = 1 ∧
      1 + 1 * sampleTimer.period.toNat ≤ (2 ^ 31 + 4 : BitVec 32).toNat ∧
      firings sampleTimer.addr [.tick (2 ^ 31 + 4) free calls] = [] := by
  obtain ⟨d, es, hrun, hjs⟩ := sampleTimer_run [1, 2 ^ 31 + 4]
  have hsplit : lockedTicks d.iface es = [1] ++ (2 ^ 31 + 4) :: [] := hjs
  obtain ⟨es₁, free, calls, es₂, rfl, hfree, hes₁, _⟩ := lockedTicks_split hsplit
  obtain ⟨hbefore, htick⟩ := hrun.firings_eq
  refine ⟨d, es₁, es₂, free, calls, hrun, hfree, hes₁, ?_, by decide, ?_⟩
  · rw [hbefore, hes₁]
    rfl
  · rw [htick, hes₁, lockedTicks_tick hfree]
    rfl

/-! ### Shifted jiffies -/

namespace Pair

/-- At which of the ticks the pair fires. -/
def firedAt : Pair w → List (BitVec w) → List Bool
  | _, [] => []
  | p, jiff :: jiffs => (timerPair jiff p).2 :: firedAt (timerPair jiff p).1 jiffs

/-- Two timer pairs of one period, the second with its time shifted by `c`. -/
structure Shifted (c : BitVec w) (p p' : Pair w) : Prop where
  asyncRx : p.asyncRx = true
  asyncRx' : p'.asyncRx = true
  period : p'.period = p.period
  time : (p.time = 0 ∧ p'.time = 0) ∨ (p.time ≠ 0 ∧ p'.time ≠ 0 ∧ p'.time = p.time + c)

theorem Shifted.timerTime_eq {c : BitVec w} {p p' : Pair w} (h : p.Shifted c p') (jiff : BitVec w) :
    timerTime (jiff + c) p' = timerTime jiff p + c := by
  unfold timerTime
  rcases h.time with ⟨hzero, hzero'⟩ | ⟨hne, hne', htime⟩
  · rw [if_neg (not_not_intro hzero), if_neg (not_not_intro hzero')]
  · rw [if_pos hne, if_pos hne', htime, h.period]
    grind

/-- **One tick** of both. -/
theorem Shifted.timerPair {c : BitVec w} {p p' : Pair w} (h : p.Shifted c p') (jiff : BitVec w) :
    (Hwemu.timerPair (jiff + c) p').2 = (Hwemu.timerPair jiff p).2 ∧
      (((Hwemu.timerPair jiff p).2 = true → (Hwemu.timerPair jiff p).1.time ≠ 0 ∧
          (Hwemu.timerPair (jiff + c) p').1.time ≠ 0) →
        (Hwemu.timerPair jiff p).1.Shifted c (Hwemu.timerPair (jiff + c) p').1) := by
  rw [timerPair_timer h.asyncRx, timerPair_timer h.asyncRx', h.timerTime_eq jiff, timeAfterEq_add]
  split
  · refine ⟨rfl, fun hne => ⟨h.asyncRx, h.asyncRx', h.period, Or.inr ?_⟩⟩
    obtain ⟨hne, hne'⟩ := hne rfl
    exact ⟨hne, hne', rfl⟩
  · exact ⟨rfl, fun _ => h⟩

/-- **Shifted ticks** fire a shifted pair alike, unless a time that is looked at again is 0. -/
theorem Shifted.firedAt_eq {c : BitVec w} {p p' : Pair w} (h : p.Shifted c p')
    (iface iface' : HweIface) (device device' : Option Nat) {js : List (BitVec w)}
    (hne : ∀ js₁ j js₂, js = js₁ ++ j :: js₂ → ∀ call ∈ p.callsAt iface device js₁, call.pair.time ≠ 0)
    (hne' : ∀ js₁ j js₂, js.map (· + c) = js₁ ++ j :: js₂ →
      ∀ call ∈ p'.callsAt iface' device' js₁, call.pair.time ≠ 0) :
    p'.firedAt (js.map (· + c)) = p.firedAt js := by
  induction js generalizing p p' with
  | nil => rfl
  | cons jiff js ih =>
      obtain ⟨hfired, hnext⟩ := h.timerPair jiff
      rw [List.map_cons, Pair.firedAt, Pair.firedAt, hfired]
      congr 1
      cases js with
      | nil => rfl
      | cons jiff' js =>
          have hcall : ∀ {q : Pair w} {j : BitVec w} (iface : HweIface) (device : Option Nat),
              (Hwemu.timerPair j q).2 = true →
              ⟨iface, device, (Hwemu.timerPair j q).1⟩ ∈ q.callsAt iface device [j] := by
            intro q j iface device htrue
            rw [Pair.callsAt, Pair.call, if_pos htrue]
            exact List.mem_append_left _ (List.mem_singleton_self _)
          have hshifted := hnext fun htrue =>
            ⟨hne [jiff] jiff' js rfl _ (hcall iface device htrue),
              hne' [jiff + c] (jiff' + c) (js.map (· + c)) rfl _ (hcall iface' device' (hfired.trans htrue))⟩
          apply ih hshifted
          · intro js₁ j js₂ heq call hmem
            exact hne (jiff :: js₁) j js₂ (by rw [heq]; rfl) call (List.mem_append_right _ hmem)
          · intro js₁ j js₂ heq call hmem
            exact hne' ((jiff + c) :: js₁) j js₂ (by rw [List.map_cons, heq]; rfl) call
              (List.mem_append_right _ hmem)

end Pair

section

variable {es es' : List (Event w)} {d' : Dev w} {p' : Pair w} {HZ' : Nat}

/-- At which of the ticks that take the semaphore of the interface the pair fires. -/
def firedTicks (iface : HweIface) (pair : Nat) (es : List (Event w)) : List Bool :=
  es.flatMap fun
    | .op _ => []
    | .tick _ free calls => if free iface then [calls.any fun call => call.pair.addr = pair] else []

theorem firedTicks_append (iface : HweIface) (pair : Nat) (es es' : List (Event w)) :
    firedTicks iface pair (es ++ es') = firedTicks iface pair es ++ firedTicks iface pair es' :=
  List.flatMap_append

theorem Pair.firedAt_append (p : Pair w) (js js' : List (BitVec w)) :
    p.firedAt (js ++ js') = p.firedAt js ++ (p.afterTicks js).firedAt js' := by
  induction js generalizing p with
  | nil => rfl
  | cons j js ih =>
      rw [List.cons_append, firedAt, firedAt, ih]
      rfl

theorem TimerRun.firedTicks_eq (h : TimerRun HZ d p es) :
    firedTicks d.iface p.addr es = p.firedAt (lockedTicks d.iface es) := by
  induction es using List.reverseRecOn with
  | nil => rfl
  | append_singleton es e ih =>
      have hcalls := h.firings_eq.2
      rw [firedTicks_append, lockedTicks_append, Pair.firedAt_append, ih h.before]
      congr 1
      cases e with
      | op op => rfl
      | tick jiff free calls =>
          cases hfree : free d.iface with
          | false => simp [firedTicks, lockedTicks, hfree, Pair.firedAt]
          | true =>
              rw [lockedTicks_tick hfree] at hcalls ⊢
              simp only [firings, List.flatMap_singleton] at hcalls
              rw [Pair.callsAt, Pair.callsAt, List.append_nil, Pair.call] at hcalls
              simp only [firedTicks, List.flatMap_singleton, hfree, if_true, Pair.firedAt]
              congr 1
              cases hfired : (timerPair jiff (p.afterTicks (lockedTicks d.iface es))).2 with
              | false =>
                  rw [hfired, if_neg Bool.false_ne_true] at hcalls
                  apply List.any_eq_false.mpr
                  exact List.filter_eq_nil_iff.mp hcalls
              | true =>
                  rw [hfired, if_pos rfl] at hcalls
                  have hmem := List.mem_filter.mp (hcalls ▸ List.mem_singleton_self _)
                  exact List.any_eq_true.mpr ⟨_, hmem.1, hmem.2⟩

/-- No tick that takes the semaphore finds 0 recorded for the pair, once it has fired. -/
def NeverZero (iface : HweIface) (pair : Nat) (es : List (Event w)) : Prop :=
  ∀ es₁ jiff free calls es₂, es = es₁ ++ .tick jiff free calls :: es₂ → free iface = true →
    ∀ call ∈ firings pair es₁, call.pair.time ≠ 0

theorem NeverZero.callsAt (hne : NeverZero d.iface p.addr es) (h : TimerRun HZ d p es) :
    ∀ js₁ j js₂, lockedTicks d.iface es = js₁ ++ j :: js₂ →
      ∀ call ∈ p.callsAt d.iface d.device js₁, call.pair.time ≠ 0 := by
  intro js₁ j js₂ hjs call hcall
  obtain ⟨es₁, free, calls, es₂, rfl, hfree, rfl, _⟩ := lockedTicks_split hjs
  rw [← h.firings_eq.1] at hcall
  exact hne es₁ j free calls es₂ rfl hfree call hcall

/-- A run whose firings all record other times. -/
theorem TimerRun.neverZero (h : TimerRun HZ d p es)
    (hall : ∀ call ∈ p.callsAt d.iface d.device (lockedTicks d.iface es), call.pair.time ≠ 0) :
    NeverZero d.iface p.addr es := by
  rintro es₁ jiff free calls es₂ rfl _ call hcall
  apply hall call
  rw [h.firings_eq.1] at hcall
  rw [lockedTicks_append, Pair.callsAt_append]
  exact List.mem_append_left _ hcall

/-- **Shifting `jiffies`** changes nothing about when a timer pair fires, as long as in neither run a
tick finds 0, the mark of a pair that has not fired, as the time recorded for it. -/
theorem timer_shift (c : BitVec w) (h : TimerRun HZ d p es) (h' : TimerRun HZ' d' p' es')
    (hperiod : p'.period = p.period)
    (hticks : lockedTicks d'.iface es' = (lockedTicks d.iface es).map (· + c))
    (hne : NeverZero d.iface p.addr es) (hne' : NeverZero d'.iface p'.addr es') :
    firedTicks d'.iface p'.addr es' = firedTicks d.iface p.addr es := by
  obtain ⟨hasync, hunfired, _⟩ := h.start
  obtain ⟨hasync', hunfired', _⟩ := h'.start
  have hshifted : p.Shifted c p' := ⟨hasync, hasync', hperiod, Or.inl ⟨hunfired, hunfired'⟩⟩
  have hcalls' := hne'.callsAt h'
  rw [h.firedTicks_eq, h'.firedTicks_eq, hticks]
  rw [hticks] at hcalls'
  exact hshifted.firedAt_eq d.iface d'.iface d.device d'.device (hne.callsAt h) hcalls'

end

/-- A run through the wrap of `jiffies` and the same run eleven jiffies later. -/
theorem timer_shift_applies : ∃ (d d' : Dev 32) (es es' : List (Event 32)),
    TimerRun 250 d sampleTimer es ∧ TimerRun 250 d' sampleTimer es' ∧
      lockedTicks d.iface es = [2 ^ 32 - 1, 1] ∧ lockedTicks d'.iface es' = [10, 12] ∧
      firedTicks d'.iface sampleTimer.addr es' = firedTicks d.iface sampleTimer.addr es := by
  obtain ⟨d, es, hrun, hjs⟩ := sampleTimer_run [2 ^ 32 - 1, 1]
  obtain ⟨d', es', hrun', hjs'⟩ := sampleTimer_run [10, 12]
  have hne : NeverZero d.iface sampleTimer.addr es := by
    apply hrun.neverZero
    have hcalls : sampleTimer.callsAt d.iface d.device [2 ^ 32 - 1, 1] =
        [⟨d.iface, d.device, { sampleTimer with time := 2 ^ 32 - 1 }⟩,
          ⟨d.iface, d.device, { sampleTimer with time := 1 }⟩] := rfl
    rw [hjs, hcalls]
    intro call hcall
    rcases List.mem_cons.mp hcall with rfl | hlast
    · exact (by decide : (2 ^ 32 - 1 : BitVec 32) ≠ 0)
    · rw [List.mem_singleton.mp hlast]
      exact (by decide : (1 : BitVec 32) ≠ 0)
  have hne' : NeverZero d'.iface sampleTimer.addr es' := by
    apply hrun'.neverZero
    have hcalls : sampleTimer.callsAt d'.iface d'.device [10, 12] =
        [⟨d'.iface, d'.device, { sampleTimer with time := 10 }⟩,
          ⟨d'.iface, d'.device, { sampleTimer with time := 12 }⟩] := rfl
    rw [hjs', hcalls]
    simp
  exact ⟨d, d', es, es', hrun, hrun', hjs, hjs',
    timer_shift 11 hrun hrun' rfl (by rw [hjs, hjs']; rfl) hne hne'⟩

/-- A pair that was due when `jiffies` was 0 fires at the next tick again, one jiffy later and not
two. -/
theorem wrap_adds_a_firing : ∃ (d d' : Dev 32) (es es' : List (Event 32)),
    TimerRun 250 d sampleTimer es ∧ TimerRun 250 d' sampleTimer es' ∧ sampleTimer.period = 2 ∧
      lockedTicks d.iface es = [2 ^ 32 - 2, 0, 1] ∧
      lockedTicks d'.iface es' = (lockedTicks d.iface es).map (· + 10) ∧
      firedTicks d.iface sampleTimer.addr es = [true, true, true] ∧
      firedTicks d'.iface sampleTimer.addr es' = [true, true, false] := by
  obtain ⟨d, es, hrun, hjs⟩ := sampleTimer_run [2 ^ 32 - 2, 0, 1]
  obtain ⟨d', es', hrun', hjs'⟩ := sampleTimer_run [8, 10, 11]
  refine ⟨d, d', es, es', hrun, hrun', rfl, hjs, ?_, ?_, ?_⟩
  · rw [hjs, hjs']
    rfl
  · rw [hrun.firedTicks_eq, hjs]
    rfl
  · rw [hrun'.firedTicks_eq, hjs']
    rfl

end Hwemu
