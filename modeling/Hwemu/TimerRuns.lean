import Hwemu.Async
import Hwemu.Operations

/-!
# Runs with ticks

Operations and ticks in any order. Whatever else happens, one pair is only moved by the ticks that
take the semaphore of its interface, and these move it as `timerPair` does.
-/

namespace Hwemu

variable {w : Nat} {k k' : Kernel w} {d : Dev w} {p : Pair w} {HZ : Nat}

/-- What happens to the store: a whole operation, or a tick. A tick can take the semaphores of the
interfaces in `free`; an operation is at work on each of the others. -/
inductive Event (w : Nat) where
  | op (op : Op w)
  | tick (jiff : BitVec w) (free : HweIface → Bool) (calls : List (RxCall w))

def timerTick (jiff : BitVec w) (free : HweIface → Bool) (k : Kernel w) :
    Kernel w × List (RxCall w) :=
  let (k', calls) := timerFunc jiff
    { k with sems := fun iface => if free iface then k.sems iface else 0 }
  ({ k' with sems := k.sems }, calls)

def SysStep (HZ : Nat) (k : Kernel w) : Event w → Kernel w → Prop
  | .op op, k' => OpStep HZ k op k'
  | .tick jiff free calls, k' => timerTick jiff free k = (k', calls)

def SysReachable (HZ : Nat) (k : Kernel w) : Prop :=
  ∃ es, Run (SysStep HZ) (Kernel.loaded w) es k

theorem sysRun_of_run {ops : List (Op w)} (hrun : Run (OpStep HZ) k ops k') :
    Run (SysStep HZ) k (ops.map .op) k' := by
  induction hrun with
  | nil => exact .nil _
  | cons hstep _ ih => exact .cons hstep ih

theorem Reachable.sys (h : Reachable HZ k) : SysReachable HZ k := by
  obtain ⟨ops, hrun⟩ := h
  exact ⟨_, sysRun_of_run hrun⟩

/-- A step that leaves the pair at address `pair` with the device at `dev`. -/
def SysKeeps (HZ dev pair : Nat) (k : Kernel w) (e : Event w) (k' : Kernel w) : Prop :=
  SysStep HZ k e k' ∧ k'.HasPair dev pair

/-- The times of the ticks that take the semaphore of an interface. -/
def lockedTicks (iface : HweIface) (es : List (Event w)) : List (BitVec w) :=
  es.flatMap fun
    | .op _ => []
    | .tick jiff free _ => if free iface then [jiff] else []

/-- The calls made for the pair at an address. -/
def firings (pair : Nat) (es : List (Event w)) : List (RxCall w) :=
  es.flatMap fun
    | .op _ => []
    | .tick _ _ calls => calls.filter fun call => call.pair.addr = pair

namespace Pair

/-- The pair after ticks at the given times. -/
def afterTicks (p : Pair w) : List (BitVec w) → Pair w :=
  List.foldl (fun p jiff => (timerPair jiff p).1) p

/-- The calls ticks at the given times make for the pair. -/
def callsAt (iface : HweIface) (device : Option Nat) : Pair w → List (BitVec w) → List (RxCall w)
  | _, [] => []
  | p, jiff :: jiffs => p.call jiff iface device ++ callsAt iface device (timerPair jiff p).1 jiffs

theorem afterTicks_append (p : Pair w) (js js' : List (BitVec w)) :
    p.afterTicks (js ++ js') = (p.afterTicks js).afterTicks js' :=
  List.foldl_append

theorem callsAt_append (iface : HweIface) (device : Option Nat) (p : Pair w) (js js' : List (BitVec w)) :
    p.callsAt iface device (js ++ js') =
      p.callsAt iface device js ++ (p.afterTicks js).callsAt iface device js' := by
  induction js generalizing p with
  | nil => rfl
  | cons j js ih =>
      rw [List.cons_append, callsAt, callsAt, ih, List.append_assoc]
      rfl

/-- Ticks change nothing but the time. -/
theorem afterTicks_same (p : Pair w) (js : List (BitVec w)) :
    ∃ time, p.afterTicks js = { p with time := time } := by
  induction js generalizing p with
  | nil => exact ⟨p.time, rfl⟩
  | cons j js ih =>
      obtain ⟨t, ht⟩ := timerPair_same j p
      obtain ⟨t', ht'⟩ := ih (timerPair j p).1
      refine ⟨t', ?_⟩
      rw [ht] at ht'
      change (timerPair j p).1.afterTicks js = _
      rw [ht, ht']

theorem addr_afterTicks (p : Pair w) (js : List (BitVec w)) : (p.afterTicks js).addr = p.addr := by
  obtain ⟨time, hsame⟩ := p.afterTicks_same js
  rw [hsame]

theorem addr_of_mem_call {jiff : BitVec w} {iface : HweIface} {device : Option Nat} {call : RxCall w}
    (h : call ∈ p.call jiff iface device) : call.pair.addr = p.addr := by
  unfold Pair.call at h
  split at h
  · rw [List.mem_singleton.mp h]
    obtain ⟨time, hsame⟩ := timerPair_same jiff p
    rw [hsame]
  · exact absurd h List.not_mem_nil

end Pair

/-! ### One tick -/

theorem timerTick_eq (h : StoreInv k) (hsems : ∀ iface, k.sems iface = 1) (jiff : BitVec w)
    (free : HweIface → Bool) :
    timerTick jiff free k =
      ({ k with ifaces := fun iface => if free iface then (k.ifaces iface).ticked jiff
          else k.ifaces iface },
        HweIface.all.flatMap fun iface => if free iface then (k.ifaces iface).calls jiff iface
          else []) := by
  have hfree : ∀ iface, (if free iface then k.sems iface else 0) ≠ 0 ↔ free iface = true := by
    intro iface
    rw [hsems]
    cases free iface with
    | false => simp
    | true => simp
  have hnodup : ({ k with sems := fun iface => if free iface then k.sems iface else 0 } :
      Kernel w).AddrsNodup := h.addrsNodup
  unfold timerTick
  rw [timerFunc_eq jiff hnodup]
  simp only [hfree]

theorem filter_flatMap_of_unique {α β : Type} {l : List α} (hl : l.Nodup) {f : α → List β}
    {q : β → Bool} {a : α} (ha : a ∈ l) (hother : ∀ b ∈ l, b ≠ a → ∀ x ∈ f b, q x = false) :
    (l.flatMap f).filter q = (f a).filter q := by
  induction l with
  | nil => exact absurd ha List.not_mem_nil
  | cons b l ih =>
      obtain ⟨hnotMem, hrest⟩ := List.nodup_cons.mp hl
      have hnone : ∀ c ∈ b :: l, c ≠ a → (f c).filter q = [] := by
        intro c hc hne
        apply List.filter_eq_nil_iff.mpr
        intro x hx
        rw [hother c hc hne x hx]
        exact Bool.false_ne_true
      rw [List.flatMap_cons, List.filter_append]
      rcases List.mem_cons.mp ha with rfl | hmem
      · have hempty : (l.flatMap f).filter q = [] := by
          rw [List.filter_flatMap]
          apply List.flatMap_eq_nil_iff.mpr
          intro c hc
          apply hnone c (List.mem_cons_of_mem a hc)
          rintro rfl
          exact hnotMem hc
        rw [hempty, List.append_nil]
      · have hne : b ≠ a := by
          rintro rfl
          exact hnotMem hmem
        rw [hnone b List.mem_cons_self hne, List.nil_append]
        exact ih hrest hmem fun c hc => hother c (List.mem_cons_of_mem b hc)

/-- **The calls of a tick for one pair.** -/
theorem calls_filter (h : StoreInv k) (hd : d ∈ k.devs) (hp : p ∈ d.pairList) (jiff : BitVec w)
    (free : HweIface → Bool) :
    (HweIface.all.flatMap fun iface => if free iface then (k.ifaces iface).calls jiff iface
        else []).filter (fun call => call.pair.addr = p.addr) =
      if free d.iface then p.call jiff d.iface d.device else [] := by
  have hlist := h.mem_devs.mp hd
  -- a call for this address is made for this pair, of this device
  have howner : ∀ {iface d' p'} {call : RxCall w}, d' ∈ (k.ifaces iface).devList → p' ∈ d'.pairList →
      call ∈ p'.call jiff iface d'.device → call.pair.addr = p.addr → d' = d ∧ p' = p := by
    intro iface d' p' call hd' hp' hcall haddr
    have hsame : p'.addr = p.addr := (Pair.addr_of_mem_call hcall).symm.trans haddr
    obtain rfl := h.pairAddr d' (Kernel.mem_devs_of_mem hd') d hd p' hp' p hp hsame
    exact ⟨rfl, (h.ok d' hd).eq_of_addr hp' hp hsame⟩
  have hother : ∀ iface ∈ HweIface.all, iface ≠ d.iface → ∀ call ∈ (if free iface then
      (k.ifaces iface).calls jiff iface else []), decide (call.pair.addr = p.addr) = false := by
    intro iface _ hne call hcall
    apply decide_eq_false
    intro haddr
    split at hcall
    · obtain ⟨d', hd', hcall⟩ := List.mem_flatMap.mp hcall
      obtain ⟨p', hp', hcall⟩ := List.mem_flatMap.mp hcall
      obtain ⟨rfl, rfl⟩ := howner hd' hp' hcall haddr
      exact hne (h.iface iface d' hd').symm
    · exact absurd hcall List.not_mem_nil
  rw [filter_flatMap_of_unique (by decide) d.iface.mem_all hother]
  split
  · have hdev : ∀ d' ∈ (k.ifaces d.iface).devList, d' ≠ d → ∀ call ∈ d'.calls jiff d.iface,
        decide (call.pair.addr = p.addr) = false := by
      intro d' hd' hne call hcall
      apply decide_eq_false
      intro haddr
      obtain ⟨p', hp', hcall⟩ := List.mem_flatMap.mp hcall
      exact hne (howner hd' hp' hcall haddr).1
    have hpair : ∀ p' ∈ d.pairList, p' ≠ p → ∀ call ∈ p'.call jiff d.iface d.device,
        decide (call.pair.addr = p.addr) = false := by
      intro p' hp' hne call hcall
      apply decide_eq_false
      intro haddr
      exact hne (howner hlist hp' hcall haddr).2
    unfold Iface.calls
    rw [filter_flatMap_of_unique ((h.addrsNodup d.iface).of_map) hlist hdev]
    unfold Dev.calls
    rw [filter_flatMap_of_unique ((h.ok d hd).addrs.of_map) hp hpair]
    apply List.filter_eq_self.mpr
    intro call hcall
    exact decide_eq_true (Pair.addr_of_mem_call hcall)
  · rfl

/-! ### Runs -/

theorem SysStep.inv {e : Event w} (h : StoreInv k ∧ ∀ iface, k.sems iface = 1)
    (hstep : SysStep HZ k e k') : StoreInv k' ∧ ∀ iface, k'.sems iface = 1 := by
  cases e with
  | op op =>
      obtain ⟨ret, hexec⟩ := hstep
      obtain ⟨c, hc⟩ := exec_changed h.1 hexec
      refine ⟨h.1.changed hc, ?_⟩
      intro iface
      rw [hc.sems]
      exact h.2 iface
  | tick jiff free calls =>
      obtain ⟨rfl, _⟩ := Prod.mk.inj ((timerTick_eq h.1 h.2 jiff free).symm.trans hstep)
      exact ⟨h.1.ticked rfl rfl, h.2⟩

theorem SysReachable.inv (h : SysReachable HZ k) : StoreInv k ∧ ∀ iface, k.sems iface = 1 := by
  obtain ⟨es, hrun⟩ := h
  exact hrun.invariant (I := fun k => StoreInv k ∧ ∀ iface, k.sems iface = 1)
    (fun _ _ _ hinv hstep => SysStep.inv hinv hstep) ⟨StoreInv.loaded, fun _ => rfl⟩

/-- **One step moves a pair as its ticks do.** -/
theorem SysKeeps.pair_followed {e : Event w} (h : StoreInv k ∧ ∀ iface, k.sems iface = 1)
    (hd : d ∈ k.devs) (hp : p ∈ d.pairList) (hstep : SysKeeps HZ d.addr p.addr k e k') :
    (∃ d' ∈ k'.devs, d'.addr = d.addr ∧ d'.iface = d.iface ∧ d'.device = d.device ∧
      p.afterTicks (lockedTicks d.iface [e]) ∈ d'.pairList) ∧
    firings p.addr [e] = p.callsAt d.iface d.device (lockedTicks d.iface [e]) := by
  obtain ⟨hstep, hkept⟩ := hstep
  cases e with
  | op op =>
      obtain ⟨ret, hexec⟩ := hstep
      obtain ⟨c, hc⟩ := exec_changed h.1 hexec
      obtain ⟨d', hd', haddr, hiface, _, hdevice, hp'⟩ := hc.pair_kept h.1 hd hp hkept
      exact ⟨⟨d', hd', haddr, hiface, hdevice, hp'⟩, rfl⟩
  | tick jiff free calls =>
      obtain ⟨rfl, rfl⟩ := Prod.mk.inj ((timerTick_eq h.1 h.2 jiff free).symm.trans hstep)
      constructor
      · refine ⟨d.tickedIn free jiff, (h.1.mem_devs_ticked rfl).mpr ⟨d, hd, rfl⟩, ?_⟩
        obtain ⟨pairs, heq, _⟩ := d.tickedIn_eq free jiff
        refine ⟨by rw [heq], by rw [heq], by rw [heq], ?_⟩
        cases hfree : free d.iface with
        | false => simpa [lockedTicks, Dev.tickedIn, hfree, Pair.afterTicks] using hp
        | true =>
            have hmem := List.mem_map_of_mem (f := fun p => (timerPair jiff p).1) hp
            simpa [lockedTicks, Dev.tickedIn, hfree, Pair.afterTicks, Dev.ticked] using hmem
      · have hcalls := calls_filter h.1 hd hp jiff free
        cases hfree : free d.iface with
        | false => simpa [firings, lockedTicks, hfree, Pair.callsAt] using hcalls
        | true => simpa [firings, lockedTicks, hfree, Pair.callsAt] using hcalls

theorem lockedTicks_append (iface : HweIface) (es es' : List (Event w)) :
    lockedTicks iface (es ++ es') = lockedTicks iface es ++ lockedTicks iface es' :=
  List.flatMap_append

theorem firings_append (pair : Nat) (es es' : List (Event w)) :
    firings pair (es ++ es') = firings pair es ++ firings pair es' :=
  List.flatMap_append

/-- A tick that takes the semaphore stands in the run. -/
theorem lockedTicks_split {iface : HweIface} {es : List (Event w)} {js js' : List (BitVec w)}
    {jiff : BitVec w} (h : lockedTicks iface es = js ++ jiff :: js') :
    ∃ es₁ free calls es₂, es = es₁ ++ .tick jiff free calls :: es₂ ∧ free iface = true ∧
      lockedTicks iface es₁ = js ∧ lockedTicks iface es₂ = js' := by
  induction es generalizing js with
  | nil => simp [lockedTicks] at h
  | cons e es ih =>
      have hcons : lockedTicks iface (e :: es) = lockedTicks iface [e] ++ lockedTicks iface es :=
        lockedTicks_append iface [e] es
      have hskip : lockedTicks iface [e] = [] → ∃ es₁ free calls es₂,
          e :: es = es₁ ++ .tick jiff free calls :: es₂ ∧ free iface = true ∧
            lockedTicks iface es₁ = js ∧ lockedTicks iface es₂ = js' := by
        intro hnone
        rw [hcons, hnone] at h
        obtain ⟨es₁, free, calls, es₂, rfl, hfree, hjs, hjs'⟩ := ih h
        refine ⟨e :: es₁, free, calls, es₂, rfl, hfree, ?_, hjs'⟩
        have hbefore := lockedTicks_append iface [e] es₁
        rw [hnone] at hbefore
        exact hbefore.trans hjs
      cases e with
      | op op => exact hskip rfl
      | tick j free calls =>
          cases hfree : free iface with
          | false => exact hskip (by simp [lockedTicks, hfree])
          | true =>
              have hone : lockedTicks iface [.tick j free calls] = [j] := by simp [lockedTicks, hfree]
              rw [hcons, hone] at h
              cases js with
              | nil =>
                  obtain ⟨rfl, rfl⟩ := List.cons.inj h
                  exact ⟨[], free, calls, es, rfl, hfree, rfl, rfl⟩
              | cons j' js =>
                  obtain ⟨rfl, hrest⟩ := List.cons.inj h
                  obtain ⟨es₁, free', calls', es₂, rfl, hfree', hjs, hjs'⟩ := ih hrest
                  refine ⟨.tick j free calls :: es₁, free', calls', es₂, rfl, hfree', ?_, hjs'⟩
                  have hbefore := lockedTicks_append iface [.tick j free calls] es₁
                  rw [hone, hjs] at hbefore
                  exact hbefore

/-- **A run moves a pair as its ticks do.** -/
theorem pair_followed {es : List (Event w)} (h : StoreInv k ∧ ∀ iface, k.sems iface = 1)
    (hd : d ∈ k.devs) (hp : p ∈ d.pairList) (hrun : Run (SysKeeps HZ d.addr p.addr) k es k') :
    (StoreInv k' ∧ ∀ iface, k'.sems iface = 1) ∧
    (∃ d' ∈ k'.devs, d'.addr = d.addr ∧ d'.iface = d.iface ∧ d'.device = d.device ∧
      p.afterTicks (lockedTicks d.iface es) ∈ d'.pairList) ∧
    firings p.addr es = p.callsAt d.iface d.device (lockedTicks d.iface es) := by
  induction es using List.reverseRecOn generalizing k' with
  | nil =>
      obtain rfl := Run.nil_iff.mp hrun
      exact ⟨h, ⟨d, hd, rfl, rfl, rfl, hp⟩, rfl⟩
  | append_singleton es e ih =>
      obtain ⟨k₁, hbefore, hlast⟩ := Run.snoc_iff.mp hrun
      obtain ⟨hinv, ⟨d₁, hd₁, haddr, hiface, hdevice, hp₁⟩, hfirings⟩ := ih hbefore
      have hsame := p.addr_afterTicks (lockedTicks d.iface es)
      have hlast₁ : SysKeeps HZ d₁.addr (p.afterTicks (lockedTicks d.iface es)).addr k₁ e k' := by
        rw [haddr, hsame]
        exact hlast
      obtain ⟨⟨d₂, hd₂, haddr₂, hiface₂, hdevice₂, hp₂⟩, hcalls⟩ := hlast₁.pair_followed hinv hd₁ hp₁
      rw [hiface] at hp₂
      rw [hsame, hiface, hdevice] at hcalls
      refine ⟨hlast.1.inv hinv, ⟨d₂, hd₂, haddr₂.trans haddr, hiface₂.trans hiface,
        hdevice₂.trans hdevice, ?_⟩, ?_⟩
      · rw [lockedTicks_append, Pair.afterTicks_append]
        exact hp₂
      · rw [firings_append, lockedTicks_append, Pair.callsAt_append, hfirings, hcalls]

/-- A pair that an operation added has not fired. -/
theorem new_pair_unfired {op : Op w} (h : StoreInv k) (hstep : OpStep HZ k op k') (hd : d ∈ k'.devs)
    (hp : p ∈ d.pairList) (hnew : ¬k.HasPair d.addr p.addr) (hasync : p.asyncRx = true) :
    p.time = 0 := by
  obtain ⟨ret, hexec⟩ := hstep
  obtain ⟨c, hc⟩ := exec_changed h hexec
  rcases hc.pair_origin hd hp with ⟨d₀, hd₀, haddr, hp₀⟩ | ⟨d₀, _, haccepts⟩
  · exact absurd ⟨d₀, hd₀, haddr, p, hp₀, rfl⟩ hnew
  · exact haccepts.unfired hasync

/-- Ticks can come at any times. -/
theorem ticks_run (h : StoreInv k ∧ ∀ iface, k.sems iface = 1) (hd : d ∈ k.devs) (hp : p ∈ d.pairList)
    (HZ : Nat) (js : List (BitVec w)) :
    ∃ es k', Run (SysKeeps HZ d.addr p.addr) k es k' ∧ lockedTicks d.iface es = js := by
  induction js generalizing k d p with
  | nil => exact ⟨[], k, .nil k, rfl⟩
  | cons j js ih =>
      have hstep : SysStep HZ k (.tick j (fun _ => true) (timerTick j (fun _ => true) k).2)
          (timerTick j (fun _ => true) k).1 := rfl
      have hticked := congrArg Prod.fst (timerTick_eq h.1 h.2 j fun _ => true)
      have hmem : d.tickedIn (fun _ => true) j ∈ (timerTick j (fun _ => true) k).1.devs := by
        rw [hticked]
        exact (h.1.mem_devs_ticked rfl).mpr ⟨d, hd, rfl⟩
      have hp' : (timerPair j p).1 ∈ (d.tickedIn (fun _ => true) j).pairList :=
        List.mem_map_of_mem (f := fun p => (timerPair j p).1) hp
      obtain ⟨time, hsame⟩ := timerPair_same j p
      have haddr : (timerPair j p).1.addr = p.addr := by rw [hsame]
      obtain ⟨es, k', hrun, hjs⟩ := ih (SysStep.inv h hstep) hmem hp'
      rw [haddr] at hrun
      refine ⟨_ :: es, k', .cons ⟨hstep, _, hmem, rfl, _, hp', haddr⟩ hrun, ?_⟩
      change lockedTicks d.iface es = js at hjs
      rw [← hjs]
      rfl

/-- The run `es` goes on from the operation that added the timer pair `p` to the device `d`, and
leaves the pair there. -/
def TimerRun (HZ : Nat) (d : Dev w) (p : Pair w) (es : List (Event w)) : Prop :=
  ∃ k op k₁ k₂, SysReachable HZ k ∧ OpStep HZ k op k₁ ∧ ¬k.HasPair d.addr p.addr ∧ d ∈ k₁.devs ∧
    p ∈ d.pairList ∧ p.asyncRx = true ∧ Run (SysKeeps HZ d.addr p.addr) k₁ es k₂

theorem TimerRun.start {es : List (Event w)} (h : TimerRun HZ d p es) :
    p.asyncRx = true ∧ p.time = 0 ∧ ∃ k₁ k₂, (StoreInv k₁ ∧ ∀ iface, k₁.sems iface = 1) ∧
      d ∈ k₁.devs ∧ p ∈ d.pairList ∧ Run (SysKeeps HZ d.addr p.addr) k₁ es k₂ := by
  obtain ⟨k, op, k₁, k₂, hreach, hadd, hnew, hd, hp, hasync, hrun⟩ := h
  have hstep : SysStep HZ k (.op op) k₁ := hadd
  have hunfired := new_pair_unfired hreach.inv.1 hadd hd hp hnew hasync
  exact ⟨hasync, hunfired, k₁, k₂, hstep.inv hreach.inv, hd, hp, hrun⟩

theorem TimerRun.before {es es' : List (Event w)} (h : TimerRun HZ d p (es ++ es')) :
    TimerRun HZ d p es := by
  obtain ⟨k, op, k₁, k₂, hreach, hadd, hnew, hd, hp, hasync, hrun⟩ := h
  obtain ⟨k₃, hbefore, _⟩ := Run.append_iff.mp hrun
  exact ⟨k, op, k₁, k₃, hreach, hadd, hnew, hd, hp, hasync, hbefore⟩

/-- The firings up to a tick of such a run and at this tick. -/
theorem TimerRun.firings_eq {es₁ es₂ : List (Event w)} {e : Event w}
    (h : TimerRun HZ d p (es₁ ++ e :: es₂)) :
    firings p.addr es₁ = p.callsAt d.iface d.device (lockedTicks d.iface es₁) ∧
    firings p.addr [e] =
      (p.afterTicks (lockedTicks d.iface es₁)).callsAt d.iface d.device (lockedTicks d.iface [e]) := by
  obtain ⟨_, _, k₁, k₂, hinv, hd, hp, hrun⟩ := h.start
  obtain ⟨k₃, hbefore, hrest⟩ := Run.append_iff.mp hrun
  obtain ⟨k₄, hstep, _⟩ := Run.cons_iff.mp hrest
  obtain ⟨_, _, hfirings⟩ := pair_followed hinv hd hp hbefore
  obtain ⟨_, _, hupto⟩ := pair_followed hinv hd hp (Run.snoc_iff.mpr ⟨k₃, hbefore, hstep⟩)
  rw [firings_append, hfirings, lockedTicks_append, Pair.callsAt_append] at hupto
  exact ⟨hfirings, List.append_cancel_left hupto⟩

/-- A timer pair of 8 milliseconds, two jiffies at 250 a second. -/
def sampleTimer : Pair 32 :=
  { addr := 3
    req := []
    resp := [0xcc]
    dev := 1
    index := 0
    filename := bytes "0"
    asyncRx := true
    periodMs := 8
    period := 2
    time := 0 }

theorem sampleTimer_run (js : List (BitVec 32)) :
    ∃ d es, TimerRun 250 d sampleTimer es ∧ lockedTicks d.iface es = js := by
  have hadded : (execAll 250 [.hweAddDevice .i2c .succeeds] (Kernel.loaded 32)).toOption.bind
      (fun k => (exec 250 (.devAddStore 1 (bytes "timer:8ms=cc\n") (.succeeds 32)) k).toOption.map
        fun r => (k.devs.map (·.pairList), r.2.devs.map (·.pairList))) =
      some ([[]], [[sampleTimer]]) := by
    decide +kernel
  cases hdevice : execAll 250 [.hweAddDevice .i2c .succeeds] (Kernel.loaded 32) with
  | error fault => simp [hdevice, Except.toOption] at hadded
  | ok k =>
      cases hpair : exec 250 (.devAddStore 1 (bytes "timer:8ms=cc\n") (.succeeds 32)) k with
      | error fault => simp [hdevice, hpair, Except.toOption] at hadded
      | ok r =>
          obtain ⟨ret, k₁⟩ := r
          simp only [hdevice, hpair, Except.toOption, Option.bind_some, Option.map_some,
            Option.some.injEq, Prod.mk.injEq] at hadded
          obtain ⟨hbefore, hafter⟩ := hadded
          have hreach : SysReachable 250 k := (Reachable.of_execAll hdevice).sys
          obtain ⟨d, hd, hlist⟩ : ∃ d ∈ k₁.devs, d.pairList = [sampleTimer] := by
            apply List.mem_map.mp
            rw [hafter]
            exact List.mem_singleton_self _
          have hp : sampleTimer ∈ d.pairList := by
            rw [hlist]
            exact List.mem_singleton_self _
          have hnew : ¬k.HasPair d.addr sampleTimer.addr := by
            rintro ⟨d₀, hd₀, _, p₀, hp₀, _⟩
            have hmem := List.mem_map_of_mem (f := (·.pairList)) hd₀
            rw [hbefore, List.mem_singleton] at hmem
            rw [hmem] at hp₀
            exact absurd hp₀ List.not_mem_nil
          have hstep : SysStep 250 k (.op (.devAddStore 1 (bytes "timer:8ms=cc\n") (.succeeds 32))) k₁ :=
            ⟨ret, hpair⟩
          obtain ⟨es, k₂, hrun, hjs⟩ := ticks_run (hstep.inv hreach.inv) hd hp 250 js
          exact ⟨d, es, ⟨k, _, k₁, k₂, hreach, ⟨ret, hpair⟩, hnew, hd, hp, rfl, hrun⟩, hjs⟩

end Hwemu
