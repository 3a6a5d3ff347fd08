import Hwemu.I2c
import Hwemu.Locking
import Hwemu.Spi

/-!
# Handling requests while pairs come and go

Any number of threads in `hwetty_write`, `hwei2c_master_xfer`, `hwespi_transfer_one` and `hwenet_xmit`,
one statement at a time, while the store changes. All four look a pair up with `find_response` and then
use its response. The first two do so under the semaphore of their interface, the other two without.
-/

namespace Hwemu

variable {w : Nat} {HZ : Nat} {ι : Type} [DecidableEq ι]

/-- A request that is about to be looked up: the data and its size. -/
structure Request where
  data : List UInt8
  size : Int

/-- A call of one of the four functions. The private device of the last three is known by the device
of the store that it points to. -/
inductive HandlerCall where
  | hwettyWrite (port : Nat) (buffer : List UInt8) (count : Int)
  | hwei2cMasterXfer (hwedev : Nat) (msgs : List I2cMsg)
  | hwespiTransferOne (hwedev : Nat) (transfer : SpiTransfer)
  | hwenetXmit (hwedev : Nat) (data : List UInt8) (len : UInt32)

namespace HandlerCall

def iface : HandlerCall → HweIface
  | hwettyWrite _ _ _ => .tty
  | hwei2cMasterXfer _ _ => .i2c
  | hwespiTransferOne _ _ => .spi
  | hwenetXmit _ _ _ => .net

/-- The function takes the semaphore of its interface. -/
def locks : HandlerCall → Bool
  | hwettyWrite _ _ _ => true
  | hwei2cMasterXfer _ _ => true
  | _ => false

/-- The requests that are looked up, in order. -/
def requests : HandlerCall → List Request
  | hwettyWrite _ buffer count => [⟨buffer, count⟩]
  | hwei2cMasterXfer _ msgs => (msgs.filter fun m => !m.read).map fun m => ⟨m.buf, m.len.toNat⟩
  | hwespiTransferOne _ transfer => transfer.txBuf.toList.map fun tx => ⟨tx, toInt transfer.len.toNat⟩
  | hwenetXmit _ data len => [⟨data, toInt len.toNat⟩]

/-- The pair is used: a transfer on the spi bus that also reads only looks it up. -/
def copies : HandlerCall → Bool
  | hwespiTransferOne _ transfer => !transfer.rxBuf
  | _ => true

/-- The device that `dev->hwedev` points to. The entry of a tty port is set and cleared under the
semaphore together with the device of that index. -/
def hwedev (k : Kernel w) : HandlerCall → Option Nat
  | hwettyWrite port _ _ => (findDeviceByIndex .tty port k).map (·.addr)
  | hwei2cMasterXfer hwedev _ => some hwedev
  | hwespiTransferOne hwedev _ => some hwedev
  | hwenetXmit hwedev _ _ => some hwedev

end HandlerCall

/-- The device of an interface at an address. -/
def Kernel.listed (iface : HweIface) (dev : Nat) (k : Kernel w) : Option (Dev w) :=
  (k.ifaces iface).devList.find? fun d => d.addr == dev

/-- Where a handler is, with the requests it has still to look up and the responses it has used. -/
inductive HandlerPc (w : Nat) where
  | idle
  | entered (c : HandlerCall)
  | tested (c : HandlerCall)
  | locked (c : HandlerCall)
  | looking (c : HandlerCall) (hwedev : Nat) (rest : List Request) (sent : List (List UInt8))
  | found (c : HandlerCall) (hwedev : Nat) (pair : Pair w) (rest : List Request)
      (sent : List (List UInt8))
  | finished (c : HandlerCall) (sent : List (List UInt8))

namespace HandlerPc

def holds : HandlerPc w → Option HweIface
  | locked c => if c.locks then some c.iface else none
  | looking c _ _ _ => if c.locks then some c.iface else none
  | found c _ _ _ _ => if c.locks then some c.iface else none
  | finished c _ => if c.locks then some c.iface else none
  | _ => none

def isIdle : HandlerPc w → Bool
  | idle => true
  | _ => false

/-- The next statement of a handler; none when there is none, when it waits for the semaphore, or when
it follows a pointer to memory that was freed. -/
def stmt (k : Kernel w) : HandlerPc w → Option (Kernel w × HandlerPc w)
  | idle => none
  | entered c =>
      match c with
      | .hwei2cMasterXfer hwedev _ =>
          -- `in_use` is set as long as the device is in the list
          if (k.listed .i2c hwedev).isSome then some (k, tested c) else some (k, idle)
      | _ => some (k, tested c)
  | tested c =>
      if c.locks then
        match lockIfaceDevs c.iface k with
        | .error _ => none
        | .ok k => some (k, locked c)
      else some (k, locked c)
  | locked c =>
      match c.hwedev k with
      | none => some (k, finished c [])
      | some hwedev => some (k, looking c hwedev c.requests [])
  | looking c hwedev rest sent =>
      match rest with
      | [] => some (k, finished c sent)
      | r :: rest =>
          match k.listed c.iface hwedev with
          | none => none
          | some d =>
              match findResponse d r.data r.size with
              | none => some (k, looking c hwedev rest sent)
              | some pair =>
                  if c.copies then some (k, found c hwedev pair rest sent)
                  else some (k, looking c hwedev rest sent)
  | found c hwedev pair rest sent =>
      match k.listed c.iface hwedev with
      | none => none
      | some d =>
          match d.pairList.find? fun p => p.addr == pair.addr with
          | none => none
          | some p => some (k, looking c hwedev rest (sent ++ [p.resp]))
  | finished c _ => some (if c.locks then unlockIfaceDevs c.iface k else k, idle)

end HandlerPc

abbrev Handlers (ι : Type) (w : Nat) := Threads ι (Kernel w) (HandlerPc w)

inductive HandlerEvent (ι : Type) (w : Nat) where
  | call (i : ι) (c : HandlerCall)
  | stmt (i : ι)
  | store (op : Op w)
  | tick (jiff : BitVec w) (free : HweIface → Bool)

def Handlers.next (HZ : Nat) (s : Handlers ι w) : HandlerEvent ι w → Option (Handlers ι w)
  | .call i c => if (s.thread i).isIdle then some (s.move i (s.shared, .entered c)) else none
  | .stmt i => ((s.thread i).stmt s.shared).map fun out => s.move i out
  | .store op =>
      match exec HZ op s.shared with
      | .error _ => none
      | .ok (_, k) => some { s with shared := k }
  | .tick jiff free => some { s with shared := (timerTick jiff free s.shared).1 }

/-! ### One statement -/

theorem Kernel.listed_some {k : Kernel w} {iface : HweIface} {dev : Nat} {d : Dev w}
    (h : k.listed iface dev = some d) : d ∈ (k.ifaces iface).devList ∧ d.addr = dev :=
  ⟨List.mem_of_find?_eq_some h, by simpa using List.find?_some h⟩

/-- A handler works on nothing but its semaphore, and comes by a pair only in the list of its device. -/
theorem HandlerPc.stmt_worked {k k' : Kernel w} {pc pc' : HandlerPc w} (h : StoreInv k)
    (hstmt : pc.stmt k = some (k', pc')) :
    Worked pc.holds k pc'.holds k' ∧ k'.ifaces = k.ifaces ∧
      ∀ c hwedev pair rest sent, pc' = found c hwedev pair rest sent →
        k'.Lists c.iface hwedev pair.addr := by
  cases pc with
  | idle => simp [stmt] at hstmt
  | entered c =>
      have hpc' : k' = k ∧ (pc' = tested c ∨ pc' = idle) := by
        simp only [stmt] at hstmt
        split at hstmt
        · split at hstmt
          all_goals
            obtain ⟨rfl, rfl⟩ := Prod.mk.inj (Option.some.inj hstmt)
            simp
        · obtain ⟨rfl, rfl⟩ := Prod.mk.inj (Option.some.inj hstmt)
          simp
      obtain ⟨rfl, rfl | rfl⟩ := hpc'
      all_goals exact ⟨.rest h, rfl, by simp⟩
  | tested c =>
      simp only [stmt] at hstmt
      split at hstmt
      · rename_i hlocks
        split at hstmt
        · simp at hstmt
        · rename_i k₁ hlock
          obtain ⟨rfl, rfl⟩ := Prod.mk.inj (Option.some.inj hstmt)
          refine ⟨?_, ?_, by simp⟩
          · have hholds : (locked c : HandlerPc w).holds = some c.iface := if_pos hlocks
            rw [hholds]
            exact .lock h hlock
          · obtain ⟨_, rfl⟩ := lockIfaceDevs_eq_ok.mp hlock
            rfl
      · rename_i hlocks
        obtain ⟨rfl, rfl⟩ := Prod.mk.inj (Option.some.inj hstmt)
        have hholds : (locked c : HandlerPc w).holds = none := if_neg hlocks
        rw [hholds]
        exact ⟨.rest h, rfl, by simp⟩
  | locked c =>
      simp only [stmt] at hstmt
      split at hstmt
      all_goals
        obtain ⟨rfl, rfl⟩ := Prod.mk.inj (Option.some.inj hstmt)
        exact ⟨.rest h, rfl, by simp⟩
  | looking c hwedev rest sent =>
      simp only [stmt] at hstmt
      split at hstmt
      · obtain ⟨rfl, rfl⟩ := Prod.mk.inj (Option.some.inj hstmt)
        exact ⟨.rest h, rfl, by simp⟩
      · split at hstmt
        · simp at hstmt
        · rename_i d hd
          split at hstmt
          · obtain ⟨rfl, rfl⟩ := Prod.mk.inj (Option.some.inj hstmt)
            exact ⟨.rest h, rfl, by simp⟩
          · rename_i pair hpair
            split at hstmt
            · obtain ⟨rfl, rfl⟩ := Prod.mk.inj (Option.some.inj hstmt)
              refine ⟨.rest h, rfl, ?_⟩
              intro c' hwedev' pair' rest' sent' hfound
              injection hfound with hc hdev hp
              subst hc hdev hp
              obtain ⟨hmem, haddr⟩ := Kernel.listed_some hd
              exact ⟨d, hmem, haddr, pair, List.mem_of_find?_eq_some hpair, rfl⟩
            · obtain ⟨rfl, rfl⟩ := Prod.mk.inj (Option.some.inj hstmt)
              exact ⟨.rest h, rfl, by simp⟩
  | found c hwedev pair rest sent =>
      simp only [stmt] at hstmt
      split at hstmt
      · simp at hstmt
      · split at hstmt
        · simp at hstmt
        · obtain ⟨rfl, rfl⟩ := Prod.mk.inj (Option.some.inj hstmt)
          exact ⟨.rest h, rfl, by simp⟩
  | finished c sent =>
      obtain ⟨rfl, rfl⟩ := Prod.mk.inj (Option.some.inj hstmt)
      by_cases hlocks : c.locks = true
      · have hholds : (finished c sent : HandlerPc w).holds = some c.iface := if_pos hlocks
        rw [if_pos hlocks, hholds]
        exact ⟨.unlock h, rfl, by simp⟩
      · have hholds : (finished c sent : HandlerPc w).holds = none := if_neg hlocks
        rw [if_neg hlocks, hholds]
        exact ⟨.rest h, rfl, by simp⟩

/-! ### The pair stays where it was found -/

/-- Every pair that a handler has found and not yet used is in the list of its device, and the device in
that of its interface. -/
def Handlers.Kept (s : Handlers ι w) : Prop :=
  ∀ i c hwedev pair rest sent, s.thread i = .found c hwedev pair rest sent →
    s.shared.Lists c.iface hwedev pair.addr

/-- No operation removes a pair that a handler without the semaphore has found and not yet used. -/
def Handlers.Careful (s : Handlers ι w) : HandlerEvent ι w → Prop
  | .store op => ∀ i c hwedev pair rest sent, s.thread i = .found c hwedev pair rest sent →
      c.locks = false → ¬(op.removal s.shared).Drops hwedev pair.addr
  | _ => True

structure HandlersInv (s : Handlers ι w) : Prop where
  guarded : Guarded (fun i => (s.thread i).holds) s.shared
  kept : ∀ i c hwedev pair rest sent, s.thread i = .found c hwedev pair rest sent → c.locks = true →
    s.shared.Lists c.iface hwedev pair.addr

theorem HandlerPc.of_isIdle {pc : HandlerPc w} (h : pc.isIdle = true) : pc = idle := by
  cases pc with
  | idle => rfl
  | _ => simp [isIdle] at h

theorem HandlersInv.call {s : Handlers ι w} (h : HandlersInv s) {i : ι} (hidle : s.thread i = .idle)
    (c : HandlerCall) : HandlersInv (s.move i (s.shared, .entered c)) := by
  refine ⟨h.guarded.move ?_, ?_⟩
  · rw [hidle]
    exact .rest h.guarded.store
  · intro j c' hwedev pair rest sent hfound
    by_cases hj : j = i
    · subst hj
      rw [Threads.thread_move_self] at hfound
      simp at hfound
    · rw [Threads.thread_move_of_ne hj] at hfound
      exact h.kept j c' hwedev pair rest sent hfound

theorem HandlersInv.stmt {s : Handlers ι w} (h : HandlersInv s) {i : ι} {out : Kernel w × HandlerPc w}
    (hstmt : (s.thread i).stmt s.shared = some out) : HandlersInv (s.move i out) := by
  obtain ⟨hwork, hifaces, hnew⟩ := HandlerPc.stmt_worked h.guarded.store hstmt
  refine ⟨h.guarded.move hwork, ?_⟩
  intro j c hwedev pair rest sent hfound hlocks
  by_cases hj : j = i
  · subst hj
    rw [Threads.thread_move_self] at hfound
    exact hnew c hwedev pair rest sent hfound
  · rw [Threads.thread_move_of_ne hj] at hfound
    exact (h.kept j c hwedev pair rest sent hfound hlocks).congr (congrFun hifaces c.iface)

omit [DecidableEq ι] in
theorem HandlersInv.orderly {s : Handlers ι w} (h : HandlersInv s) {k : Kernel w}
    (ho : Orderly s.shared k) : HandlersInv { s with shared := k } := by
  refine ⟨h.guarded.orderly ho, ?_⟩
  intro i c hwedev pair rest sent hfound hlocks
  refine (h.kept i c hwedev pair rest sent hfound hlocks).congr (h.guarded.frame_orderly (j := i) ho ?_)
  have hholds : (s.thread i).holds = some c.iface := by
    rw [hfound]
    exact if_pos hlocks
  exact hholds

theorem HandlersInv.step {s s' : Handlers ι w} {e : HandlerEvent ι w} (h : HandlersInv s)
    (hstep : Handlers.next HZ s e = some s') : HandlersInv s' := by
  cases e with
  | call i c =>
      simp only [Handlers.next] at hstep
      split at hstep
      · rename_i hidle
        obtain rfl := Option.some.inj hstep
        exact h.call (HandlerPc.of_isIdle hidle) c
      · simp at hstep
  | stmt i =>
      obtain ⟨out, hstmt, rfl⟩ := Option.map_eq_some_iff.mp hstep
      exact h.stmt hstmt
  | store op =>
      simp only [Handlers.next] at hstep
      split at hstep
      · simp at hstep
      · rename_i hexec
        obtain rfl := Option.some.inj hstep
        exact h.orderly (exec_orderly h.guarded.store hexec)
  | tick jiff free =>
      obtain rfl := Option.some.inj hstep
      exact h.orderly (timerTick_orderly h.guarded.store jiff free)

theorem HandlersInv.kept_iff {s s' : Handlers ι w} {e : HandlerEvent ι w} (h : HandlersInv s)
    (hkept : s.Kept) (hstep : Handlers.next HZ s e = some s') : s'.Kept ↔ s.Careful e := by
  cases e with
  | call i c =>
      simp only [Handlers.next] at hstep
      split at hstep
      · obtain rfl := Option.some.inj hstep
        refine iff_of_true ?_ trivial
        intro j c' hwedev pair rest sent hfound
        by_cases hj : j = i
        · subst hj
          rw [Threads.thread_move_self] at hfound
          simp at hfound
        · rw [Threads.thread_move_of_ne hj] at hfound
          exact hkept j c' hwedev pair rest sent hfound
      · simp at hstep
  | stmt i =>
      obtain ⟨out, hstmt, rfl⟩ := Option.map_eq_some_iff.mp hstep
      obtain ⟨_, hifaces, hnew⟩ := HandlerPc.stmt_worked h.guarded.store hstmt
      refine iff_of_true ?_ trivial
      intro j c hwedev pair rest sent hfound
      by_cases hj : j = i
      · subst hj
        rw [Threads.thread_move_self] at hfound
        exact hnew c hwedev pair rest sent hfound
      · rw [Threads.thread_move_of_ne hj] at hfound
        exact (hkept j c hwedev pair rest sent hfound).congr (congrFun hifaces c.iface)
  | store op =>
      have hinv := h.step hstep
      simp only [Handlers.next] at hstep
      split at hstep
      · simp at hstep
      · rename_i hexec
        obtain rfl := Option.some.inj hstep
        have hremoved := exec_removed h.guarded.store hexec
        constructor
        · intro hkept' i c hwedev pair rest sent hfound _
          refine (hremoved.lists_iff h.guarded.store (hkept i c hwedev pair rest sent hfound)).mp ?_
          exact hkept' i c hwedev pair rest sent hfound
        · intro hcareful i c hwedev pair rest sent hfound
          by_cases hlocks : c.locks = true
          · exact hinv.kept i c hwedev pair rest sent hfound hlocks
          · refine (hremoved.lists_iff h.guarded.store (hkept i c hwedev pair rest sent hfound)).mpr ?_
            exact hcareful i c hwedev pair rest sent hfound (by simpa using hlocks)
  | tick jiff free =>
      obtain rfl := Option.some.inj hstep
      refine iff_of_true ?_ trivial
      intro i c hwedev pair rest sent hfound
      exact (hkept i c hwedev pair rest sent hfound).tick h.guarded.store jiff free

/-- **No response is taken from a pair that was removed.** A pair that was found under the semaphore
stays in the list of its device until it has been used. All pairs do in just the runs in which no
operation removes a pair that a handler without the semaphore has found and not yet used. -/
theorem found_pairs_stay {s₀ s : Handlers ι w} {es : List (HandlerEvent ι w)}
    (hreach : SysReachable HZ s₀.shared) (hidle : ∀ i, s₀.thread i = .idle)
    (hrun : Run (fun s e s' => Handlers.next HZ s e = some s') s₀ es s) :
    (∀ i c hwedev pair rest sent, s.thread i = .found c hwedev pair rest sent → c.locks = true →
      s.shared.Lists c.iface hwedev pair.addr) ∧
    ((∀ es' t, es' <+: es → Run (fun s e s' => Handlers.next HZ s e = some s') s₀ es' t → t.Kept) ↔
      Run (fun s e s' => Handlers.next HZ s e = some s' ∧ s.Careful e) s₀ es s) := by
  have hinit : HandlersInv s₀ := by
    refine ⟨.init hreach fun i => ?_, ?_⟩
    · rw [hidle i]
      rfl
    · intro i c hwedev pair rest sent hfound
      rw [hidle i] at hfound
      simp at hfound
  constructor
  · exact (hrun.invariant (I := HandlersInv) (fun _ _ _ h hstep => h.step hstep) hinit).kept
  · refine hrun.all_good_iff (I := HandlersInv) (fun _ _ _ h => h.step)
      (fun _ _ _ h hkept hstep => h.kept_iff hkept hstep) hinit ?_
    intro i c hwedev pair rest sent hfound
    rw [hidle i] at hfound
    simp at hfound

/-- A tty device and an spi device with a pair each, and no thread in one of the functions. -/
def idleHandlers : Option (Handlers Nat 64) :=
  match execAll 250 [.hweAddDevice .tty .succeeds, .hweAddPair .tty 0 (bytes "01=02") (.succeeds 64),
      .hweAddDevice .spi .succeeds, .hweAddPair .spi 0 (bytes "03=04") (.succeeds 64)]
      (Kernel.loaded 64) with
  | .error _ => none
  | .ok k => some { shared := k, thread := fun _ => .idle }

theorem idleHandlers_start {s : Handlers Nat 64} (h : idleHandlers = some s) :
    SysReachable 250 s.shared ∧ ∀ i, s.thread i = .idle := by
  unfold idleHandlers at h
  split at h
  · simp at h
  · rename_i hrun
    obtain rfl := Option.some.inj h
    exact ⟨(Reachable.of_execAll hrun).sys, fun _ => rfl⟩

/-- What a handler has found: the interface, whether its semaphore is held, and the device. -/
def HandlerPc.place : HandlerPc w → Option (HweIface × Bool × Nat)
  | found c hwedev _ _ _ => some (c.iface, c.locks, hwedev)
  | _ => none

theorem HandlerPc.place_found {pc : HandlerPc w} {iface : HweIface} {locks : Bool} {hwedev : Nat}
    (h : pc.place = some (iface, locks, hwedev)) :
    ∃ c pair rest sent, pc = found c hwedev pair rest sent ∧ c.iface = iface ∧ c.locks = locks := by
  cases pc with
  | found c dev pair rest sent =>
      simp only [place, Option.some.injEq, Prod.mk.injEq] at h
      obtain ⟨rfl, rfl, rfl⟩ := h
      exact ⟨c, pair, rest, sent, rfl, rfl, rfl⟩
  | _ => simp [place] at h

/-- A write to the tty has found its pair when the spi pair is deleted. -/
theorem found_pairs_stay_applies : ∃ (s₀ s : Handlers Nat 64) (es : List (HandlerEvent Nat 64))
    (c : HandlerCall) (hwedev : Nat) (pair : Pair 64) (rest : List Request) (sent : List (List UInt8)),
    s.thread 0 = .found c hwedev pair rest sent ∧ s.shared.Lists c.iface hwedev pair.addr ∧
    ((∀ es' t, es' <+: es → Run (fun s e s' => Handlers.next 250 s e = some s') s₀ es' t → t.Kept) ↔
      Run (fun s e s' => Handlers.next 250 s e = some s' ∧ s.Careful e) s₀ es s) := by
  let es : List (HandlerEvent Nat 64) := [.call 0 (.hwettyWrite 0 [1] 1), .stmt 0, .stmt 0, .stmt 0,
    .stmt 0, .store (.hweDeletePair .spi 0 0)]
  have hplace : (idleHandlers.bind fun s => es.foldlM (Handlers.next 250) s).map (fun s =>
      (s.thread 0).place) = some (some (.tty, true, 1)) := by
    decide +kernel
  obtain ⟨s, hrun, hs⟩ := Option.map_eq_some_iff.mp hplace
  obtain ⟨s₀, hstart, hrun⟩ := Option.bind_eq_some_iff.mp hrun
  obtain ⟨hreach, hidle⟩ := idleHandlers_start hstart
  obtain ⟨c, pair, rest, sent, hfound, _, hlocks⟩ := HandlerPc.place_found hs
  obtain ⟨hkept, hiff⟩ := found_pairs_stay hreach hidle (.of_foldlM hrun)
  exact ⟨s₀, s, es, c, 1, pair, rest, sent, hfound, hkept 0 c 1 pair rest sent hfound hlocks, hiff⟩

/-- A transfer on the spi bus has found its pair when the pair is deleted: the statement that copies
the response would read freed memory. -/
theorem found_pair_is_deleted : ∃ (s₀ s : Handlers Nat 64) (es : List (HandlerEvent Nat 64)),
    SysReachable 250 s₀.shared ∧ (∀ i, s₀.thread i = .idle) ∧
    Run (fun s e s' => Handlers.next 250 s e = some s') s₀ es s ∧ ¬s.Kept ∧
    (s.thread 0).stmt s.shared = none := by
  let transfer : SpiTransfer := { txBuf := some [3], rxBuf := false, len := 1, len_le := by simp }
  let es : List (HandlerEvent Nat 64) := [.call 0 (.hwespiTransferOne 4 transfer), .stmt 0, .stmt 0,
    .stmt 0, .stmt 0, .store (.hweDeletePair .spi 0 0)]
  have hplace : (idleHandlers.bind fun s => es.foldlM (Handlers.next 250) s).map (fun s =>
      ((s.thread 0).place, (s.shared.ifaces .spi).devList.all fun d => d.pairList.isEmpty,
        ((s.thread 0).stmt s.shared).isNone)) = some (some (.spi, false, 4), true, true) := by
    decide +kernel
  obtain ⟨s, hrun, hs⟩ := Option.map_eq_some_iff.mp hplace
  obtain ⟨s₀, hstart, hrun⟩ := Option.bind_eq_some_iff.mp hrun
  obtain ⟨hreach, hidle⟩ := idleHandlers_start hstart
  simp only [Prod.mk.injEq, List.all_eq_true, List.isEmpty_iff, Option.isNone_iff_eq_none] at hs
  obtain ⟨hplaced, hempty, hstuck⟩ := hs
  obtain ⟨c, pair, rest, sent, hfound, hiface, _⟩ := HandlerPc.place_found hplaced
  refine ⟨s₀, s, es, hreach, hidle, .of_foldlM hrun, ?_, hstuck⟩
  intro hkept
  obtain ⟨d, hd, _, p, hp, _⟩ := hkept 0 c 4 pair rest sent hfound
  rw [hiface] at hd
  rw [hempty d hd] at hp
  exact absurd hp List.not_mem_nil

end Hwemu
