import Hwemu.LoadPhases

/-!
# What a tick finds

A tick enters an interface whose semaphore it can take. While the module is loaded and unloaded, and while
operations are at work, it finds lists that are initialized, and devices that are in order, except within
`cleanup_iface`: `shutdown_dev` is called without the semaphore there, and destroys the private device before it
empties the list of pairs.
-/

namespace Hwemu

variable {w : Nat} {HZ : Nat} {k : Kernel w} {s s' : TimedModule w} {jiff : BitVec w} {call : RxCall w} {iface : HweIface}

/-- What a tick must find: the module in memory, initialized lists, and for each call of `async_rx` a private
device that is alive and a pair in the list of its device. -/
structure TimedModule.TickSafe (jiff : BitVec w) (s : TimedModule w) : Prop where
  resident : s.up = true ∨ s.todo ≠ []
  initialized : ∀ iface, s.store.sems iface ≠ 0 → s.listHead iface = true
  calls : ∀ call ∈ (timerFunc jiff s.store).2, ∃ d ∈ (s.store.ifaces call.iface).devList,
    (∃ priv, call.device = some priv ∧ d.device = some priv ∧ s.k.Alive priv) ∧
      ∃ p ∈ d.pairList, p.addr = call.pair.addr

/-- The device that `cleanup_iface` shuts down and whose private device it has destroyed. -/
def TimedModule.tornDown (s : TimedModule w) : Option (Dev w) :=
  match s.todo with
  | .shutdown _ .destroy :: _ => none
  | .shutdown dev _ :: _ => some dev
  | _ => none

/-- That device is still in the list, with a timer pair that is due. -/
def TimedModule.TornDue (jiff : BitVec w) (s : TimedModule w) : Prop :=
  ∃ dev ∈ s.tornDown, ∃ d ∈ (s.k.ifaces dev.iface).devList, d.addr = dev.addr ∧
    ∃ p ∈ d.pairList, (timerPair jiff p).2 = true

/-! ### The calls of a tick -/

theorem mem_timerFunc_calls (hnodup : ∀ iface, k.sems iface ≠ 0 → ((k.ifaces iface).devList.map (·.addr)).Nodup) :
    call ∈ (timerFunc jiff k).2 ↔ k.sems call.iface ≠ 0 ∧ ∃ d ∈ (k.ifaces call.iface).devList, ∃ p ∈ d.pairList,
      (timerPair jiff p).2 = true ∧ call = ⟨call.iface, d.device, (timerPair jiff p).1⟩ := by
  rw [timerFunc_entered jiff hnodup, List.mem_flatMap]
  constructor
  · rintro ⟨iface, _, hcall⟩
    split at hcall
    · rename_i hsem
      obtain ⟨d, hd, hcall⟩ := List.mem_flatMap.mp hcall
      obtain ⟨p, hp, hcall⟩ := List.mem_flatMap.mp hcall
      unfold Pair.call at hcall
      split at hcall
      · rename_i hdue
        obtain rfl := List.mem_singleton.mp hcall
        exact ⟨hsem, d, hd, p, hp, hdue, rfl⟩
      · exact absurd hcall List.not_mem_nil
    · exact absurd hcall List.not_mem_nil
  · rintro ⟨hsem, d, hd, p, hp, hdue, hcall⟩
    refine ⟨call.iface, call.iface.mem_all, ?_⟩
    rw [if_pos hsem]
    refine List.mem_flatMap.mpr ⟨d, hd, List.mem_flatMap.mpr ⟨p, hp, ?_⟩⟩
    rw [Pair.call, if_pos hdue]
    exact List.mem_singleton.mpr hcall

theorem addr_timerPair (jiff : BitVec w) (p : Pair w) : (timerPair jiff p).1.addr = p.addr := by
  obtain ⟨time, htime⟩ := timerPair_same jiff p
  rw [htime]

/-- A tick is safe that finds every device with a due pair alive. -/
theorem TimedModule.TickSafe.of_alive (hresident : s.up = true ∨ s.todo ≠ [])
    (hheads : ∀ iface, s.store.sems iface ≠ 0 → s.listHead iface = true)
    (hnodup : ∀ iface, s.store.sems iface ≠ 0 → ((s.store.ifaces iface).devList.map (·.addr)).Nodup)
    (halive : ∀ iface, s.store.sems iface ≠ 0 → ∀ d ∈ (s.store.ifaces iface).devList,
      ∀ p ∈ d.pairList, (timerPair jiff p).2 = true → ∃ priv, d.device = some priv ∧ s.k.Alive priv) :
    s.TickSafe jiff := by
  refine ⟨hresident, hheads, fun call hcall => ?_⟩
  obtain ⟨hsem, d, hd, p, hp, hdue, heq⟩ := (mem_timerFunc_calls hnodup).mp hcall
  obtain ⟨priv, hpriv, hpalive⟩ := halive call.iface hsem d hd p hp hdue
  refine ⟨d, hd, ⟨priv, ?_, hpriv, hpalive⟩, p, hp, ?_⟩
  · rw [heq]
    exact hpriv
  · rw [heq]
    exact (addr_timerPair jiff p).symm

/-! ### What a tick finds -/

theorem Loading.tickSafe (h : Loading s) (jiff : BitVec w) : s.TickSafe jiff := by
  refine .of_alive (Or.inl h.up) (fun iface hsem => ?_) (TimedModule.nodup_store h.le_one h.order.nodup)
    fun iface hsem d hd p _ _ => ?_
  · obtain ⟨_, hsem, _⟩ := TimedModule.store_of_sem h.le_one hsem
    exact ((h.sems iface).resolve_right fun hzero => hsem hzero.1).2
  · rw [(TimedModule.store_of_sem h.le_one hsem).2.2] at hd
    exact h.order.alive hd fun dev hdev => absurd hdev (Option.not_mem_none dev)

theorem tornDown_between (h : ∀ stmt ∈ s.todo, stmt.isCleanup = true) : s.tornDown = none := by
  unfold TimedModule.tornDown
  cases htodo : s.todo with
  | nil => rfl
  | cons stmt todo =>
      rw [htodo] at h
      have hcleanup := h stmt List.mem_cons_self
      cases stmt with
      | shutdown dev st => exact absurd hcleanup Bool.false_ne_true
      | _ => rfl

/-- Only the first statement of `shutdown_dev` destroys the private device. -/
theorem tornDown_within {dev : Dev w} {done rest : List (ShutdownStmt w)} {tail : List (LoadStmt w)}
    (hstmts : done ++ rest = shutdownStmts dev) (hrest : rest ≠ []) (htodo : s.todo = rest.map (.shutdown dev) ++ tail) :
    s.tornDown = if done.isEmpty then none else some dev := by
  obtain ⟨st, rest, rfl⟩ := List.exists_cons_of_ne_nil hrest
  unfold TimedModule.tornDown
  rw [htodo, List.map_cons, List.cons_append]
  cases done with
  | nil =>
      obtain ⟨rfl, _⟩ := List.cons.inj hstmts
      rfl
  | cons st' done =>
      have hmem : st ∈ dev.pairList.flatMap pairDeleteStmts ++ [.listDel, .putDevIndex, .kobjectPut] := by
        rw [← (List.cons.inj hstmts).2]
        exact List.mem_append_right done List.mem_cons_self
      cases st with
      | destroy => simp [pairDeleteStmts] at hmem
      | _ => rfl

/-- A device in a list is alive, unless it is the one whose private device is destroyed. -/
theorem Stage.alive (h : Stage s) {d : Dev w} (hd : d ∈ (s.k.ifaces iface).devList) :
    (∃ priv, d.device = some priv ∧ s.k.Alive priv) ∨ ∃ dev ∈ s.tornDown, dev.iface = iface ∧ d.addr = dev.addr := by
  cases h with
  | between horder => exact Or.inl (horder.alive hd fun dev hdev => absurd hdev (Option.not_mem_none dev))
  | closing horder => exact Or.inl (horder.alive hd fun dev hdev => absurd hdev (Option.not_mem_none dev))
  | @within dev done rest tail priv horder hstmts hrest htodo =>
      rw [tornDown_within hstmts hrest htodo]
      by_cases hself : dev.iface = iface ∧ d.addr = dev.addr
      · cases done with
        | cons st done => exact Or.inr ⟨dev, rfl, hself⟩
        | nil =>
            -- nothing of it has been given back yet
            obtain ⟨hiface, haddr⟩ := hself
            obtain rfl := List.nil_append rest |>.symm.trans hstmts
            rw [sum_frees_shutdownStmts] at horder
            obtain ⟨priv', hpriv'⟩ := horder.exists_device hd
            have hsame := horder.self dev rfl d (hiface ▸ hd) haddr
            have hmem := Dev.priv_mem_blocks (hsame.symm.trans hpriv')
            exact Or.inl ⟨priv', hpriv', horder.alive_of_owned (Multiset.mem_add.mpr (Or.inr hmem))⟩
      · refine Or.inl (horder.alive hd fun dev' hdev' hiface haddr => hself ?_)
        obtain rfl := Option.mem_some_iff.mp hdev'
        exact ⟨hiface, haddr⟩

theorem Stage.destroyed (h : Stage s) {d dev : Dev w} (hdev : dev ∈ s.tornDown)
    (hd : d ∈ (s.k.ifaces dev.iface).devList) (haddr : d.addr = dev.addr) :
    s.isWorking dev.iface = false ∧ ∃ priv, d.device = some priv ∧ priv ∈ s.k.heap.freed := by
  cases h with
  | between horder hcleanup =>
      rw [tornDown_between hcleanup] at hdev
      exact absurd hdev (Option.not_mem_none dev)
  | closing horder hclosing =>
      rw [TimedModule.tornDown, hclosing] at hdev
      exact absurd hdev (Option.not_mem_none dev)
  | @within dev' done rest tail priv horder hstmts hrest htodo htail howner hpriv hdestroyed hgone hquiet =>
      rw [tornDown_within hstmts hrest htodo] at hdev
      cases done with
      | nil => exact absurd hdev (Option.not_mem_none dev)
      | cons st done =>
          obtain rfl := Option.mem_some_iff.mp hdev
          exact ⟨hquiet, priv, (horder.self dev' rfl d hd haddr).trans hpriv, hdestroyed (List.cons_ne_nil st done)⟩

theorem Leaving.tickSafe_iff (h : Leaving s) (htimer : s.timer = true) (jiff : BitVec w) :
    s.TickSafe jiff ↔ ¬s.TornDue jiff := by
  obtain ⟨torn, rest, horder⟩ := h.inOrder
  have hnodup := TimedModule.nodup_store h.le_one horder.nodup
  constructor
  · rintro hsafe ⟨dev, hdev, d, hd, haddr, p, hp, hdue⟩
    obtain ⟨hidle, priv, hpriv, hfreed⟩ := h.stage.destroyed hdev hd haddr
    have hsem := h.unlocked dev.iface (List.ne_nil_of_mem hd)
    have hfree : s.free dev.iface = true := by
      simp [TimedModule.free, hidle, hsem]
    have hcall : (⟨dev.iface, d.device, (timerPair jiff p).1⟩ : RxCall w) ∈ (timerFunc jiff s.store).2 := by
      refine (mem_timerFunc_calls hnodup).mpr ⟨(TimedModule.sems_store h.le_one dev.iface).mpr hfree, d, ?_, p, hp,
        hdue, rfl⟩
      rw [(TimedModule.store_of_free hfree).2.2]
      exact hd
    obtain ⟨_, _, ⟨priv', hpriv', _, _, halive⟩, _⟩ := hsafe.calls _ hcall
    obtain rfl := Option.some.inj (hpriv'.symm.trans hpriv)
    exact halive hfreed
  · intro htorn
    refine .of_alive (Or.inr (List.ne_nil_of_mem (h.timer htimer))) (fun iface hsem => h.heads iface ?_) hnodup
      fun iface hsem d hd p hp hdue => ?_
    · exact (TimedModule.store_of_sem h.le_one hsem).2.1
    · rw [(TimedModule.store_of_sem h.le_one hsem).2.2] at hd
      refine (h.stage.alive hd).resolve_right ?_
      rintro ⟨dev, hdev, hiface, haddr⟩
      exact htorn ⟨dev, hdev, d, hiface ▸ hd, haddr, p, hp, hdue⟩

/-! ### Runs -/

inductive Phase (s : TimedModule w) : Prop
  | loading (h : Loading s)
  | leaving (h : Leaving s)

theorem Phase.initial : Phase (TimedModule.initial w) := by
  refine .leaving ⟨rfl, fun iface hsem => absurd rfl hsem, fun _ => Nat.zero_le 1, fun iface hne => absurd rfl hne,
    fun htimer => absurd htimer Bool.false_ne_true, fun iface hworking => absurd hworking Bool.false_ne_true,
    fun iface hfiles => absurd hfiles Bool.false_ne_true, fun iface hfiles => absurd hfiles Bool.false_ne_true,
    .between (.of_empty rfl rfl) fun stmt hstmt => absurd hstmt List.not_mem_nil⟩

/-- While the module is loaded, nothing is cleaned up. -/
theorem Loading.cleaning (h : Loading s) : s.cleaning = none ∧ s.tornDown = none := by
  unfold TimedModule.cleaning TimedModule.tornDown
  cases htodo : s.todo with
  | nil => exact ⟨rfl, rfl⟩
  | cons stmt todo =>
      have hinit := hwemuInitStmts_isInit stmt (h.suffix.subset (htodo ▸ List.mem_cons_self))
      cases stmt with
      | cleanupIface iface => exact absurd hinit Bool.false_ne_true
      | shutdown dev st => exact absurd hinit Bool.false_ne_true
      | kobjectPutIface iface => exact absurd hinit Bool.false_ne_true
      | _ => exact ⟨rfl, rfl⟩

theorem Phase.tickSafe_iff (h : Phase s) (htimer : s.timer = true) (jiff : BitVec w) :
    s.TickSafe jiff ↔ ¬s.TornDue jiff := by
  cases h with
  | loading h =>
      refine iff_of_true (h.tickSafe jiff) ?_
      rintro ⟨dev, hdev, _⟩
      rw [h.cleaning.2] at hdev
      exact Option.not_mem_none dev hdev
  | leaving h => exact h.tickSafe_iff htimer jiff

theorem Phase.fails (h : Phase s) {stmt : LoadStmt w} {todo back : List (LoadStmt w)} (htodo : s.todo = stmt :: todo)
    (hback : stmt.rollback = some back) : Phase { s with up := false, todo := back } := by
  cases h with
  | loading h =>
      refine .leaving (h.leave (rollback_isCleanup hback) fun htimer => h.timer htimer stmt ?_ back hback)
      rw [htodo]
      exact List.mem_cons_self
  | leaving h => exact absurd (hback.symm.trans (h.rollback htodo)) (Option.some_ne_none back)

theorem Phase.loading_of_up (h : Phase s) (hup : s.up = true) : Loading s := by
  cases h with
  | loading h => exact h
  | leaving h => exact absurd (h.up.symm.trans hup) Bool.false_ne_true

theorem Phase.setWorking (h : Phase s) (ifc : Option (Iface w))
    (hlock : ifc.isSome = true → s.isWorking iface = true ∨ s.files iface = true ∧ s.cleaning ≠ some iface) :
    Phase (s.setWorking iface ifc) := by
  cases h with
  | loading h => exact .loading (h.setWorking ifc fun hsome => (hlock hsome).elim (h.working iface) And.left)
  | leaving h => exact .leaving (h.setWorking ifc hlock)

theorem Phase.finish {op : Op w} {ret : Int} {done : Kernel w} (h : Phase s) (hworking : s.isWorking iface = true)
    (hrun : Hwemu.exec HZ op (s.k.only iface) = .ok (ret, done)) : Phase { s with k := s.k.put iface done } := by
  cases h with
  | loading h => exact .loading (h.finish hworking hrun)
  | leaving h => exact .leaving (h.finish hworking hrun)

/-- No operation takes the semaphore of an interface that `cleanup_iface` is called for, and none holds it while
`cleanup_iface` is at work. -/
def TimedEvent.Apart (s : TimedModule w) : TimedEvent w → Prop
  | .lock iface => s.cleaning ≠ some iface
  | .stmt => ∀ iface ∈ s.cleaning, s.isWorking iface = false
  | _ => True

/-- **One step.** -/
theorem Phase.step {e : TimedEvent w} (h : Phase s) (hnext : s.next HZ e = some s') (hapart : e.Apart s) : Phase s' := by
  cases e with
  | insmod =>
      obtain ⟨_, hs'⟩ := Option.ite_none_left_eq_some.mp hnext
      obtain rfl := Option.some.inj hs'
      exact .loading (Loading.start s.k.heap.next)
  | rmmod =>
      obtain ⟨hidle, hs'⟩ := Option.ite_none_left_eq_some.mp hnext
      obtain rfl := Option.some.inj hs'
      have hup : s.up = true := by
        simp only [Bool.or_eq_true, Bool.not_eq_true', not_or, Bool.not_eq_false] at hidle
        exact hidle.1
      refine .leaving ((h.loading_of_up hup).leave hwemuExitStmts_isCleanup fun _ => ?_)
      simp [hwemuExitStmts, HweUnit.all, cleanupStmts]
  | stmt =>
      rw [TimedModule.next] at hnext
      cases htodo : s.todo with
      | nil =>
          rw [htodo] at hnext
          exact absurd hnext.symm (Option.some_ne_none s')
      | cons stmt todo =>
          rw [htodo] at hnext
          obtain ⟨_, hs'⟩ := Option.ite_none_left_eq_some.mp hnext
          obtain rfl := Option.some.inj hs'
          cases h with
          | loading h => exact .loading (h.exec htodo)
          | leaving h => exact .leaving (h.exec htodo hapart)
  | fails =>
      rw [TimedModule.next] at hnext
      cases htodo : s.todo with
      | nil =>
          rw [htodo] at hnext
          exact absurd hnext.symm (Option.some_ne_none s')
      | cons stmt todo =>
          rw [htodo] at hnext
          obtain ⟨back, hback, rfl⟩ := Option.map_eq_some_iff.mp hnext
          exact h.fails htodo hback
  | lock iface =>
      obtain ⟨hfree, hs'⟩ := Option.ite_none_left_eq_some.mp hnext
      obtain rfl := Option.some.inj hs'
      have hfiles : s.files iface = true := by
        simp only [Bool.or_eq_true, Bool.not_eq_true', not_or, Bool.not_eq_false] at hfree
        exact hfree.1
      exact h.setWorking _ fun _ => Or.inr ⟨hfiles, hapart⟩
  | work iface ifc =>
      obtain ⟨hworking, hs'⟩ := Option.ite_none_right_eq_some.mp hnext
      obtain rfl := Option.some.inj hs'
      exact h.setWorking _ fun _ => Or.inl hworking
  | finish iface op =>
      obtain ⟨hidle, hs'⟩ := Option.ite_none_left_eq_some.mp hnext
      have hworking : s.isWorking iface = true := by simpa using hidle
      cases hrun : Hwemu.exec HZ op (s.k.only iface) with
      | error fault =>
          rw [hrun] at hs'
          exact absurd hs'.symm (Option.some_ne_none s')
      | ok out =>
          rw [hrun] at hs'
          obtain rfl := Option.some.inj hs'
          exact (h.finish hworking hrun).setWorking none fun hsome => absurd hsome Bool.false_ne_true
  | unlock iface =>
      obtain ⟨_, hs'⟩ := Option.ite_none_right_eq_some.mp hnext
      obtain rfl := Option.some.inj hs'
      exact h.setWorking none fun hsome => absurd hsome Bool.false_ne_true
  | tick jiff =>
      obtain ⟨_, hs'⟩ := Option.ite_none_right_eq_some.mp hnext
      obtain rfl := Option.some.inj hs'
      cases h with
      | loading h => exact .loading (h.tick jiff)
      | leaving h => exact .leaving (h.tick jiff)

/-- A tick is as it should be. -/
def TimedEvent.Safe (s : TimedModule w) : TimedEvent w → Prop
  | .tick jiff => s.TickSafe jiff
  | _ => True

/-- No tick finds a device in the list whose private device `cleanup_iface` has destroyed, with a timer pair
that is due. -/
def TimedEvent.Careful (s : TimedModule w) : TimedEvent w → Prop
  | .tick jiff => ¬s.TornDue jiff
  | _ => True

/-- **What a tick finds.** In every interleaving of ticks, operations, loads and unloads, where the operations stay
away from an interface that is cleaned up, the ticks find initialized lists, live private devices and pairs in the
lists of their devices, just when none of them runs while `cleanup_iface` has destroyed the private device of a
device that still has a timer pair that is due. -/
theorem ticks_safe_iff {es : List (TimedEvent w)}
    (h : Run (fun s e s' => TimedModule.next HZ s e = some s' ∧ e.Apart s) (TimedModule.initial w) es s) :
    (∀ es' e t, es' ++ [e] <+: es →
        Run (fun s e s' => TimedModule.next HZ s e = some s') (TimedModule.initial w) es' t → e.Safe t) ↔
      Run (fun s e s' => TimedModule.next HZ s e = some s' ∧ e.Careful s) (TimedModule.initial w) es s := by
  refine Run.steps_good_iff (fun s e s' hphase hnext hapart => hphase.step hnext hapart)
    (fun s e s' hphase hnext _ => ?_) h Phase.initial
  cases e with
  | tick jiff =>
      refine hphase.tickSafe_iff ?_ jiff
      rw [TimedModule.next, Option.ite_none_right_eq_some] at hnext
      exact hnext.1
  | _ => exact Iff.rfl

/-- The private device of the call is destroyed. -/
def RxCall.gone (k : Kernel w) (call : RxCall w) : Bool := call.device.any fun priv => k.heap.freed.contains priv

/-- A device with a timer pair, and the unload up to the destruction of its private device. -/
def unloadEvents : List (TimedEvent 64) :=
  .insmod :: List.replicate 23 .stmt ++
    [.lock .spi, .finish .spi (.hweAddDevice .spi .succeeds), .lock .spi,
      .finish .spi (.hweAddPair .spi 0 (bytes "timer:8ms=cc") (.succeeds 64)), .rmmod, .stmt, .stmt, .stmt]

/-- The tick that follows calls `async_rx` with a private device that is gone. -/
theorem unload_tick_unsafe : ∃ s : TimedModule 64,
    Run (fun s e s' => TimedModule.next 250 s e = some s') (TimedModule.initial 64) unloadEvents s ∧
      s.timer = true ∧ ¬s.TickSafe 1000 := by
  have heval : (unloadEvents.foldlM (TimedModule.next 250) (TimedModule.initial 64)).any (fun s =>
      s.timer && (timerFunc 1000 s.store).2.any (RxCall.gone s.k)) = true := by
    decide +kernel
  obtain ⟨s, hs, hfound⟩ := (Option.any_eq_true _ _).mp heval
  obtain ⟨htimer, hcalls⟩ := (Bool.and_eq_true _ _).mp hfound
  obtain ⟨call, hcall, hgone⟩ := List.any_eq_true.mp hcalls
  obtain ⟨priv, hpriv, hfreed⟩ := (Option.any_eq_true _ _).mp hgone
  refine ⟨s, Run.of_foldlM hs, htimer, fun hsafe => ?_⟩
  obtain ⟨_, _, ⟨priv', hpriv', _, _, halive⟩, _⟩ := hsafe.calls call hcall
  obtain rfl := Option.some.inj (hpriv'.symm.trans hpriv)
  exact halive (List.contains_iff_mem.mp hfreed)

instance (e : TimedEvent w) (s : TimedModule w) : Decidable (e.Apart s) := by
  cases e <;> unfold TimedEvent.Apart <;> infer_instance

instance (e : TimedEvent w) (s : TimedModule w) : Decidable (e.Careful s) := by
  cases e <;> unfold TimedEvent.Careful TimedModule.TornDue <;> infer_instance

/-- A device with a timer pair is added while the load goes on. The load fails, and an operation is at work while
the other interfaces are cleaned up. Ticks run in between, and before and after the device is shut down. -/
def tickEvents : List (TimedEvent 64) :=
  .insmod :: List.replicate 10 .stmt ++
    [.tick 1, .lock .tty, .stmt, .stmt, .tick 2, .finish .tty (.hweAddDevice .tty .succeeds), .stmt, .lock .tty,
      .finish .tty (.hweAddPair .tty 0 (bytes "timer:8ms=cc") (.succeeds 64)), .tick 3] ++
    List.replicate 9 .stmt ++
    [.tick 1000, .fails, .lock .tty, .stmt, .stmt, .tick 1001, .unlock .tty, .tick 2000] ++
    List.replicate 5 .stmt ++ [.tick 3000] ++ List.replicate 4 .stmt ++ [.tick 4000] ++ List.replicate 7 .stmt

theorem ticks_safe_iff_applies : ∃ s : TimedModule 64,
    Run (fun s e s' => TimedModule.next 250 s e = some s') (TimedModule.initial 64) tickEvents s ∧
      ∀ es' e t, es' ++ [e] <+: tickEvents →
        Run (fun s e s' => TimedModule.next 250 s e = some s') (TimedModule.initial 64) es' t → e.Safe t := by
  have hsome : (tickEvents.foldlM (fun s e => if e.Apart s ∧ e.Careful s then TimedModule.next 250 s e else none)
      (TimedModule.initial 64)).isSome = true := by
    decide +kernel
  obtain ⟨s, hs⟩ := Option.isSome_iff_exists.mp hsome
  have hrun := Run.of_foldlM_guard hs
  exact ⟨s, hrun.mono fun _ _ _ hstep => hstep.1,
    (ticks_safe_iff (hrun.mono fun _ _ _ hstep => ⟨hstep.1, hstep.2.1⟩)).mpr
      (hrun.mono fun _ _ _ hstep => ⟨hstep.1, hstep.2.2⟩)⟩

end Hwemu
