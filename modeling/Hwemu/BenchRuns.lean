import Hwemu.BenchOps
import Hwemu.BenchTicks

/-!
# Runs on the bench

Operations on devices and pairs, ticks and calls of the drivers in any order. What the callers hear is what
the bench says: the addresses, the tables of the drivers and the response buffers cannot be told from it.
-/

namespace Hwemu

variable {w : Nat} {HZ : Nat} {s s' : Emulator w} {b : Bench w}

/-- A step that goes through. -/
def Emulator.Step (HZ : Nat) (s : Emulator w) (e : EmuEvent w × EmuOutput) (s' : Emulator w) : Prop :=
  s.exec HZ e.1 = .ok (e.2, s')

theorem EmuEvent.SetUp.careful {op : ModuleOp w} (h : (EmuEvent.op op).SetUp) (m : HwemuModule w) :
    ¬op.FailsAfterSetup m := by
  cases op with
  | hweAddDevice iface env =>
      rintro ⟨rfl, _, hfails⟩
      exact h hfails
  | ifaceAddStore iface buf env =>
      rintro ⟨_, rfl, _, hfails⟩
      exact h hfails
  | hweDeleteDevice iface devIndex => exact id
  | ifaceUninstallStore iface buf => exact id
  | onPairs op => exact id

/-- **A call or a tick** ends as the bench says if the bench is served, and follows a null pointer if not. -/
theorem Emulator.Shows.interact (h : s.Shows b) (e : EmuEvent w) (hop : ∀ op, e ≠ .op op) :
    (e.Served b → ∃ t, b.interact e = some t ∧ Emulator.Agrees (s.exec HZ e) t) ∧
      (¬e.Served b → s.exec HZ e = .error .nullDeref) := by
  cases e with
  | op op => exact absurd rfl (hop op)
  | tick jiff free env =>
      constructor
      · intro hserved
        obtain ⟨s', hrun, hshows⟩ := h.tick hserved
        exact ⟨_, rfl, s', Except.bind_of_eq_ok hrun _, hshows⟩
      · intro hserved
        rw [Emulator.exec, h.tick_faults hserved]
        rfl
  | ttyOpen tty index =>
      obtain ⟨s', hrun, hshows⟩ := h.ttyOpen tty index
      exact ⟨fun _ => ⟨_, rfl, s', Except.bind_of_eq_ok hrun _, hshows⟩, fun hserved => absurd trivial hserved⟩
  | ttyClose tty =>
      constructor
      · intro hserved
        obtain ⟨index, htty⟩ := Option.isSome_iff_exists.mp hserved
        refine ⟨(.done, b), congrArg (Option.map fun _ => (EmuOutput.done, b)) htty, s, ?_, h⟩
        exact Except.bind_of_eq_ok (h.ttyClose htty) _
      · intro hserved
        have hfault : s.hwettyClose tty = .error .nullDeref := by
          refine Emulator.withLock_of_eq_error h ?_
          rw [Emulator.ttyDev_closed (h.closed hserved)]
          rfl
        rw [Emulator.exec, hfault]
        rfl
  | ttyWrite tty buffer hcount env =>
      constructor
      · intro hserved
        obtain ⟨index, htty⟩ := Option.isSome_iff_exists.mp hserved
        obtain ⟨s', hrun, hshows⟩ := h.ttyWrite htty hcount env
        rw [Bench.interact, htty, Option.map_some]
        cases hdev : b.devs .tty index with
        | none =>
            rw [hdev] at hrun hshows
            exact ⟨_, rfl, s', Except.bind_of_eq_ok hrun _, hshows⟩
        | some dev =>
            rw [hdev] at hrun hshows
            exact ⟨_, rfl, s', Except.bind_of_eq_ok hrun _, hshows⟩
      · intro hserved
        have hfault : s.hwettyWrite env tty buffer = .error .nullDeref := by
          refine Emulator.withLock_of_eq_error h ?_
          rw [Emulator.ttyDev_closed (h.closed hserved)]
          rfl
        rw [Emulator.exec, hfault]
        rfl
  | ttyWriteRoom tty =>
      constructor
      · intro hserved
        obtain ⟨index, htty⟩ := Option.isSome_iff_exists.mp hserved
        rw [Bench.interact, htty]
        exact ⟨_, rfl, s, Except.bind_of_eq_ok (h.ttyWriteRoom htty) _, h⟩
      · intro hserved
        have hfault : s.hwettyWriteRoom tty = .error .nullDeref := by
          refine Emulator.withLock_of_eq_error h ?_
          rw [Emulator.ttyDev_closed (h.closed hserved)]
          rfl
        rw [Emulator.exec, hfault]
        rfl
  | i2cMasterXfer index msgs =>
      refine ⟨fun _ => ⟨_, rfl, ?_⟩, fun hserved => absurd trivial hserved⟩
      rw [Emulator.exec]
      refine h.onRegistered (show HweIface.i2c ≠ .tty by decide) index _ ?_
      exact fun d dev p hf _ => hf.i2cMasterXfer h msgs
  | i2cSmbusXfer index call =>
      refine ⟨fun _ => ⟨_, rfl, ?_⟩, fun hserved => absurd trivial hserved⟩
      rw [Emulator.exec]
      refine h.onRegistered (show HweIface.i2c ≠ .tty by decide) index _ fun d dev p hf _ => ?_
      obtain ⟨ret, data, chip, s', hdo, hrun, hshows⟩ := hf.i2cSmbusXfer h call
      rw [hdo]
      exact ⟨s', hrun, hshows⟩
  | spiTransfer index t =>
      refine ⟨fun _ => ⟨_, rfl, ?_⟩, fun hserved => absurd trivial hserved⟩
      rw [Emulator.exec]
      refine h.onRegistered (show HweIface.spi ≠ .tty by decide) index _ ?_
      exact fun d dev p hf _ => hf.spiTransferOne h t
  | netXmit index data hlen env =>
      constructor
      · intro hserved
        refine ⟨_, rfl, ?_⟩
        rw [Emulator.exec]
        refine h.onRegistered (show HweIface.net ≠ .tty by decide) index _ fun d dev p hf hindex => ?_
        subst hindex
        exact hf.hwenetXmit h hlen fun l hanswer => hserved dev l hf.place hanswer
      · intro hserved
        simp only [EmuEvent.Served, not_forall] at hserved
        obtain ⟨dev, l, hdev, hanswer, hskb⟩ := hserved
        obtain ⟨d, p, hf, rfl⟩ := h.found hdev
        rw [Emulator.exec, Emulator.onRegistered, hf.registered h (by decide)]
        dsimp only
        rw [hf.hwenetXmit_faults h hlen hanswer (Bool.eq_false_iff.mpr hskb)]
        rfl

/-- **One step** of the emulator is one of the bench. -/
theorem Emulator.Shows.step (h : s.Shows b) {e : EmuEvent w × EmuOutput} (hsetup : e.1.SetUp)
    (hstep : Emulator.Step HZ s e s') : ∃ b', Bench.Step HZ b e b' ∧ s'.Shows b' := by
  obtain ⟨e, out⟩ := e
  have hexec : s.exec HZ e = .ok (out, s') := hstep
  by_cases hop : ∃ op, e = .op op
  · obtain ⟨op, rfl⟩ := hop
    obtain ⟨⟨ret, m'⟩, hrun, hret⟩ := Except.bind_eq_ok_iff.mp hexec
    obtain ⟨rfl, rfl⟩ := Prod.mk.inj (Except.ok.inj hret)
    obtain ⟨c, hdoes, hallowed, hshows⟩ := h.op (EmuEvent.SetUp.careful hsetup s.m) hrun
    exact ⟨c.apply b, ⟨ret, c, rfl, hdoes, hallowed, rfl⟩, hshows⟩
  · have hop' : ∀ op, e ≠ .op op := fun op heq => hop ⟨op, heq⟩
    obtain ⟨hok, hfault⟩ := @Emulator.Shows.interact w HZ s b h e hop'
    have hserved : e.Served b := by
      by_contra hserved
      rw [hfault hserved] at hexec
      exact absurd hexec (by simp)
    obtain ⟨t, ht, s₁, hrun, hshows⟩ := hok hserved
    obtain ⟨rfl, rfl⟩ := Prod.mk.inj (Except.ok.inj (hrun.symm.trans hexec))
    refine ⟨t.2, ?_, hshows⟩
    cases e with
    | op op => exact absurd rfl (hop' op)
    | _ => exact ht

/-- **Every run** of the emulator is one of the bench. -/
theorem Emulator.Shows.run {es : List (EmuEvent w × EmuOutput)} (h : s.Shows b) (hsetup : ∀ e ∈ es, e.1.SetUp)
    (hrun : Run (Emulator.Step HZ) s es s') : ∃ b', Run (Bench.Step HZ) b es b' ∧ s'.Shows b' := by
  induction hrun generalizing b with
  | nil => exact ⟨b, .nil b, h⟩
  | cons hstep _ ih =>
      obtain ⟨hfirst, hlater⟩ := List.forall_mem_cons.mp hsetup
      obtain ⟨b₁, hbench, h₁⟩ := h.step hfirst hstep
      obtain ⟨b', hrest, hshows⟩ := ih h₁ hlater
      exact ⟨b', .cons hbench hrest, hshows⟩

/-! ### From module load on -/

/-- A net device that was taught an answer, a frame, a tty that nobody belongs to, and a tick. -/
def benchEvents : List (EmuEvent 64) :=
  let env : HweIface → Nat → Nat → RxEnv := fun _ _ _ => { flip := 1, skb := true, netifRx := 0 }
  [.op (.hweAddDevice .net .succeeds),
    .op (.onPairs ⟨.hweAddPair .net 0 (bytes "0102=aabb") (.succeeds 64), rfl⟩),
    .netXmit 0 [1, 2] (by decide) env, .ttyOpen 5 ⟨0, by decide⟩, .ttyWriteRoom 5, .netXmit 3 [1, 2] (by decide) env,
    .tick 1000 (fun _ => true) env]

theorem benchEvents_setUp (os : List EmuOutput) : ∀ e ∈ benchEvents.zip os, e.1.SetUp := by
  intro e he
  have hmem := (List.of_mem_zip he).1
  simp only [benchEvents, List.mem_cons, List.not_mem_nil, or_false] at hmem
  rcases hmem with heq | heq | heq | heq | heq | heq | heq
  · rw [heq]
    exact fun hfails => AllocNetdev.noConfusion hfails
  all_goals
    rw [heq]
    exact trivial

theorem benchEvents_run : ∃ (os : List EmuOutput) (s : Emulator 64),
    Machine.execAll (Emulator.exec 250) benchEvents (Emulator.loaded 64 .empty) = .ok (os, s) ∧
      Run (Emulator.Step 250) (Emulator.loaded 64 .empty) (benchEvents.zip os) s := by
  have hsome : (Machine.execAll (Emulator.exec 250) benchEvents (Emulator.loaded 64 .empty)).toOption.isSome := by
    decide +kernel
  obtain ⟨⟨os, s⟩, hexec⟩ := Except.exists_ok_of_isSome hsome
  exact ⟨os, s, hexec, Machine.run_execAll hexec⟩

section

variable {objs : Registry KernelObj} {es : List (EmuEvent w × EmuOutput)}

/-- **The emulator is a bench.** Whatever is done with it after it was loaded, by whatever mix of operations,
ticks and calls, is a run of the bench with the same outputs, as long as the kernel does not fail to allocate a
net device after its setup. -/
theorem emulator_refines_bench (hrun : Run (Emulator.Step HZ) (Emulator.loaded w objs) es s)
    (hsetup : ∀ e ∈ es, e.1.SetUp) : ∃ b, Run (Bench.Step HZ) Bench.empty es b ∧ s.Shows b :=
  (Emulator.Shows.loaded w objs).run hsetup hrun

theorem benchEvents_refines : ∃ (os : List EmuOutput) (s : Emulator 64) (b : Bench 64),
    Run (Bench.Step 250) Bench.empty (benchEvents.zip os) b ∧ s.Shows b := by
  obtain ⟨os, s, _, hrun⟩ := benchEvents_run
  obtain ⟨b, hbench, hshows⟩ := emulator_refines_bench hrun (benchEvents_setUp os)
  exact ⟨os, s, b, hbench, hshows⟩

/-- **What goes through.** In every state reached a call or a tick goes through just when each tty used was
opened and the kernel has memory for each frame; nothing else goes wrong, however private devices and their
memory have come and gone, and what does is a null pointer. -/
theorem calls_go_through (hrun : Run (Emulator.Step HZ) (Emulator.loaded w objs) es s)
    (hsetup : ∀ e ∈ es, e.1.SetUp) : ∃ b, Run (Bench.Step HZ) Bench.empty es b ∧ ∀ e : EmuEvent w, (∀ op, e ≠ .op op) →
      ((∃ out s', Emulator.Step HZ s (e, out) s') ↔ e.Served b) ∧
      (¬e.Served b → s.exec HZ e = .error .nullDeref) := by
  obtain ⟨b, hbench, h⟩ := (Emulator.Shows.loaded w objs).run hsetup hrun
  refine ⟨b, hbench, fun e hop => ?_⟩
  obtain ⟨hok, hfault⟩ := @Emulator.Shows.interact w HZ s b h e hop
  refine ⟨⟨?_, ?_⟩, hfault⟩
  · rintro ⟨out, s', hexec⟩
    by_contra hserved
    exact absurd ((hfault hserved).symm.trans hexec) (by simp)
  · intro hserved
    obtain ⟨t, _, s', hexec, _⟩ := hok hserved
    exact ⟨t.1, s', hexec⟩

theorem benchEvents_go_through : ∃ (os : List EmuOutput) (s : Emulator 64) (b : Bench 64),
    Run (Bench.Step 250) Bench.empty (benchEvents.zip os) b ∧
      ((∃ out s', Emulator.Step 250 s (.ttyClose 5, out) s') ↔ (b.ttys 5).isSome = true) := by
  obtain ⟨os, s, _, hrun⟩ := benchEvents_run
  obtain ⟨b, hbench, hcalls⟩ := calls_go_through hrun (benchEvents_setUp os)
  exact ⟨os, s, b, hbench, (hcalls (.ttyClose 5) (by simp)).1⟩

end

end Hwemu
