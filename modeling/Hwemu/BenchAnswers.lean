import Hwemu.BenchRuns

/-!
# What a device answers

What a device answers to a request is decided by its lines alone. Ticks and calls, to it or to others, leave
its answers as they are; only a change to its lines makes them other ones.
-/

namespace Hwemu

variable {w : Nat} {s s' : Emulator w} {b : Bench w} {dev : BenchDev w} {iface : HweIface} {index : Nat}
  {answers : List UInt8 → Option (List UInt8)}

/-- The device in a place answers requests as said. -/
def Bench.Answers (iface : HweIface) (index : Nat) (answers : List UInt8 → Option (List UInt8)) (b : Bench w) : Prop :=
  ∃ dev, b.devs iface index = some dev ∧ ∀ request, (dev.answer request).map (·.resp) = answers request

/-- A call of a driver or a tick that leaves the buses to others, and that no bench fails to serve. -/
structure EmuEvent.OffBus (e : EmuEvent w) : Prop where
  op : ∀ op, e ≠ .op op
  spi : ∀ index t, e ≠ .spiTransfer index t
  served : ∀ b : Bench w, e.Served b

/-! ### Lines -/

namespace BenchDev

theorem lines_offer (resp : List UInt8) (dev : BenchDev w) : (dev.offer resp).lines = dev.lines := by
  unfold offer
  split
  · rfl
  · rfl

theorem lines_said (l : Line w) (dev : BenchDev w) : (dev.said iface l).lines = dev.lines := by
  cases iface with
  | tty => rfl
  | net => rfl
  | i2c => exact lines_offer l.resp { dev with chip := dev.chip.put l.resp }
  | spi => exact lines_offer l.resp dev

theorem lines_tick (jiff : BitVec w) (dev : BenchDev w) :
    (dev.tick iface jiff).lines = dev.lines.map (Line.ticked jiff) := by
  have hloop : ∀ (ls : List (Line w)) (dev : BenchDev w), (ls.foldl (said iface) dev).lines = dev.lines := by
    intro ls
    induction ls with
    | nil => exact fun _ => rfl
    | cons l ls ih => exact fun dev => (ih _).trans (lines_said l dev)
  exact hloop _ _

theorem lines_xfer (msgs : List I2cMsg) (err : Int) (dev : BenchDev w) : (xfer msgs err dev).2.lines = dev.lines := by
  induction msgs generalizing err dev with
  | nil => rfl
  | cons m msgs ih => exact ih _ (dev.act (dev.message m).2)

theorem lines_transfer (t : SpiTransfer) (dev : BenchDev w) : (dev.transfer t).2.lines = dev.lines := by
  unfold transfer
  split
  · dsimp only
    split
    · rfl
    · rfl
  · rfl
  · rfl
  · rfl

theorem lines_xmit (env : Nat → RxEnv) (frame : List UInt8) (dev : BenchDev w) :
    (dev.xmit env frame).2.lines = dev.lines := by
  unfold xmit
  dsimp only
  split
  · rfl
  · rfl

theorem answer_congr {dev' : BenchDev w} (h : dev'.lines = dev.lines) (request : List UInt8) :
    dev'.answer request = dev.answer request := by
  rw [answer, answer, h]

/-- The clock notes when a line was said, and nothing that an answer depends on. -/
theorem answer_tick (jiff : BitVec w) (dev : BenchDev w) (request : List UInt8) :
    ((dev.tick iface jiff).answer request).map (·.resp) = (dev.answer request).map (·.resp) := by
  have hticked : ∀ l : Line w, (l.ticked jiff).asyncRx = l.asyncRx ∧ (l.ticked jiff).req = l.req ∧
      (l.ticked jiff).resp = l.resp := by
    intro l
    unfold Line.ticked
    split
    · exact ⟨rfl, rfl, rfl⟩
    · exact ⟨rfl, rfl, rfl⟩
  have hfind : ((fun l : Line w => !l.asyncRx && l.req == request) ∘ Line.ticked jiff) =
      fun l => !l.asyncRx && l.req == request := by
    funext l
    obtain ⟨hkind, hreq, _⟩ := hticked l
    rw [Function.comp_apply, hkind, hreq]
  rw [answer, answer, lines_tick, List.find?_map, hfind, Option.map_map]
  congr 1
  funext l
  exact (hticked l).2.2

end BenchDev

/-! ### Answers -/

namespace Bench.Answers

theorem setDev {i : HweIface} {n : Nat} {d : Option (BenchDev w)} (h : b.Answers iface index answers)
    (hd : iface = i → index = n → ∃ dev, d = some dev ∧ ∀ request, (dev.answer request).map (·.resp) = answers request) :
    (b.setDev i n d).Answers iface index answers := by
  by_cases hplace : iface = i ∧ index = n
  · obtain ⟨rfl, rfl⟩ := hplace
    obtain ⟨dev, rfl, hanswers⟩ := hd rfl rfl
    exact ⟨dev, Bench.devs_setDev_self .., hanswers⟩
  · obtain ⟨dev, hdev, hanswers⟩ := h
    refine ⟨dev, ?_, hanswers⟩
    rw [Bench.devs_setDev_of_ne fun hi hn => hplace ⟨hi, hn⟩]
    exact hdev

theorem call {α : Type} {i : HweIface} {n : Nat} {out : α → EmuOutput} {f : BenchDev w → α × BenchDev w}
    (h : b.Answers iface index answers) (hf : ∀ dev, (f dev).2.lines = dev.lines) :
    (b.call i n out f).2.Answers iface index answers := by
  unfold Bench.call
  split
  · exact h
  · rename_i dev hdev
    refine h.setDev ?_
    rintro rfl rfl
    obtain ⟨dev', hdev', hanswers⟩ := h
    obtain rfl := Option.some.inj (hdev.symm.trans hdev')
    refine ⟨(f dev).2, rfl, fun request => ?_⟩
    rw [BenchDev.answer_congr (hf dev)]
    exact hanswers request

theorem tick (h : b.Answers iface index answers) (jiff : BitVec w) (free : HweIface → Bool)
    (env : HweIface → Nat → Nat → RxEnv) : (b.tick jiff free env).Answers iface index answers := by
  obtain ⟨dev, hdev, hanswers⟩ := h
  by_cases hfree : free iface = true
  · refine ⟨dev.tick iface jiff, ?_, fun request => (BenchDev.answer_tick jiff dev request).trans (hanswers request)⟩
    change (if free iface = true then _ else _) = _
    rw [if_pos hfree, hdev]
    rfl
  · refine ⟨dev, ?_, hanswers⟩
    change (if free iface = true then _ else _) = _
    rw [if_neg hfree, hdev]

/-- **Calls and ticks** leave all answers as they are. -/
theorem interact (h : b.Answers iface index answers) {e : EmuEvent w} {t : EmuOutput × Bench w}
    (ht : b.interact e = some t) : t.2.Answers iface index answers := by
  cases e with
  | op op => exact absurd ht (by simp [Bench.interact])
  | tick jiff free env =>
      obtain rfl := Option.some.inj ht
      exact h.tick jiff free env
  | ttyOpen tty n =>
      obtain rfl := Option.some.inj ht
      exact h
  | ttyClose tty =>
      obtain ⟨n, _, rfl⟩ := Option.map_eq_some_iff.mp ht
      exact h
  | ttyWrite tty buffer hcount env =>
      obtain ⟨n, _, rfl⟩ := Option.map_eq_some_iff.mp ht
      split
      · exact h
      · dsimp only
        split
        · exact h
        · exact h
  | ttyWriteRoom tty =>
      obtain ⟨n, _, rfl⟩ := Option.map_eq_some_iff.mp ht
      exact h
  | i2cMasterXfer n msgs =>
      obtain rfl := Option.some.inj ht
      exact h.call fun dev => BenchDev.lines_xfer msgs _ dev
  | i2cSmbusXfer n call =>
      obtain rfl := Option.some.inj ht
      refine h.call fun dev => ?_
      split
      · rfl
      · rfl
  | spiTransfer n t =>
      obtain rfl := Option.some.inj ht
      exact h.call fun dev => BenchDev.lines_transfer t dev
  | netXmit n frame hlen env =>
      obtain rfl := Option.some.inj ht
      exact h.call fun dev => BenchDev.lines_xmit _ frame dev

end Bench.Answers

/-! ### Others at the emulator -/

/-- **What others do** goes through, and keeps what each of their calls keeps. -/
theorem Emulator.Shows.execAll {HZ : Nat} {es : List (EmuEvent w)} {P : Bench w → Prop} (h : s.Shows b) (hb : P b)
    (hes : ∀ e ∈ es, e.OffBus) (hP : ∀ e ∈ es, ∀ b t, P b → b.interact e = some t → P t.2) :
    ∃ os s' b', Machine.execAll (Emulator.exec HZ) es s = .ok (os, s') ∧ s'.Shows b' ∧ P b' := by
  induction es generalizing s b with
  | nil => exact ⟨[], s, b, rfl, h, hb⟩
  | cons e es ih =>
      have hoff := hes e List.mem_cons_self
      obtain ⟨hok, _⟩ := @Emulator.Shows.interact w HZ s b h e hoff.op
      obtain ⟨t, ht, s₁, hrun, h₁⟩ := hok (hoff.served b)
      obtain ⟨os, s', b', hrest, h', hb'⟩ := ih h₁ (hP e List.mem_cons_self b t hb ht)
        (fun e' he' => hes e' (List.mem_cons_of_mem e he')) fun e' he' => hP e' (List.mem_cons_of_mem e he')
      refine ⟨t.1 :: os, s', b', ?_, h', hb'⟩
      rw [Machine.execAll, hrun, Except.ok_bind]
      exact Except.bind_of_eq_ok hrest _

end Hwemu
