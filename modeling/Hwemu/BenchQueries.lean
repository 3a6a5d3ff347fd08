import Hwemu.BenchRuns
import Hwemu.PairMap

/-!
# Requests and their answers

A request to a bus or an adapter is answered in the reads that follow. What comes in between, ticks and
calls to other devices and changes to pairs and devices, does not get in the way: the response is read whole
and in order, in pieces of any size.
-/

namespace Hwemu

variable {w : Nat} {HZ : Nat} {s s' : Emulator w} {b b' : Bench w} {d : Dev w} {dev : BenchDev w}
  {iface : HweIface} {index : Nat}

/-- The event is not about what the device in a place has for its readers: the device is not removed, and
nobody transfers anything to it or from it. -/
def EmuEvent.Leaves (iface : HweIface) (index : Nat) : EmuEvent w → Prop
  | .op (.hweDeleteDevice i devIndex) => i = iface → devIndex ≠ index
  | .op (.ifaceUninstallStore i buf) => i = iface → firstWord buf ≠ devName iface index
  | .i2cMasterXfer n _ => iface = .i2c → n ≠ index
  | .spiTransfer n _ => iface = .spi → n ≠ index
  | _ => True

/-- The device in a place gets a request. -/
def EmuEvent.Asks (iface : HweIface) (index : Nat) (request : List UInt8) : EmuEvent w → Prop
  | .i2cMasterXfer n msgs => iface = .i2c ∧ n = index ∧
      ∃ m, msgs = [m] ∧ m.read = false ∧ m.buf.take m.len.toNat = request
  | .spiTransfer n t => iface = .spi ∧ n = index ∧
      t.rxBuf = false ∧ ∃ tx, t.txBuf = some tx ∧ tx.take t.len.toNat = request
  | _ => False

/-- How many bytes are to be read from the device in a place. -/
def EmuEvent.reads (iface : HweIface) (index : Nat) : EmuEvent w → Option Nat
  | .i2cMasterXfer n [m] => if iface = .i2c ∧ n = index ∧ m.read = true then some m.len.toNat else none
  | .spiTransfer n t =>
      if iface = .spi ∧ n = index ∧ t.rxBuf = true ∧ t.txBuf = none then some t.len.toNat else none
  | _ => none

/-- What a reader gets of what is left of a response. -/
def EmuEvent.hears (rest : List UInt8) : EmuEvent w → EmuOutput
  | .i2cMasterXfer _ msgs => .i2c msgs.length (msgs.map fun m => m.put (rest.take m.len.toNat))
  | .spiTransfer _ t => .spi (some (zeroFilled t.len.toNat rest))
  | _ => .done

/-- How many bytes have been asked for. -/
def readLength (iface : HweIface) (index : Nat) (es : List (EmuEvent w × EmuOutput)) : Nat :=
  (es.map fun e => (e.1.reads iface index).getD 0).sum

/-- The device in a place holds a response. -/
def Bench.Holds (iface : HweIface) (index : Nat) (held : Chunked.Held Source UInt8) (b : Bench w) : Prop :=
  ∃ dev, b.devs iface index = some dev ∧ dev.held = held

/-- A response to a request, of which there is something left to be read. -/
def Awaited (held : Chunked.Held Source UInt8) : Prop := held.source = some .request ∧ held.unread ≠ []

/-! ### What is left alone -/

namespace BenchDev

theorem offer_of_awaited (h : Awaited dev.held) (resp : List UInt8) : dev.offer resp = dev := by
  refine if_neg ?_
  rintro (hunread | ⟨hsource, _⟩)
  · exact h.2 hunread
  · exact hsource h.1

theorem held_said (h : Awaited dev.held) (l : Line w) : (dev.said iface l).held = dev.held := by
  cases iface with
  | tty => rfl
  | net => rfl
  | spi => exact congrArg BenchDev.held (offer_of_awaited h l.resp)
  | i2c =>
      let dev' : BenchDev w := { dev with chip := dev.chip.put l.resp }
      have hput : Awaited dev'.held := h
      have hoffer : (dev'.offer l.resp).held = dev'.held := by rw [offer_of_awaited hput]
      exact hoffer

/-- **The clock** has to wait. -/
theorem held_tick (h : Awaited dev.held) (jiff : BitVec w) : (dev.tick iface jiff).held = dev.held := by
  have hlines : ∀ (ls : List (Line w)) (dev : BenchDev w), Awaited dev.held →
      (ls.foldl (said iface) dev).held = dev.held := by
    intro ls
    induction ls with
    | nil => exact fun _ _ => rfl
    | cons l ls ih =>
        intro dev hdev
        have hsaid : (dev.said iface l).held = dev.held := held_said hdev l
        exact (ih _ (hsaid ▸ hdev)).trans hsaid
  exact hlines _ { dev with lines := dev.lines.map (Line.ticked jiff) } h

end BenchDev

namespace Bench.Holds

variable {held : Chunked.Held Source UInt8}

/-- Another place, or the same device with the same response. -/
theorem setDev {i : HweIface} {n : Nat} {d : Option (BenchDev w)} (h : b.Holds iface index held)
    (hd : iface = i → index = n → ∃ dev, d = some dev ∧ dev.held = held) : (b.setDev i n d).Holds iface index held := by
  by_cases hplace : iface = i ∧ index = n
  · obtain ⟨rfl, rfl⟩ := hplace
    obtain ⟨dev, rfl, hheld⟩ := hd rfl rfl
    exact ⟨dev, Bench.devs_setDev_self .., hheld⟩
  · obtain ⟨dev, hdev, hheld⟩ := h
    refine ⟨dev, ?_, hheld⟩
    rw [Bench.devs_setDev_of_ne fun hi hn => hplace ⟨hi, hn⟩]
    exact hdev

theorem modifyDev {i : HweIface} {n : Nat} {f : BenchDev w → BenchDev w} (h : b.Holds iface index held)
    (hf : ∀ dev, (f dev).held = dev.held) : (b.modifyDev i n f).Holds iface index held := by
  refine h.setDev ?_
  rintro rfl rfl
  obtain ⟨dev, hdev, hheld⟩ := h
  exact ⟨f dev, by rw [hdev]; rfl, (hf dev).trans hheld⟩

theorem apply (h : b.Holds iface index held) {c : BenchChange w} (hallowed : c.Allowed b)
    (hc : c ≠ .detach iface index) : (c.apply b).Holds iface index held := by
  cases c with
  | keep => exact h
  | attach i n dir =>
      refine h.setDev ?_
      rintro rfl rfl
      obtain ⟨dev, hdev, _⟩ := h
      rw [hallowed.2.1] at hdev
      exact absurd hdev (by simp)
  | detach i n =>
      refine h.setDev ?_
      rintro rfl rfl
      exact absurd rfl hc
  | learn i n l => exact h.modifyDev fun _ => rfl
  | forget i n line => exact h.modifyDev fun _ => rfl
  | clear i n => exact h.modifyDev fun _ => rfl

theorem call {α : Type} {i : HweIface} {n : Nat} {out : α → EmuOutput} {f : BenchDev w → α × BenchDev w}
    (h : b.Holds iface index held) (hf : iface = i → index = n → ∀ dev, (f dev).2.held = dev.held) :
    (b.call i n out f).2.Holds iface index held := by
  unfold Bench.call
  split
  · exact h
  · rename_i dev hdev
    refine h.setDev ?_
    rintro rfl rfl
    obtain ⟨dev', hdev', hheld⟩ := h
    obtain rfl := Option.some.inj (hdev.symm.trans hdev')
    exact ⟨(f dev).2, rfl, (hf rfl rfl dev).trans hheld⟩

theorem tick (h : b.Holds iface index held) (hheld : Awaited held) (jiff : BitVec w) (free : HweIface → Bool)
    (env : HweIface → Nat → Nat → RxEnv) : (b.tick jiff free env).Holds iface index held := by
  obtain ⟨dev, hdev, rfl⟩ := h
  by_cases hfree : free iface = true
  · refine ⟨dev.tick iface jiff, ?_, BenchDev.held_tick hheld jiff⟩
    change (if free iface = true then _ else _) = _
    rw [if_pos hfree, hdev]
    rfl
  · refine ⟨dev, ?_, rfl⟩
    change (if free iface = true then _ else _) = _
    rw [if_neg hfree, hdev]

/-- **A call or a tick** that is not about the response. -/
theorem interact (h : b.Holds iface index held) (hheld : Awaited held) {e : EmuEvent w} (he : e.Leaves iface index)
    {t : EmuOutput × Bench w} (ht : b.interact e = some t) : t.2.Holds iface index held := by
  cases e with
  | op op => exact absurd ht (by simp [Bench.interact])
  | tick jiff free env =>
      obtain rfl := Option.some.inj ht
      exact h.tick hheld jiff free env
  | ttyOpen tty n =>
      obtain rfl := Option.some.inj ht
      exact h
  | ttyClose tty =>
      obtain ⟨n, _, rfl⟩ := Option.map_eq_some_iff.mp ht
      exact h
  | ttyWrite tty buffer hcount env =>
      obtain ⟨n, _, rfl⟩ := Option.map_eq_some_iff.mp ht
      split
      · exact h
      · dsimp only
        split
        · exact h
        · exact h
  | ttyWriteRoom tty =>
      obtain ⟨n, _, rfl⟩ := Option.map_eq_some_iff.mp ht
      exact h
  | i2cMasterXfer n msgs =>
      obtain rfl := Option.some.inj ht
      exact h.call fun hi hn => absurd hn.symm (he hi)
  | i2cSmbusXfer n call =>
      obtain rfl := Option.some.inj ht
      refine h.call fun _ _ dev => ?_
      split
      · rfl
      · rfl
  | spiTransfer n t =>
      obtain rfl := Option.some.inj ht
      exact h.call fun hi hn => absurd hn.symm (he hi)
  | netXmit n frame hlen env =>
      obtain rfl := Option.some.inj ht
      refine h.call fun _ _ dev => ?_
      unfold BenchDev.xmit
      dsimp only
      split
      · rfl
      · rfl

end Bench.Holds

/-- Only a removal takes a device away. -/
theorem ModuleOp.Does.ne_detach {op : ModuleOp w} {ret : Int} {c : BenchChange w} (h : op.Does HZ b ret c)
    (hop : (EmuEvent.op op).Leaves iface index) : c ≠ .detach iface index := by
  rintro rfl
  cases op with
  | hweAddDevice i env => simp [ModuleOp.Does] at h
  | ifaceAddStore i buf env => simp [ModuleOp.Does] at h
  | hweDeleteDevice i devIndex =>
      rcases h with ⟨heq, _⟩ | ⟨n, hindex, heq, _⟩
      · exact absurd heq (by simp)
      · obtain ⟨rfl, rfl⟩ := BenchChange.detach.inj heq
        exact hop rfl hindex
  | ifaceUninstallStore i buf =>
      rcases h with ⟨heq, _⟩ | ⟨n, hword, heq, _⟩
      · exact absurd heq (by simp)
      · obtain ⟨rfl, rfl⟩ := BenchChange.detach.inj heq
        exact hop rfl hword
  | onPairs op =>
      obtain ⟨op, _⟩ := op
      cases op <;> simp [ModuleOp.Does, Op.Does] at h

/-- **A step** that is not about the response. -/
theorem Bench.Holds.step {held : Chunked.Held Source UInt8} (h : b.Holds iface index held) (hheld : Awaited held)
    {e : EmuEvent w × EmuOutput} (he : e.1.Leaves iface index) (hstep : Bench.Step HZ b e b') :
    b'.Holds iface index held := by
  obtain ⟨e, out⟩ := e
  by_cases hop : ∃ op, e = .op op
  · obtain ⟨op, rfl⟩ := hop
    obtain ⟨ret, c, rfl, hdoes, hallowed, rfl⟩ := hstep
    exact h.apply hallowed (hdoes.ne_detach he)
  · have hrun : b.interact e = some (out, b') := by
      cases e with
      | op op => exact absurd ⟨op, rfl⟩ hop
      | _ => exact hstep
    exact h.interact hheld he hrun

/-! ### Asking and reading -/

theorem BenchDev.held_act (act : RespAct) : (dev.act act).held = act.apply dev.held := Chunked.held_concat dev.acts act

/-- A piece of what is left. -/
theorem Chunked.length_take_unread {resp : List UInt8} {r n : Nat} (hlt : r + n < resp.length) :
    r + ((resp.drop r).take n).length = r + n := by
  rw [List.length_take, List.length_drop]
  omega

/-- A read takes the next piece of a response. -/
theorem Bench.Holds.read {resp : List UInt8} {r n : Nat} (h : b.Holds iface index ⟨some .request, resp, r⟩)
    (hr : r < resp.length) {e : EmuEvent w} (he : e.reads iface index = some n) {out : EmuOutput}
    (hstep : Bench.Step HZ b (e, out) b') :
    out = e.hears (resp.drop r) ∧ (r + n < resp.length → b'.Holds iface index ⟨some .request, resp, r + n⟩) := by
  obtain ⟨dev, hdev, hheld⟩ := h
  have hunread : dev.held.unread = resp.drop r := by rw [hheld, Chunked.Held.unread]
  have hne : dev.held.unread ≠ [] := by
    rw [hunread, Ne, List.drop_eq_nil_iff]
    omega
  have hdeliver : r + n < resp.length → (dev.act (.deliver ((resp.drop r).take n))).held = ⟨some .request, resp, r + n⟩ := by
    intro hlt
    rw [BenchDev.held_act, hheld]
    exact congrArg (Chunked.Held.mk _ _) (Chunked.length_take_unread hlt)
  cases e with
  | i2cMasterXfer k msgs =>
      unfold EmuEvent.reads at he
      split at he
      · rename_i k m heq
        obtain ⟨rfl, rfl⟩ := EmuEvent.i2cMasterXfer.inj heq
        obtain ⟨⟨rfl, rfl, hread⟩, hlen⟩ := Option.ite_none_right_eq_some.mp he
        obtain rfl := Option.some.inj hlen
        have hout : b.call .i2c k (fun out => EmuOutput.i2c out.1 out.2) (BenchDev.xfer [m] [m].length) = (out, b') :=
          Option.some.inj hstep
        have hxfer : BenchDev.xfer [m] [m].length dev =
            ((([m].length : Int), [m.put ((resp.drop r).take m.len.toNat)]),
              dev.act (.deliver ((resp.drop r).take m.len.toNat))) := by
          rw [BenchDev.xfer, BenchDev.message, if_pos hread, if_neg hne, hunread]
          rfl
        rw [Bench.call, hdev] at hout
        dsimp only at hout
        rw [hxfer] at hout
        obtain ⟨rfl, rfl⟩ := Prod.mk.inj hout
        exact ⟨rfl, fun hlt => ⟨_, Bench.devs_setDev_self .., hdeliver hlt⟩⟩
      · rename_i heq
        cases heq
      · exact absurd he (by simp)
  | spiTransfer k t =>
      obtain ⟨⟨rfl, rfl, hrx, htx⟩, hlen⟩ := Option.ite_none_right_eq_some.mp he
      obtain rfl := Option.some.inj hlen
      have hout : b.call .spi k .spi (BenchDev.transfer t) = (out, b') := Option.some.inj hstep
      have htransfer : BenchDev.transfer t dev = (some (zeroFilled t.len.toNat (resp.drop r)),
          dev.act (.deliver ((resp.drop r).take t.len.toNat))) := by
        rw [BenchDev.transfer, hrx, htx]
        dsimp only
        rw [if_neg hne, hunread]
      rw [Bench.call, hdev] at hout
      dsimp only at hout
      rw [htransfer] at hout
      obtain ⟨rfl, rfl⟩ := Prod.mk.inj hout
      exact ⟨rfl, fun hlt => ⟨_, Bench.devs_setDev_self .., hdeliver hlt⟩⟩
  | _ => exact absurd he (by simp [EmuEvent.reads])

theorem readLength_concat (past : List (EmuEvent w × EmuOutput)) (e : EmuEvent w × EmuOutput) :
    readLength iface index (past ++ [e]) = readLength iface index past + (e.1.reads iface index).getD 0 := by
  simp [readLength]

/-- **The reads** get the response, piece by piece, whatever comes in between. -/
theorem Bench.Holds.reads {resp : List UInt8} {es : List (EmuEvent w × EmuOutput)}
    (h : b.Holds iface index ⟨some .request, resp, 0⟩) (hrun : Run (Bench.Step HZ) b es b')
    (hes : ∀ e ∈ es, e.1.Leaves iface index ∨ (e.1.reads iface index).isSome = true) :
    ∀ pre e post, es = pre ++ e :: post → (e.1.reads iface index).isSome = true →
      readLength iface index pre < resp.length → e.2 = e.1.hears (resp.drop (readLength iface index pre)) := by
  let step : Bench w → EmuEvent w × EmuOutput → Bench w → Prop := fun b e b' =>
    Bench.Step HZ b e b' ∧ (e.1.Leaves iface index ∨ (e.1.reads iface index).isSome = true)
  have hrun' : Run step b es b' :=
    Run.restrict (I := fun _ => True) (fun _ _ _ _ he hstep => ⟨⟨hstep, he⟩, trivial⟩) hrun hes trivial
  let I : List (EmuEvent w × EmuOutput) → Bench w → Prop := fun past b =>
    readLength iface index past < resp.length → b.Holds iface index ⟨some .request, resp, readLength iface index past⟩
  have hstep : ∀ past b e b', I past b → step b e b' → I (past ++ [e]) b' ∧
      ((e.1.reads iface index).isSome = true → readLength iface index past < resp.length →
        e.2 = e.1.hears (resp.drop (readLength iface index past))) := by
    rintro past b e b' hpast ⟨hstep, hkind⟩
    cases hreads : e.1.reads iface index with
    | none =>
        have hleaves : e.1.Leaves iface index := hkind.resolve_right (by rw [hreads]; exact Bool.false_ne_true)
        refine ⟨fun hlt => ?_, fun hsome => absurd hsome Bool.false_ne_true⟩
        rw [readLength_concat, hreads, Option.getD_none, Nat.add_zero] at hlt ⊢
        have hawaited : Awaited (⟨some .request, resp, readLength iface index past⟩ : Chunked.Held Source UInt8) :=
          ⟨rfl, fun hnil => absurd (List.drop_eq_nil_iff.mp hnil) (Nat.not_le_of_lt hlt)⟩
        exact (hpast hlt).step hawaited hleaves hstep
    | some n =>
        constructor
        · intro hlt
          rw [readLength_concat, hreads, Option.getD_some] at hlt ⊢
          have hr : readLength iface index past < resp.length := by omega
          exact ((hpast hr).read hr hreads hstep).2 hlt
        · exact fun _ hr => ((hpast hr).read hr hreads hstep).1
  have hfirst : I [] b := fun _ => h
  exact (hrun'.history hstep hfirst).2

theorem EmuEvent.Asks.setUp {e : EmuEvent w} {request : List UInt8} (h : e.Asks iface index request) : e.SetUp := by
  cases e with
  | op op => exact h.elim
  | _ => trivial

/-! ### From module load on -/

end Hwemu
