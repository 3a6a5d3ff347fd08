import Hwemu.BenchRuns

/-!
# Where the responses come from

What is heard of a device, at its port, in its frames, on its adapter or its bus, is a response that an
operation taught it before, or a piece of one.
-/

namespace Hwemu

variable {w : Nat} {HZ : Nat} {s s' : Emulator w} {b b' : Bench w} {dev : BenchDev w} {iface : HweIface}

/-- The text of a pair that is to be added. -/
def ModuleOp.text : ModuleOp w → Option (List UInt8)
  | .onPairs op =>
      match op.val with
      | .devAddStore _ buf _ => some buf
      | .hweAddPair _ _ pairStr _ => some (cstr pairStr)
      | _ => none
  | _ => none

/-- The operation is about the device in this place. -/
def ModuleOp.AddsTo (iface : HweIface) (index : Nat) (m : HwemuModule w) : ModuleOp w → Prop
  | .onPairs op =>
      match op.val with
      | .devAddStore dev _ _ => ∃ d ∈ (m.k.ifaces iface).devList, d.addr = dev ∧ d.index = index
      | .hweAddPair i devIndex _ _ => i = iface ∧ devIndex = index
      | _ => False
  | _ => False

/-- The response is in the text of an addition, to the device that was then in this place, that succeeded. -/
def Taught (HZ : Nat) (s₀ : Emulator w) (es : List (EmuEvent w × EmuOutput)) (iface : HweIface) (index : Nat)
    (resp : List UInt8) : Prop :=
  ∃ (pre post : List (EmuEvent w × EmuOutput)) (op : ModuleOp w) (ret : Int) (s : Emulator w) (text : List UInt8)
    (mem q : Pair w), es = pre ++ (.op op, .ret ret) :: post ∧ Run (Emulator.Step HZ) s₀ pre s ∧ 0 ≤ ret ∧
      op.AddsTo iface index s.m ∧ op.text = some text ∧ strToPair HZ text mem = .ok (.ok q) ∧ q.resp = resp

section

variable (T : List UInt8 → Prop)

/-- A piece of a response. -/
def Piece (chunk : List UInt8) : Prop := ∃ resp, T resp ∧ chunk <:+: resp

/-- What is said at a port is one response after the other, each as far as the port took it. -/
def Spoken (bytes : List UInt8) : Prop :=
  ∃ pieces, bytes = List.flatten pieces ∧ ∀ x ∈ pieces, ∃ resp, T resp ∧ x <+: resp

/-- A message that was to be read is as it was, and said to be empty, or starts with a piece of a response. -/
def Filled (m m' : I2cMsg) : Prop := m' = m.noData ∨ ∃ chunk, Piece T chunk ∧ m' = m.put chunk

structure BenchDev.Knows (dev : BenchDev w) : Prop where
  lines : ∀ l ∈ dev.lines, T l.resp
  held : dev.held.data = [] ∨ T dev.held.data
  frames : ∀ frame ∈ dev.net.received, T frame

end

section

variable (T : HweIface → Nat → List UInt8 → Prop)

/-- What the caller of a transfer hears of the device in its place: a read of the bus is filled with a piece of a
response and then with zeros, a message to be read with a piece of a response. -/
def Heard : EmuEvent w × EmuOutput → Prop
  | (.spiTransfer index t, .spi (some rx)) => ∃ chunk, (chunk = [] ∨ Piece (T .spi index) chunk) ∧
      rx = chunk ++ List.replicate (t.len.toNat - chunk.length) 0
  | (.i2cMasterXfer index msgs, .i2c _ msgs') =>
      List.Forall₂ (fun m m' => m.read = true → Filled (T .i2c index) m m') msgs msgs'
  | _ => True

/-- Nothing is on the bench that was not taught in its place. -/
structure Bench.Knows (b : Bench w) : Prop where
  devs : ∀ iface index dev, b.devs iface index = some dev → dev.Knows (T iface index)
  ports : ∀ index, Spoken (T .tty index) (b.ports index)

end

variable {T T' : List UInt8 → Prop}

/-! ### One device -/

namespace BenchDev.Knows

theorem new (dir : Nat) : (BenchDev.new dir : BenchDev w).Knows T :=
  ⟨fun _ hl => absurd hl List.not_mem_nil, Or.inl rfl, fun _ hf => absurd hf List.not_mem_nil⟩

theorem mono (h : dev.Knows T) (hT : ∀ resp, T resp → T' resp) : dev.Knows T' :=
  ⟨fun l hl => hT _ (h.lines l hl), h.held.imp_right (hT _), fun frame hf => hT _ (h.frames frame hf)⟩

theorem act (h : dev.Knows T) {act : RespAct} (hact : ∀ source resp, act = .load source resp → T resp) :
    (dev.act act).Knows T := by
  refine ⟨h.lines, ?_, h.frames⟩
  change (Chunked.held (dev.acts ++ [act])).data = [] ∨ T (Chunked.held (dev.acts ++ [act])).data
  rw [Chunked.held_concat]
  cases act with
  | load source resp => exact Or.inr (hact source resp rfl)
  | discard => exact Or.inl rfl
  | deliver chunk => exact h.held
  | fail => exact h.held

theorem answer (h : dev.Knows T) {request : List UInt8} {l : Line w} (hl : dev.answer request = some l) : T l.resp :=
  h.lines l (List.mem_of_find?_eq_some hl)

theorem reply (h : dev.Knows T) (request : List UInt8) : (dev.act (dev.reply request)).Knows T := by
  refine h.act fun source resp hload => ?_
  unfold BenchDev.reply at hload
  split at hload
  · rename_i l hl
    obtain ⟨_, rfl⟩ := Chunked.Act.load.inj hload
    exact h.answer hl
  · exact absurd hload (by simp)

/-- What is left to be read is a piece. -/
theorem piece (h : dev.Knows T) (hunread : dev.held.unread ≠ []) (n : Nat) :
    Piece T (dev.held.unread.take n) := by
  rcases h.held with hnil | htaught
  · refine absurd ?_ hunread
    rw [Chunked.Held.unread, hnil, List.drop_nil]
  · exact ⟨_, htaught, (List.take_prefix n _).isInfix.trans (List.drop_suffix _ _).isInfix⟩

theorem offer (h : dev.Knows T) {resp : List UInt8} (hresp : T resp) : (dev.offer resp).Knows T := by
  unfold BenchDev.offer
  split
  · exact h.act fun source resp' hload => (Chunked.Act.load.inj hload).2 ▸ hresp
  · exact h

theorem receive (h : dev.Knows T) {frame : List UInt8} (hframe : T frame) : (dev.receive frame).Knows T := by
  refine ⟨h.lines, h.held, fun f hf => ?_⟩
  rcases List.mem_append.mp hf with hold | hnew
  · exact h.frames f hold
  · rw [List.mem_singleton.mp hnew]
    exact hframe

theorem said (h : dev.Knows T) {l : Line w} (hl : T l.resp) : (dev.said iface l).Knows T := by
  cases iface with
  | tty => exact h
  | i2c =>
      have hput : BenchDev.Knows T { dev with chip := dev.chip.put l.resp } := ⟨h.lines, h.held, h.frames⟩
      exact hput.offer hl
  | net => exact h.receive hl
  | spi => exact h.offer hl

theorem resp_ticked (jiff : BitVec w) (l : Line w) : (l.ticked jiff).resp = l.resp := by
  unfold Line.ticked
  split
  · rfl
  · rfl

theorem dueLines (h : dev.Knows T) {jiff : BitVec w} {l : Line w} (hl : l ∈ dev.dueLines jiff) : T l.resp := by
  obtain ⟨l₀, hl₀, rfl⟩ := List.mem_map.mp hl
  rw [resp_ticked]
  exact h.lines l₀ (List.mem_filter.mp hl₀).1

theorem tick (h : dev.Knows T) (jiff : BitVec w) : (dev.tick iface jiff).Knows T := by
  have hlines : ∀ ls : List (Line w), (∀ l ∈ ls, T l.resp) → ∀ dev : BenchDev w, dev.Knows T →
      (ls.foldl (BenchDev.said iface) dev).Knows T := by
    intro ls
    induction ls with
    | nil => exact fun _ dev hdev => hdev
    | cons l ls ih =>
        intro hls dev hdev
        exact ih (fun l' hl' => hls l' (List.mem_cons_of_mem l hl')) _ (hdev.said (hls l List.mem_cons_self))
  refine hlines _ (fun l hl => h.dueLines hl) _ ⟨fun l hl => ?_, h.held, h.frames⟩
  obtain ⟨l₀, hl₀, rfl⟩ := List.mem_map.mp hl
  rw [resp_ticked]
  exact h.lines l₀ hl₀

theorem message (h : dev.Knows T) (m : I2cMsg) :
    (dev.act (dev.message m).2).Knows T ∧ (m.read = true → Filled T m (dev.message m).1) := by
  unfold BenchDev.message
  by_cases hread : m.read = true
  · rw [if_pos hread]
    by_cases hunread : dev.held.unread = []
    · rw [if_pos hunread]
      exact ⟨h.act fun _ _ hload => absurd hload (by simp), fun _ => Or.inl rfl⟩
    · rw [if_neg hunread]
      exact ⟨h.act fun _ _ hload => absurd hload (by simp), fun _ => Or.inr ⟨_, h.piece hunread _, rfl⟩⟩
  · rw [if_neg hread]
    exact ⟨h.reply _, fun hread' => absurd hread' hread⟩

/-- A transfer, message by message. -/
theorem xfer (h : dev.Knows T) (msgs : List I2cMsg) (err : Int) :
    (BenchDev.xfer msgs err dev).2.Knows T ∧
      List.Forall₂ (fun m m' => m.read = true → Filled T m m') msgs (BenchDev.xfer msgs err dev).1.2 := by
  induction msgs generalizing dev err with
  | nil => exact ⟨h, .nil⟩
  | cons m msgs ih =>
      obtain ⟨hfirst, hfilled⟩ := h.message m
      obtain ⟨hrest, hall⟩ := ih hfirst (errAfter err (dev.message m).2)
      exact ⟨hrest, .cons hfilled hall⟩

theorem transfer (h : dev.Knows T) (t : SpiTransfer) :
    (dev.transfer t).2.Knows T ∧ ∀ rx, (dev.transfer t).1 = some rx →
      ∃ chunk, (chunk = [] ∨ Piece T chunk) ∧ rx = chunk ++ List.replicate (t.len.toNat - chunk.length) 0 := by
  unfold BenchDev.transfer
  split
  · constructor
    · dsimp only
      split
      · exact h
      · exact h.act fun _ _ hload => absurd hload (by simp)
    · intro rx hrx
      obtain rfl := Option.some.inj hrx
      refine ⟨dev.held.unread.take t.len.toNat, ?_, ?_⟩
      · by_cases hunread : dev.held.unread = []
        · left
          rw [hunread, List.take_nil]
        · exact Or.inr (h.piece hunread _)
      · have hlen : t.len.toNat - min t.len.toNat dev.held.unread.length =
            t.len.toNat - dev.held.unread.length := by omega
        rw [zeroFilled, List.length_take, hlen]
  · exact ⟨h.reply _, fun rx hrx => absurd hrx (by simp)⟩
  · refine ⟨h.act fun _ _ hload => absurd hload (by simp), fun rx hrx => ⟨[], Or.inl rfl, ?_⟩⟩
    exact (Option.some.inj hrx).symm
  · exact ⟨h, fun rx hrx => absurd hrx (by simp)⟩

theorem xmit (h : dev.Knows T) (env : Nat → RxEnv) (frame : List UInt8) : (dev.xmit env frame).2.Knows T := by
  have hsent : BenchDev.Knows T { dev with net := { dev.net with
      txBytes := dev.net.txBytes + BitVec.ofNat w frame.length
      txPackets := dev.net.txPackets + 1 } } := ⟨h.lines, h.held, h.frames⟩
  unfold BenchDev.xmit
  dsimp only
  split
  · exact hsent
  · rename_i l hl
    exact hsent.receive (h.answer hl)

/-- What the clock says at a tty. -/
theorem spoken (h : dev.Knows T) (jiff : BitVec w) (env : Nat → RxEnv) : Spoken T (dev.spoken jiff env) := by
  refine ⟨(dev.dueLines jiff).map fun l => l.resp.take (env l.index).flip, rfl, fun x hx => ?_⟩
  obtain ⟨l, hl, rfl⟩ := List.mem_map.mp hx
  exact ⟨l.resp, h.dueLines hl, List.take_prefix _ _⟩

end BenchDev.Knows

/-! ### The ports -/

namespace Spoken

theorem nil : Spoken T [] := ⟨[], rfl, fun _ hx => absurd hx List.not_mem_nil⟩

theorem append {bytes bytes' : List UInt8} (h : Spoken T bytes) (h' : Spoken T bytes') :
    Spoken T (bytes ++ bytes') := by
  obtain ⟨pieces, rfl, hpieces⟩ := h
  obtain ⟨pieces', rfl, hpieces'⟩ := h'
  refine ⟨pieces ++ pieces', List.flatten_append.symm, fun x hx => ?_⟩
  rcases List.mem_append.mp hx with hx | hx
  · exact hpieces x hx
  · exact hpieces' x hx

theorem take {resp : List UInt8} (hresp : T resp) (n : Nat) : Spoken T (resp.take n) := by
  refine ⟨[resp.take n], (List.flatten_singleton).symm, fun x hx => ⟨resp, hresp, ?_⟩⟩
  rw [List.mem_singleton.mp hx]
  exact List.take_prefix n resp

theorem mono {bytes : List UInt8} (h : Spoken T bytes) (hT : ∀ resp, T resp → T' resp) : Spoken T' bytes := by
  obtain ⟨pieces, rfl, hpieces⟩ := h
  refine ⟨pieces, rfl, fun x hx => ?_⟩
  obtain ⟨resp, hresp, hprefix⟩ := hpieces x hx
  exact ⟨resp, hT resp hresp, hprefix⟩

end Spoken

/-! ### The bench -/

section

variable {T T' : HweIface → Nat → List UInt8 → Prop}

namespace Bench.Knows

theorem empty : (Bench.empty : Bench w).Knows T :=
  ⟨fun _ _ _ hdev => absurd hdev (by simp [Bench.empty]), fun _ => Spoken.nil⟩

theorem mono (h : b.Knows T) (hT : ∀ iface index resp, T iface index resp → T' iface index resp) : b.Knows T' :=
  ⟨fun iface index dev hdev => (h.devs iface index dev hdev).mono (hT iface index),
    fun index => (h.ports index).mono (hT .tty index)⟩

theorem setDev (h : b.Knows T) {index : Nat} {d : Option (BenchDev w)}
    (hd : ∀ dev, d = some dev → dev.Knows (T iface index)) : (b.setDev iface index d).Knows T := by
  refine ⟨fun iface' index' dev hdev => ?_, h.ports⟩
  change (if iface' = iface ∧ index' = index then d else b.devs iface' index') = some dev at hdev
  split at hdev
  · rename_i hplace
    obtain ⟨rfl, rfl⟩ := hplace
    exact hd dev hdev
  · exact h.devs iface' index' dev hdev

theorem modifyDev (h : b.Knows T) {index : Nat} {f : BenchDev w → BenchDev w}
    (hf : ∀ dev : BenchDev w, dev.Knows (T iface index) → (f dev).Knows (T iface index)) :
    (b.modifyDev iface index f).Knows T := by
  refine h.setDev fun dev hdev => ?_
  obtain ⟨dev₀, hdev₀, rfl⟩ := Option.map_eq_some_iff.mp hdev
  exact hf dev₀ (h.devs iface index dev₀ hdev₀)

theorem hear (h : b.Knows T) (index : Nat) {bytes : List UInt8} (hbytes : Spoken (T .tty index) bytes) :
    (b.hear index bytes).Knows T := by
  refine ⟨h.devs, fun index' => ?_⟩
  change Spoken (T .tty index') (Function.update b.ports index (b.ports index ++ bytes) index')
  by_cases heq : index' = index
  · subst heq
    rw [Function.update_self]
    exact (h.ports index').append hbytes
  · rw [Function.update_of_ne heq]
    exact h.ports index'

theorem tick (h : b.Knows T) (jiff : BitVec w) (free : HweIface → Bool) (env : HweIface → Nat → Nat → RxEnv) :
    (b.tick jiff free env).Knows T := by
  constructor
  · intro iface index dev hdev
    change (if free iface = true then (b.devs iface index).map (BenchDev.tick iface jiff)
      else b.devs iface index) = some dev at hdev
    split at hdev
    · obtain ⟨dev₀, hdev₀, rfl⟩ := Option.map_eq_some_iff.mp hdev
      exact (h.devs iface index dev₀ hdev₀).tick jiff
    · exact h.devs iface index dev hdev
  · intro index
    change Spoken (T .tty index) (if free .tty = true then b.ports index ++
      ((b.devs .tty index).map (BenchDev.spoken jiff (env .tty index))).getD [] else b.ports index)
    split
    · refine (h.ports index).append ?_
      cases hdev : b.devs .tty index with
      | none => exact Spoken.nil
      | some dev => exact (h.devs .tty index dev hdev).spoken jiff _
    · exact h.ports index

/-- **A change of the bench** keeps what is known if the line that is learned is known. -/
theorem apply (h : b.Knows T) {c : BenchChange w}
    (hc : ∀ iface index l, c = .learn iface index l → T iface index l.resp) : (c.apply b).Knows T := by
  cases c with
  | keep => exact h
  | attach iface index dir => exact h.setDev fun dev hdev => Option.some.inj hdev ▸ BenchDev.Knows.new dir
  | detach iface index => exact h.setDev fun dev hdev => absurd hdev (by simp)
  | learn iface index l =>
      refine h.modifyDev fun dev hdev => ⟨fun l' hl' => ?_, hdev.held, hdev.frames⟩
      rcases List.mem_append.mp hl' with hold | hnew
      · exact hdev.lines l' hold
      · rw [List.mem_singleton.mp hnew]
        exact hc iface index l rfl
  | forget iface index line =>
      exact h.modifyDev fun dev hdev => ⟨fun l hl => hdev.lines l (List.mem_filter.mp hl).1, hdev.held, hdev.frames⟩
  | clear iface index =>
      exact h.modifyDev fun dev hdev => ⟨fun l hl => absurd hl List.not_mem_nil, hdev.held, hdev.frames⟩

/-- A call to the device in a place. -/
theorem call {α : Type} (h : b.Knows T) {index : Nat} {out : α → EmuOutput} {f : BenchDev w → α × BenchDev w}
    {e : EmuEvent w} (habsent : Heard T (e, .absent))
    (hf : ∀ dev : BenchDev w, dev.Knows (T iface index) →
      (f dev).2.Knows (T iface index) ∧ Heard T (e, out (f dev).1)) :
    (b.call iface index out f).2.Knows T ∧ Heard T (e, (b.call iface index out f).1) := by
  unfold Bench.call
  split
  · exact ⟨h, habsent⟩
  · rename_i dev hdev
    obtain ⟨hknows, hheard⟩ := hf dev (h.devs iface index dev hdev)
    exact ⟨h.setDev fun dev' hdev' => Option.some.inj hdev' ▸ hknows, hheard⟩

/-- **A call or a tick** lets be heard what is known, and makes nothing else known. -/
theorem interact (h : b.Knows T) {e : EmuEvent w} {t : EmuOutput × Bench w} (ht : b.interact e = some t) :
    t.2.Knows T ∧ Heard T (e, t.1) := by
  cases e with
  | op op => exact absurd ht (by simp [Bench.interact])
  | tick jiff free env =>
      obtain rfl := Option.some.inj ht
      exact ⟨h.tick jiff free env, trivial⟩
  | ttyOpen tty index =>
      obtain rfl := Option.some.inj ht
      exact ⟨⟨h.devs, h.ports⟩, trivial⟩
  | ttyClose tty =>
      obtain ⟨index, _, rfl⟩ := Option.map_eq_some_iff.mp ht
      exact ⟨h, trivial⟩
  | ttyWrite tty buffer hcount env =>
      obtain ⟨index, _, rfl⟩ := Option.map_eq_some_iff.mp ht
      split
      · exact ⟨h, trivial⟩
      · rename_i dev hdev
        refine ⟨?_, trivial⟩
        dsimp only
        split
        · exact h
        · rename_i l hl
          exact h.hear index (Spoken.take ((h.devs .tty index dev hdev).answer hl) _)
  | ttyWriteRoom tty =>
      obtain ⟨index, _, rfl⟩ := Option.map_eq_some_iff.mp ht
      exact ⟨h, trivial⟩
  | i2cMasterXfer index msgs =>
      obtain rfl := Option.some.inj ht
      exact h.call trivial fun dev hdev => hdev.xfer msgs msgs.length
  | i2cSmbusXfer index call =>
      obtain rfl := Option.some.inj ht
      refine h.call trivial fun dev hdev => ?_
      split
      · exact ⟨hdev, trivial⟩
      · exact ⟨⟨hdev.lines, hdev.held, hdev.frames⟩, trivial⟩
  | spiTransfer index t =>
      obtain rfl := Option.some.inj ht
      refine h.call trivial fun dev hdev => ?_
      obtain ⟨hknows, hrx⟩ := hdev.transfer t
      refine ⟨hknows, ?_⟩
      cases hcase : (dev.transfer t).1 with
      | none => trivial
      | some rx => exact hrx rx hcase
  | netXmit index frame hlen env =>
      obtain rfl := Option.some.inj ht
      exact h.call trivial fun dev hdev => ⟨hdev.xmit _ frame, trivial⟩

end Bench.Knows

/-- **One step** of the bench. What was learned in it is known from then on. -/
theorem Bench.Knows.step {e : EmuEvent w × EmuOutput} (h : b.Knows T)
    (hT : ∀ iface index resp, T iface index resp → T' iface index resp)
    (hlearned : ∀ (op : ModuleOp w) (ret : Int) iface index (l : Line w), e = (.op op, .ret ret) →
      op.Does HZ b ret (.learn iface index l) → T' iface index l.resp)
    (hstep : Bench.Step HZ b e b') : b'.Knows T' ∧ Heard T e := by
  obtain ⟨e, out⟩ := e
  by_cases hop : ∃ op, e = .op op
  · obtain ⟨op, rfl⟩ := hop
    obtain ⟨ret, c, rfl, hdoes, _, rfl⟩ := hstep
    refine ⟨(h.mono hT).apply ?_, trivial⟩
    rintro iface index l rfl
    exact hlearned op ret iface index l rfl hdoes
  · have hrun : b.interact e = some (out, b') := by
      cases e with
      | op op => exact absurd ⟨op, rfl⟩ hop
      | _ => exact hstep
    exact ⟨((h.mono hT).interact hrun).1, (h.interact hrun).2⟩

end

/-! ### What was taught -/

theorem Taught.later {s₀ : Emulator w} {past : List (EmuEvent w × EmuOutput)} {index : Nat} {resp : List UInt8}
    (h : Taught HZ s₀ past iface index resp) (e : EmuEvent w × EmuOutput) :
    Taught HZ s₀ (past ++ [e]) iface index resp := by
  obtain ⟨pre, post, op, ret, s, text, mem, q, rfl, hrest⟩ := h
  exact ⟨pre, post ++ [e], op, ret, s, text, mem, q, by simp, hrest⟩

/-- A line that a device learned was in the text of an addition to it. -/
theorem ModuleOp.Does.taught {op : ModuleOp w} {ret : Int} {index : Nat} {l : Line w} (hshows : s.Shows b)
    (h : op.Does HZ b ret (.learn iface index l)) :
    0 ≤ ret ∧ op.AddsTo iface index s.m ∧ ∃ text mem, op.text = some text ∧ ∃ q : Pair w,
      strToPair HZ text mem = .ok (.ok q) ∧ q.resp = l.resp := by
  cases op with
  | hweAddDevice iface' env => simp [ModuleOp.Does] at h
  | ifaceAddStore iface' buf env => simp [ModuleOp.Does] at h
  | hweDeleteDevice iface' devIndex => simp [ModuleOp.Does] at h
  | ifaceUninstallStore iface' buf => simp [ModuleOp.Does] at h
  | onPairs op =>
      obtain ⟨op, hop⟩ := op
      cases op with
      | devAddStore dir buf env =>
          obtain ⟨i, n, dev, ⟨hdev, hdir⟩, ⟨heq, _⟩ | ⟨l', heq, ⟨⟨mem, _, addr, q, hparse, hline⟩, _⟩, hret⟩⟩ := h
          · exact absurd heq (by simp)
          · obtain ⟨rfl, rfl, rfl⟩ := BenchChange.learn.inj heq
            obtain ⟨d, hd, hindex, hshown⟩ := hshows.dev_of hdev
            refine ⟨hret ▸ Int.natCast_nonneg _, ⟨d, hd, hshown.dir.symm.trans hdir, hindex⟩, buf, _, rfl, q, hparse, ?_⟩
            rw [hline]
            rfl
      | hweAddPair i devIndex pairStr env =>
          obtain ⟨heq, _⟩ | ⟨n, dev, l', hindex, _, heq, ⟨⟨mem, _, addr, q, hparse, hline⟩, _⟩, hret⟩ := h
          · exact absurd heq (by simp)
          · obtain ⟨rfl, rfl, rfl⟩ := BenchChange.learn.inj heq
            refine ⟨hret ▸ Int.natCast_nonneg _, ⟨rfl, hindex⟩, cstr pairStr, _, rfl, q, hparse, ?_⟩
            rw [hline]
            rfl
      | _ => simp [ModuleOp.Does, Op.Does] at h

/-- The emulator after some events, on a bench where nothing was heard but what they taught. -/
structure Emulator.Tells (HZ : Nat) (s s₀ : Emulator w) (past : List (EmuEvent w × EmuOutput)) : Prop where
  run : Run (Emulator.Step HZ) s₀ past s
  bench : ∃ b, s.Shows b ∧ b.Knows (Taught HZ s₀ past)

/-- **One step** of the emulator. -/
theorem Emulator.Tells.step {s₀ : Emulator w} {past : List (EmuEvent w × EmuOutput)} {e : EmuEvent w × EmuOutput}
    (h : s.Tells HZ s₀ past) (hsetup : e.1.SetUp) (hstep : Emulator.Step HZ s e s') :
    s'.Tells HZ s₀ (past ++ [e]) ∧ Heard (Taught HZ s₀ past) e := by
  obtain ⟨b, hshows, hknows⟩ := h.bench
  obtain ⟨b', hbench, hshows'⟩ := hshows.step hsetup hstep
  have hlearned : ∀ (op : ModuleOp w) (ret : Int) iface index (l : Line w), e = (.op op, .ret ret) →
      op.Does HZ b ret (.learn iface index l) → Taught HZ s₀ (past ++ [e]) iface index l.resp := by
    rintro op ret iface index l rfl hdoes
    obtain ⟨hret, hadds, text, mem, htext, q, hparse, hresp⟩ := hdoes.taught hshows
    exact ⟨past, [], op, ret, s, text, mem, q, rfl, h.run, hret, hadds, htext, hparse, hresp⟩
  obtain ⟨hknows', hheard⟩ := hknows.step (fun _ _ _ hresp => hresp.later e) hlearned hbench
  exact ⟨⟨Run.snoc_iff.mpr ⟨s, h.run, hstep⟩, b', hshows', hknows'⟩, hheard⟩

/-- The frames that a registered net device handed up are on the bench. -/
theorem Emulator.Shows.received {T : HweIface → Nat → List UInt8 → Prop} (h : s.Shows b) (hb : b.Knows T)
    {index device : Nat} (hdevice : s.m.registered .net index = some device) {frame : List UInt8}
    (hframe : frame ∈ (s.net device).received) : T .net index frame := by
  cases hdev : b.devs .net index with
  | none =>
      rw [h.registered_none (by decide) hdev] at hdevice
      exact absurd hdevice (by simp)
  | some dev =>
      obtain ⟨d, p, hf, rfl⟩ := h.found hdev
      rw [hf.registered h (by decide)] at hdevice
      obtain rfl := Option.some.inj hdevice
      have hnet : s.net p.addr = dev.net := hf.wired h
      rw [hnet] at hframe
      exact (hb.devs .net d.index dev hdev).frames frame hframe

/-- **Everything heard was taught.** What the callers of transfers hear of a device, what is said at the port of a
tty and what a net device hands up are responses in the texts of additions to a device in the same place that
succeeded before, or pieces of them. -/
theorem heard_was_taught {objs : Registry KernelObj} {es : List (EmuEvent w × EmuOutput)}
    (hrun : Run (Emulator.Step HZ) (Emulator.loaded w objs) es s) (hsetup : ∀ e ∈ es, e.1.SetUp) :
    (∀ pre e post, es = pre ++ e :: post → Heard (Taught HZ (Emulator.loaded w objs) pre) e) ∧
      (∀ index, Spoken (Taught HZ (Emulator.loaded w objs) es .tty index) (s.ports index)) ∧
      ∀ index device, s.m.registered .net index = some device →
        ∀ frame ∈ (s.net device).received, Taught HZ (Emulator.loaded w objs) es .net index frame := by
  let step : Emulator w → EmuEvent w × EmuOutput → Emulator w → Prop := fun s e s' =>
    Emulator.Step HZ s e s' ∧ e.1.SetUp
  have hrun' : Run step (Emulator.loaded w objs) es s :=
    Run.restrict (I := fun _ => True) (fun _ _ _ _ he hstep => ⟨⟨hstep, he⟩, trivial⟩) hrun hsetup trivial
  have hstart : (Emulator.loaded w objs).Tells HZ (Emulator.loaded w objs) [] :=
    ⟨.nil _, Bench.empty, .loaded w objs, .empty⟩
  have hstep : ∀ past (s : Emulator w) e s', s.Tells HZ (Emulator.loaded w objs) past → step s e s' →
      s'.Tells HZ (Emulator.loaded w objs) (past ++ [e]) ∧ Heard (Taught HZ (Emulator.loaded w objs) past) e :=
    fun _ _ _ _ h hstep => h.step hstep.2 hstep.1
  obtain ⟨⟨_, b, h, hb⟩, hheard⟩ : s.Tells HZ (Emulator.loaded w objs) ([] ++ es) ∧
      ∀ pre e post, es = pre ++ e :: post → Heard (Taught HZ (Emulator.loaded w objs) ([] ++ pre)) e :=
    hrun'.history hstep hstart
  refine ⟨hheard, fun index => ?_, fun index device hdevice frame hframe => h.received hb hdevice hframe⟩
  rw [h.ports]
  exact hb.ports index

/-- The net device of `benchEvents` hands up what it was taught. -/
theorem benchEvents_heard : ∃ (os : List EmuOutput) (s : Emulator 64) (device : Nat),
    s.m.registered .net 0 = some device ∧ (s.net device).received = [[0xaa, 0xbb]] ∧
      Taught 250 (Emulator.loaded 64 .empty) (benchEvents.zip os) .net 0 [0xaa, 0xbb] := by
  obtain ⟨os, s, hexec, hrun⟩ := benchEvents_run
  have hreceived : (Machine.execAll (Emulator.exec 250) benchEvents (Emulator.loaded 64 .empty)).toOption.map
      (fun r => (r.2.m.registered .net 0).map fun device => (r.2.net device).received) =
        some (some [[0xaa, 0xbb]]) := by
    decide +kernel
  rw [hexec] at hreceived
  obtain ⟨device, hdevice, hframes⟩ := Option.map_eq_some_iff.mp (Option.some.inj hreceived)
  refine ⟨os, s, device, hdevice, hframes, (heard_was_taught hrun (benchEvents_setUp os)).2.2 0 device hdevice _ ?_⟩
  rw [hframes]
  exact List.mem_singleton.mpr rfl

end Hwemu
