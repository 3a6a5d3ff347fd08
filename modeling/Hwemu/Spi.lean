import Hwemu.RespBuffer
import Hwemu.TimerRuns

/-!
# The spi driver

`hwespi_transfer_one` takes no lock, so a timer delivery may come between any two of its statements.
The transfer is a program whose state is the statement to run next. A statement that does not touch
the private device is taken together with the one before it.
-/

namespace Hwemu

variable {w : Nat}

/-- `struct spi_transfer`: `txBuf` is what is written, and `rxBuf` says whether there is a buffer to
read into. -/
structure SpiTransfer where
  txBuf : Option (List UInt8)
  rxBuf : Bool
  len : UInt32
  len_le : ∀ tx, txBuf = some tx → len.toNat ≤ tx.length

/-- `struct hwe_dev_priv` of the spi driver. `hwedev` is the address of the device in the store. -/
structure SpiPriv where
  hwedev : Nat
  buffer : RespBuffer

/-- `new_dev`. -/
def SpiPriv.newDev (hwedev : Nat) : SpiPriv := { hwedev := hwedev, buffer := .zeroed }

/-- The statement of `hwespi_transfer_one` to run next, named by what was done before it. `rx` is what
is in the buffer of the reader. -/
inductive SpiPc (w : Nat) where
  | idle
  | entered (t : SpiTransfer)
  | found (t : SpiTransfer) (pair : Option (Pair w))
  | pending (t : SpiTransfer)
  | sized (t : SpiTransfer) (sz : Nat)
  | copied (t : SpiTransfer) (sz : Nat) (rx : List UInt8)
  | shrunk (t : SpiTransfer) (sz : Nat) (rx : List UInt8)
  | filled (pair : Pair w)
  | resized
  | placed
  | finished (rx : Option (List UInt8))

/-- The pair a transfer has found and goes on to use. -/
def SpiPc.pair : SpiPc w → Option (Pair w)
  | .found _ pair => pair
  | .filled pair => some pair
  | _ => none

/-- `memset(transfer->rx_buf + sz, 0, transfer->len - sz)` behind the bytes copied. -/
def SpiTransfer.padded (rx : List UInt8) (t : SpiTransfer) : List UInt8 :=
  rx ++ List.replicate (t.len.toNat - rx.length) 0

/-- The branches of `hwespi_transfer_one`, with the first statement of the branch. -/
def spiBranch (t : SpiTransfer) (pair : Option (Pair w)) (buffer : RespBuffer) :
    Except Fault (SpiPc w × RespBuffer × List RespAct) :=
  match t.rxBuf, t.txBuf with
  | true, some _ => .ok (.finished (some (t.padded [])), buffer.discard, [.discard])
  | true, none =>
      if buffer.respSize ≠ 0 then .ok (.pending t, buffer, [])
      else .ok (.finished (some (t.padded [])), buffer, [])
  | false, some _ =>
      match pair with
      | some pair => do
          let buffer ← buffer.fill pair.resp
          return (.filled pair, buffer, [.load .request pair.resp])
      | none => .ok (.finished none, buffer.discard, [.discard])
  | false, none => .ok (.finished none, buffer, [])

/-- One statement of `hwespi_transfer_one`, and what it does to the response. -/
def spiStmt (k : Kernel w) (dev : SpiPriv) :
    SpiPc w → Except Fault (SpiPc w × RespBuffer × List RespAct)
  | .idle => .ok (.idle, dev.buffer, [])
  | .entered t =>
      match t.txBuf with
      | none => .ok (.found t none, dev.buffer, [])
      | some tx => do
          let hwedev ← k.deref dev.hwedev
          return (.found t (findResponse hwedev tx (toInt t.len.toNat)), dev.buffer, [])
  | .found t pair => spiBranch t pair dev.buffer
  | .pending t =>
      let sz := if dev.buffer.respSize > t.len.toNat then t.len.toNat else dev.buffer.respSize
      .ok (.sized t sz, dev.buffer, [])
  | .sized t sz => do
      let rx ← dev.buffer.peek sz
      return (.copied t sz rx, dev.buffer, [.deliver rx])
  | .copied t sz rx => .ok (.shrunk t sz rx, dev.buffer.shrink sz, [])
  | .shrunk t sz rx => .ok (.finished (some (t.padded rx)), dev.buffer.advance sz, [])
  | .filled pair => .ok (.resized, { dev.buffer with respSize := pair.resp.length }, [])
  | .resized => .ok (.placed, { dev.buffer with respPtr := some 0 }, [])
  | .placed => .ok (.finished none, { dev.buffer with async := false }, [])
  | .finished _ => .ok (.idle, dev.buffer, [])

def hweSpiAsyncRx (pair : Pair w) (dev : SpiPriv) : Except Fault (List RespAct × RespBuffer) := do
  if dev.buffer.refusesAsync then return ([], dev.buffer)
  else
    let buffer ← dev.buffer.load true pair.resp
    return ([.load .timer pair.resp], buffer)

/-! ### Runs of one private device -/

structure SpiSystem (w : Nat) where
  k : Kernel w
  priv : SpiPriv
  pc : SpiPc w

inductive SpiEvent (w : Nat) where
  | start (t : SpiTransfer)
  | stmt (acts : List RespAct)
  | asyncRx (pair : Pair w) (acts : List RespAct)
  | store (e : Event w)

def SpiEvent.acts : SpiEvent w → List RespAct
  | .start _ => []
  | .stmt acts => acts
  | .asyncRx _ acts => acts
  | .store _ => []

/-- The spi core starts a transfer when the one before is finished. A delivery brings a timer pair of
the device. The store may change as long as it keeps the device and the pair the transfer works
with. -/
def SpiStep (HZ : Nat) (s : SpiSystem w) : SpiEvent w → SpiSystem w → Prop
  | .start t, s' => s.pc = .idle ∧ s' = { s with pc := .entered t }
  | .stmt acts, s' => s.pc ≠ .idle ∧ ∃ buffer, spiStmt s.k s.priv s.pc = .ok (s'.pc, buffer, acts) ∧
      s'.priv = { s.priv with buffer := buffer } ∧ s'.k = s.k
  | .asyncRx pair acts, s' => pair.asyncRx = true ∧
      (∃ d ∈ s.k.devs, d.addr = s.priv.hwedev ∧ pair ∈ d.pairList) ∧
      ∃ buffer, hweSpiAsyncRx pair s.priv = .ok (acts, buffer) ∧
        s' = { s with priv := { s.priv with buffer := buffer } }
  | .store e, s' => SysStep HZ s.k e s'.k ∧ s'.priv = s.priv ∧ s'.pc = s.pc ∧
      (∃ d ∈ s'.k.devs, d.addr = s.priv.hwedev) ∧
      ∀ p, s.pc.pair = some p → s'.k.HasPair s.priv.hwedev p.addr

/-- The steps that leave a delivered response whole: one is accepted in the middle of a read only if
what the read has still to do falls on the same bytes of both, and in the middle of a write only if
it is not the shorter one; and a write that makes `resp_size` that of the new response does not run
over the end of `resp` from where the last read stopped. -/
def SpiHarmless (s : SpiSystem w) : SpiEvent w → Prop
  | .asyncRx pair _ => s.priv.buffer.refusesAsync = false →
      match s.pc with
      | .sized _ sz => sz ≤ pair.resp.length
      | .copied _ sz _ => sz = 0 ∨ pair.resp.length = sz
      | .shrunk _ sz _ => sz = 0
      | .filled p => p.resp.length ≤ pair.resp.length
      | _ => True
  | .stmt _ =>
      match s.pc with
      | .filled p => ∀ off, s.priv.buffer.respPtr = some off → off + p.resp.length ≤ hweMaxResponse
      | _ => True
  | _ => True

/-! ### What the buffer holds at each statement -/

/-- What is true of the buffer and the message held at every statement. -/
structure RespBuffer.Kept (b : RespBuffer) (h : Chunked.Held Source UInt8) : Prop where
  data_le : h.data.length ≤ hweMaxResponse
  resp : b.resp.take h.data.length = h.data
  read_le : h.read ≤ h.data.length
  size_le : b.respSize ≤ hweMaxResponse
  inside : ∀ off, b.respPtr = some off → off + b.respSize ≤ hweMaxResponse

/-- What a statement finds besides: between transfers, and wherever nothing was begun, the window is
a piece of what is left of the message. -/
def SpiPc.At (b : RespBuffer) (h : Chunked.Held Source UInt8) : SpiPc w → Prop
  | .found _ pair => b.Window h ∧ ∀ p, pair = some p → p.Valid
  | .pending _ => b.Window h ∧ b.respSize ≠ 0
  | .sized _ sz => b.Window h ∧ b.respSize ≠ 0 ∧ sz ≤ b.respSize
  | .copied _ sz _ => sz ≤ b.respSize ∧ ∃ off, b.respPtr = some off ∧
      (b.respSize ≠ sz → h.read = off + sz ∧ off + b.respSize ≤ h.data.length)
  | .shrunk _ sz _ => ∃ off, b.respPtr = some off ∧ off + sz + b.respSize ≤ hweMaxResponse ∧
      (b.respSize ≠ 0 → h.read = off + sz ∧ off + sz + b.respSize ≤ h.data.length)
  | .filled p => h.read = 0 ∧ p.resp.length ≤ h.data.length
  | .resized => h.read = 0 ∧ b.respSize ≤ h.data.length
  | _ => b.Window h

section

variable {b b' : RespBuffer} {h h' : Chunked.Held Source UInt8}

theorem RespBuffer.Window.kept (hb : b.Window h) : b.Kept h := by
  have hle := hb.size_le
  have hmax := hb.data_le
  refine ⟨hb.data_le, hb.resp, ?_, ?_, hb.inside⟩
  · omega
  · omega

/-- A buffer and a message that fit together for the statement `pc`. -/
def SpiPc.Fits (pc : SpiPc w) (b : RespBuffer) (h : Chunked.Held Source UInt8) : Prop :=
  b.Kept h ∧ pc.At b h

/-- What a statement has to leave behind. -/
def SpiPc.Done (h : Chunked.Held Source UInt8) (out : SpiPc w × RespBuffer × List RespAct) : Prop :=
  ∃ h', Run Chunked.Step h out.2.2 h' ∧ out.1.Fits out.2.1 h'

theorem SpiPc.Done.kept {pc : SpiPc w} (hfits : pc.Fits b h) : SpiPc.Done h (pc, b, []) :=
  ⟨h, .nil h, hfits⟩

theorem SpiPc.Done.window {pc : SpiPc w} (hb : b.Window h) (hpc : pc.At b h) :
    SpiPc.Done h (pc, b, []) :=
  SpiPc.Done.kept ⟨hb.kept, hpc⟩

theorem SpiPc.Done.discarded {rx : Option (List UInt8)} (hb : b.Window h) :
    SpiPc.Done (w := w) h (.finished rx, b.discard, [.discard]) := by
  have hnext := hb.discard
  exact ⟨.empty, Run.single ⟨trivial, rfl⟩, hnext.kept, hnext⟩

/-- **The branch taken** by a transfer. -/
theorem spiBranch_done {t : SpiTransfer} {pair : Option (Pair w)} (hb : b.Window h)
    (hpair : ∀ p, pair = some p → p.Valid) :
    ∃ out, spiBranch t pair b = .ok out ∧ SpiPc.Done h out := by
  unfold spiBranch
  split
  · exact ⟨_, rfl, .discarded hb⟩
  · split
    · rename_i hsize
      exact ⟨_, rfl, .window hb ⟨hb, hsize⟩⟩
    · exact ⟨_, rfl, .window hb hb⟩
  · cases pair with
    | none => exact ⟨_, rfl, .discarded hb⟩
    | some p =>
        have hlen := (hpair p rfl).resp_le
        have hsize := hb.kept.size_le
        have hfill : b.fill p.resp = .ok _ := dif_pos hlen
        dsimp only
        rw [hfill, Except.ok_bind]
        refine ⟨_, rfl, ⟨some .request, p.resp, 0⟩, Run.single ⟨trivial, rfl⟩, ?_, rfl, le_rfl⟩
        exact ⟨hlen, List.take_left, Nat.zero_le _, hsize, hb.inside⟩
  · exact ⟨_, rfl, .window hb hb⟩

/-- **The copy of a read.** -/
theorem peek_done {t : SpiTransfer} {sz : Nat} (hb : b.Window h) (hne : b.respSize ≠ 0)
    (hsz : sz ≤ b.respSize) :
    ∃ rx, b.peek sz = .ok rx ∧ SpiPc.Done (w := w) h (.copied t sz rx, b, [.deliver rx]) := by
  have hle := hb.size_le
  have hunread := hb.length_unread
  have hptr := hb.ptr hne
  have hlen : (h.unread.take sz).length = sz := by
    rw [List.length_take]
    omega
  have hsome : h.unread ≠ [] := by
    intro hnil
    rw [hnil, List.length_nil] at hunread
    omega
  refine ⟨_, hb.peek hne hsz, { h with read := h.read + (h.unread.take sz).length }, ?_, ?_, ?_⟩
  · exact Run.single ⟨⟨hsome, List.take_prefix _ _⟩, rfl⟩
  · refine ⟨hb.data_le, hb.resp, ?_, hb.kept.size_le, hb.inside⟩
    change h.read + (h.unread.take sz).length ≤ h.data.length
    omega
  · refine ⟨hsz, h.read, hptr, ?_⟩
    intro _
    exact ⟨congrArg (h.read + ·) hlen, hle⟩

/-- **The chunk taken out of the window.** -/
theorem shrink_done {t : SpiTransfer} {sz : Nat} {rx : List UInt8} (hb : b.Kept h)
    (hcopied : (SpiPc.copied t sz rx : SpiPc w).At b h) :
    SpiPc.Done (w := w) h (.shrunk t sz rx, b.shrink sz, []) := by
  obtain ⟨hsz, off, hptr, hrest⟩ := hcopied
  have hsize : (b.shrink sz).respSize = b.respSize - sz := RespBuffer.respSize_shrink hsz hb.size_le
  have hinside := hb.inside off hptr
  have hmax := hb.size_le
  apply SpiPc.Done.kept
  refine ⟨⟨hb.data_le, hb.resp, hb.read_le, ?_, ?_⟩, off, hptr, ?_, ?_⟩
  · omega
  · intro off' hoff
    have hbefore := hb.inside off' hoff
    omega
  · omega
  · intro hne
    obtain ⟨hread, hle⟩ := hrest (by omega)
    exact ⟨hread, by omega⟩

/-- **The window moved** behind the chunk. -/
theorem advance_done {sz : Nat} {rx : List UInt8} {rx' : Option (List UInt8)} {t : SpiTransfer}
    (hb : b.Kept h) (hshrunk : (SpiPc.shrunk t sz rx : SpiPc w).At b h) :
    SpiPc.Done (w := w) h (.finished rx', b.advance sz, []) := by
  obtain ⟨off, hptr, hmax, hrest⟩ := hshrunk
  have hread := hb.read_le
  have hmoved : (b.advance sz).respPtr = some (off + sz) := by
    change b.respPtr.map (· + sz) = _
    rw [hptr]
    rfl
  have hwindow : (b.advance sz).Window h := by
    refine ⟨hb.data_le, hb.resp, ?_, ?_, ?_⟩
    · change h.read + b.respSize ≤ h.data.length
      by_cases hzero : b.respSize = 0
      · omega
      · obtain ⟨hat, hle⟩ := hrest hzero
        omega
    · intro hne
      rw [hmoved, (hrest hne).1]
    · intro off' hoff
      rw [hmoved] at hoff
      obtain rfl := Option.some.inj hoff
      exact hmax
  exact .window hwindow hwindow

/-- **The new size of a write.** -/
theorem resize_done {p : Pair w} (hb : b.Kept h) (hread : h.read = 0)
    (hlen : p.resp.length ≤ h.data.length)
    (hfree : ∀ off, b.respPtr = some off → off + p.resp.length ≤ hweMaxResponse) :
    SpiPc.Done (w := w) h (.resized, { b with respSize := p.resp.length }, []) := by
  have hdata := hb.data_le
  apply SpiPc.Done.kept
  refine ⟨⟨hb.data_le, hb.resp, hb.read_le, ?_, hfree⟩, hread, hlen⟩
  change p.resp.length ≤ _
  omega

/-- **The pointer of a write.** -/
theorem place_done (hb : b.Kept h) (hread : h.read = 0) (hsize : b.respSize ≤ h.data.length) :
    SpiPc.Done (w := w) h (.placed, { b with respPtr := some 0 }, []) := by
  have hmax := hb.size_le
  have hwindow : RespBuffer.Window { b with respPtr := some 0 } h := by
    refine ⟨hb.data_le, hb.resp, ?_, fun _ => congrArg some hread.symm, ?_⟩
    · change h.read + b.respSize ≤ _
      omega
    · intro off hoff
      obtain rfl : 0 = off := Option.some.inj hoff
      change 0 + b.respSize ≤ _
      omega
  exact .window hwindow hwindow

/-- **One statement** that does no harm goes through and leaves a buffer that fits the next one. -/
theorem spiStmt_done {s : SpiSystem w} {acts : List RespAct} (hstore : StoreInv s.k)
    (hlisted : ∃ d ∈ s.k.devs, d.addr = s.priv.hwedev) (hfits : s.pc.Fits s.priv.buffer h)
    (hharmless : SpiHarmless s (.stmt acts)) :
    ∃ out, spiStmt s.k s.priv s.pc = .ok out ∧ SpiPc.Done h out := by
  obtain ⟨hkept, hat⟩ := hfits
  unfold SpiHarmless at hharmless
  unfold spiStmt
  cases hpc : s.pc with
  | idle => 
      rw [hpc] at hat
      exact ⟨_, rfl, .window hat hat⟩
  | entered t =>
      rw [hpc] at hat
      change s.priv.buffer.Window h at hat
      cases htx : t.txBuf with
      | none =>
          refine ⟨(.found t none, s.priv.buffer, []), ?_, .window hat ⟨hat, ?_⟩⟩
          · dsimp only
            rw [htx]
          · intro p hp
            exact absurd hp (Option.some_ne_none p).symm
      | some tx =>
          obtain ⟨d, hd, haddr⟩ := hlisted
          have hderef : s.k.deref s.priv.hwedev = .ok d := by
            rw [← haddr]
            exact hstore.deref_eq hd
          refine ⟨(.found t (findResponse d tx (toInt t.len.toNat)), s.priv.buffer, []), ?_,
            .window hat ⟨hat, ?_⟩⟩
          · dsimp only
            rw [htx]
            dsimp only
            rw [hderef, Except.ok_bind]
            rfl
          · intro p hp
            exact (hstore.ok d hd).valid p (List.mem_of_find?_eq_some hp)
  | found t pair =>
      rw [hpc] at hat
      exact spiBranch_done hat.1 hat.2
  | pending t =>
      rw [hpc] at hat
      obtain ⟨hwindow, hne⟩ := hat
      refine ⟨_, rfl, .window hwindow ⟨hwindow, hne, ?_⟩⟩
      split
      · omega
      · exact le_rfl
  | sized t sz =>
      rw [hpc] at hat
      obtain ⟨hwindow, hne, hsz⟩ := hat
      obtain ⟨rx, hpeek, hdone⟩ := peek_done (t := t) hwindow hne hsz
      dsimp only
      rw [hpeek, Except.ok_bind]
      exact ⟨_, rfl, hdone⟩
  | copied t sz rx =>
      rw [hpc] at hat
      exact ⟨_, rfl, shrink_done hkept hat⟩
  | shrunk t sz rx =>
      rw [hpc] at hat
      exact ⟨_, rfl, advance_done hkept hat⟩
  | filled p =>
      rw [hpc] at hat hharmless
      exact ⟨_, rfl, resize_done hkept hat.1 hat.2 hharmless⟩
  | resized =>
      rw [hpc] at hat
      exact ⟨_, rfl, place_done hkept hat.1 hat.2⟩
  | placed =>
      rw [hpc] at hat
      have hwindow : RespBuffer.Window { s.priv.buffer with async := false } h :=
        ⟨hat.data_le, hat.resp, hat.size_le, hat.ptr, hat.inside⟩
      exact ⟨_, rfl, .window hwindow hwindow⟩
  | finished rx =>
      rw [hpc] at hat
      exact ⟨_, rfl, .window hat hat⟩

theorem hweSpiAsyncRx_accepted {dev : SpiPriv} {pair : Pair w} {buffer : RespBuffer}
    (haccepted : dev.buffer.refusesAsync = false)
    (hload : dev.buffer.load true pair.resp = .ok buffer) :
    hweSpiAsyncRx pair dev = .ok ([.load .timer pair.resp], buffer) := by
  unfold hweSpiAsyncRx
  rw [if_neg (by simp [haccepted]), hload]
  rfl

/-- **A delivery** that does no harm leaves a buffer that fits the statement to run next. -/
theorem hweSpiAsyncRx_done {s : SpiSystem w} {pair : Pair w} {acts : List RespAct}
    (hvalid : pair.Valid) (hfits : s.pc.Fits s.priv.buffer h)
    (hharmless : SpiHarmless s (.asyncRx pair acts)) :
    ∃ out, hweSpiAsyncRx pair s.priv = .ok out ∧ SpiPc.Done h (s.pc, out.2, out.1) := by
  obtain ⟨hkept, hat⟩ := hfits
  cases hrefused : s.priv.buffer.refusesAsync with
  | true =>
      refine ⟨([], s.priv.buffer), ?_, .kept ⟨hkept, hat⟩⟩
      unfold hweSpiAsyncRx
      exact if_pos hrefused
  | false =>
      obtain ⟨buffer, hload, hholds⟩ := RespBuffer.Holds.load s.priv.buffer .timer hvalid.resp_le
      have hwindow := hholds.toWindow
      have hsize : buffer.respSize = pair.resp.length := (hholds.size.trans (Nat.zero_add _)).symm
      have hpos := hvalid.resp_pos
      have hmax := hvalid.resp_le
      have hptr : buffer.respPtr = some 0 := hholds.ptr (by omega)
      refine ⟨_, hweSpiAsyncRx_accepted hrefused hload, ⟨some .timer, pair.resp, 0⟩,
        Run.single ⟨trivial, rfl⟩, hwindow.kept, ?_⟩
      have hharmless := hharmless hrefused
      dsimp only
      cases hpc : s.pc with
      | found t found =>
          rw [hpc] at hat
          exact ⟨hwindow, hat.2⟩
      | pending t => exact ⟨hwindow, by omega⟩
      | sized t sz =>
          rw [hpc] at hharmless
          exact ⟨hwindow, by omega, by rw [hsize]; exact hharmless⟩
      | copied t sz rx =>
          rw [hpc] at hharmless
          change sz = 0 ∨ _ at hharmless
          refine ⟨by omega, 0, hptr, ?_⟩
          change _ → 0 = 0 + sz ∧ 0 + buffer.respSize ≤ pair.resp.length
          omega
      | shrunk t sz rx =>
          rw [hpc] at hharmless
          obtain rfl : sz = 0 := hharmless
          refine ⟨0, hptr, by omega, ?_⟩
          change _ → 0 = 0 + 0 ∧ 0 + 0 + buffer.respSize ≤ pair.resp.length
          omega
      | filled p =>
          rw [hpc] at hharmless
          exact ⟨rfl, hharmless⟩
      | resized => exact ⟨rfl, hsize.le⟩
      | _ => exact hwindow

end

/-! ### Runs whose steps do no harm -/

def SpiStepHarmless (HZ : Nat) (s : SpiSystem w) (e : SpiEvent w) (s' : SpiSystem w) : Prop :=
  SpiStep HZ s e s' ∧ SpiHarmless s e

section

variable {HZ : Nat} {s s' : SpiSystem w} {acts : List RespAct} {es : List (SpiEvent w)}

/-- After the actions `acts` the buffer fits the message they left, for the statement to run next. -/
structure SpiInv (s : SpiSystem w) (acts : List RespAct) : Prop where
  store : StoreInv s.k
  sems : ∀ iface, s.k.sems iface = 1
  listed : ∃ d ∈ s.k.devs, d.addr = s.priv.hwedev
  run : Run Chunked.Step .empty acts (Chunked.held acts)
  fits : s.pc.Fits s.priv.buffer (Chunked.held acts)

/-- The invariant after a step that ends as `Done` says. -/
theorem SpiInv.done (h : SpiInv s acts) {pc : SpiPc w} {buffer : RespBuffer} {acts' : List RespAct}
    (hdone : SpiPc.Done (Chunked.held acts) (pc, buffer, acts')) :
    SpiInv { s with pc := pc, priv := { s.priv with buffer := buffer } } (acts ++ acts') := by
  obtain ⟨h', hrun, hfits⟩ := hdone
  have hheld : h' = Chunked.held (acts ++ acts') := by
    rw [Chunked.held_append]
    exact Chunked.Run.eq_foldl hrun
  subst hheld
  exact ⟨h.store, h.sems, h.listed, Run.append_iff.mpr ⟨_, h.run, hrun⟩, hfits⟩

/-- **Every harmless step keeps the invariant.** -/
theorem SpiInv.step (h : SpiInv s acts) {e : SpiEvent w} (hstep : SpiStepHarmless HZ s e s') :
    SpiInv s' (acts ++ e.acts) := by
  obtain ⟨hstep, hharmless⟩ := hstep
  cases e with
  | start t =>
      obtain ⟨hidle, rfl⟩ := hstep
      have hfits := h.fits
      rw [hidle] at hfits
      change SpiInv _ (acts ++ [])
      rw [List.append_nil]
      exact ⟨h.store, h.sems, h.listed, h.run, hfits⟩
  | stmt acts' =>
      obtain ⟨_, buffer, hrun, hpriv, hk⟩ := hstep
      obtain ⟨out, hrun₁, hdone⟩ := spiStmt_done h.store h.listed h.fits hharmless
      obtain rfl := Except.ok.inj (hrun₁.symm.trans hrun)
      have hnext := h.done hdone
      rcases s' with ⟨k', priv', pc'⟩
      obtain rfl : priv' = _ := hpriv
      obtain rfl : k' = s.k := hk
      exact hnext
  | asyncRx pair acts' =>
      obtain ⟨_, ⟨d, hd, _, hp⟩, buffer, hrun, rfl⟩ := hstep
      have hvalid := (h.store.ok d hd).valid pair hp
      obtain ⟨out, hrun₁, hdone⟩ := hweSpiAsyncRx_done hvalid h.fits hharmless
      obtain rfl := Except.ok.inj (hrun₁.symm.trans hrun)
      exact h.done hdone
  | store e =>
      obtain ⟨hsys, hpriv, hpc, hlisted, _⟩ := hstep
      obtain ⟨hstore, hsems⟩ := hsys.inv ⟨h.store, h.sems⟩
      change SpiInv s' (acts ++ [])
      rw [List.append_nil]
      refine ⟨hstore, hsems, ?_, h.run, ?_⟩
      · rw [hpriv]
        exact hlisted
      · rw [hpriv, hpc]
        exact h.fits

/-- **Every run of harmless steps keeps the invariant**, for the actions of the run. -/
theorem SpiInv.of_run (h : SpiInv s acts) (hrun : Run (SpiStepHarmless HZ) s es s') :
    SpiInv s' (acts ++ es.flatMap SpiEvent.acts) := by
  induction hrun generalizing acts with
  | nil =>
      rw [List.flatMap_nil, List.append_nil]
      exact h
  | cons hstep _ ih =>
      rw [List.flatMap_cons, ← List.append_assoc]
      exact ih (h.step hstep)

/-- No statement stops the kernel, whether it does harm or not. -/
theorem SpiInv.stmt_runs (h : SpiInv s acts) : ∃ out, spiStmt s.k s.priv s.pc = .ok out := by
  by_cases hfilled : ∃ p, s.pc = .filled p
  · obtain ⟨p, hpc⟩ := hfilled
    rw [hpc]
    exact ⟨_, rfl⟩
  · have hharmless : SpiHarmless s (.stmt []) := by
      unfold SpiHarmless
      dsimp only
      split
      · rename_i p hpc
        exact absurd ⟨p, hpc⟩ hfilled
      · trivial
    obtain ⟨out, hrun, _⟩ := spiStmt_done h.store h.listed h.fits hharmless
    exact ⟨out, hrun⟩

/-- **The window of an spi device.** In every state of a run whose steps do no harm the window stays
inside `resp` and no subtraction wraps, every chunk that is delivered is the next piece of the one
response loaded last, and between transfers the window is a piece of what is left of it. -/
theorem spi_window {k₀ : Kernel w} (hreach : SysReachable HZ k₀) {hwedev : Nat}
    (hlisted : ∃ d ∈ k₀.devs, d.addr = hwedev)
    (hrun : Run (SpiStepHarmless HZ) ⟨k₀, .newDev hwedev, .idle⟩ es s) :
    let acts := es.flatMap SpiEvent.acts
    let held := Chunked.held acts
    let buffer := s.priv.buffer
    (∀ off, buffer.respPtr = some off → off + buffer.respSize ≤ hweMaxResponse) ∧
    buffer.respSize ≤ hweMaxResponse ∧
    (∀ t sz rx, s.pc = .copied t sz rx → sz ≤ buffer.respSize) ∧
    (∀ pre chunk post, acts = pre ++ .deliver chunk :: post → chunk <+: (Chunked.held pre).unread) ∧
    (∀ pre source resp mid post, acts = pre ++ .load source resp :: (mid ++ post) →
      (∀ a ∈ mid, a.Keeps) → Chunked.delivered mid <+: resp) ∧
    (s.pc = .idle → held.read + buffer.respSize ≤ held.data.length ∧
      (buffer.respSize ≠ 0 → buffer.respPtr = some held.read)) ∧
    ∃ out, spiStmt s.k s.priv s.pc = .ok out := by
  obtain ⟨hstore, hsems⟩ := hreach.inv
  have hwindow := RespBuffer.Holds.zeroed.toWindow
  have hstart : SpiInv (⟨k₀, .newDev hwedev, .idle⟩ : SpiSystem w) [] :=
    ⟨hstore, hsems, hlisted, .nil _, hwindow.kept, hwindow⟩
  have hinv := hstart.of_run hrun
  rw [List.nil_append] at hinv
  obtain ⟨hkept, hat⟩ := hinv.fits
  intro acts held buffer
  have hacts : Run Chunked.Step .empty acts held := hinv.run
  refine ⟨hkept.inside, hkept.size_le, ?_, ?_, ?_, ?_, hinv.stmt_runs⟩
  · intro t sz rx hpc
    rw [hpc] at hat
    exact hat.1
  · intro pre chunk post heq
    rw [heq] at hacts
    exact (Chunked.Run.lawful hacts).2
  · intro pre source resp mid post heq hkeep
    rw [heq] at hacts
    exact Chunked.Run.delivered_prefix hacts hkeep
  · intro hpc
    rw [hpc] at hat
    exact ⟨hat.size_le, hat.ptr⟩

end

/-- A read of `len` bytes. -/
def SpiTransfer.readOf (len : UInt32) : SpiTransfer :=
  { txBuf := none
    rxBuf := true
    len := len
    len_le := fun _ htx => absurd htx (Option.some_ne_none _).symm }

/-- A device with two timer pairs, and a read of two bytes begun when the longer response was
delivered. -/
theorem sampleRead : ∃ (k : Kernel 64) (d : Dev 64) (q : Pair 64) (b : RespBuffer)
    (es : List (SpiEvent 64)), SysReachable 250 k ∧ d ∈ k.devs ∧ d.addr = 1 ∧ q ∈ d.pairList ∧
      q.asyncRx = true ∧ q.resp = [0xcc] ∧ b.respSize = 2 ∧ b.refusesAsync = false ∧
      b.resp.take 2 = [0xaa, 0xbb] ∧
      Run (SpiStepHarmless 250) ⟨k, .newDev 1, .idle⟩ es ⟨k, ⟨1, b⟩, .pending (.readOf 2)⟩ ∧
      es.flatMap SpiEvent.acts = [.load .timer [0xaa, 0xbb]] := by
  have hlist : (execAll 250 [.hweAddDevice .spi .succeeds,
      .devAddStore 1 (bytes "timer:8ms=aabb\n") (.succeeds 64),
      .devAddStore 1 (bytes "timer:9ms=cc\n") (.succeeds 64)] (Kernel.loaded 64)).toOption.map (fun k =>
        k.devs.map fun d => (d.addr, d.pairList.map fun p => (p.asyncRx, p.resp))) =
      some [(1, [(true, [0xaa, 0xbb]), (true, [0xcc])])] := by
    decide +kernel
  cases hstore : execAll 250 [.hweAddDevice .spi .succeeds,
      .devAddStore 1 (bytes "timer:8ms=aabb\n") (.succeeds 64),
      .devAddStore 1 (bytes "timer:9ms=cc\n") (.succeeds 64)] (Kernel.loaded 64) with
  | error fault => simp [hstore, Except.toOption] at hlist
  | ok k =>
      simp only [hstore, Except.toOption, Option.map_some, Option.some.injEq] at hlist
      obtain ⟨d, hd, hpairs⟩ : ∃ d ∈ k.devs, (d.addr, d.pairList.map fun p => (p.asyncRx, p.resp)) =
          (1, [(true, [0xaa, 0xbb]), (true, [0xcc])]) := by
        apply List.mem_map.mp
        rw [hlist]
        exact List.mem_singleton_self _
      obtain ⟨haddr, hpairs⟩ := Prod.mk.inj hpairs
      obtain ⟨p, hp, hpeq⟩ : ∃ p ∈ d.pairList, (p.asyncRx, p.resp) = (true, [0xaa, 0xbb]) := by
        apply List.mem_map.mp
        rw [hpairs]
        exact List.mem_cons_self
      obtain ⟨q, hq, hqeq⟩ : ∃ q ∈ d.pairList, (q.asyncRx, q.resp) = (true, [0xcc]) := by
        apply List.mem_map.mp
        rw [hpairs]
        exact List.mem_cons_of_mem _ List.mem_cons_self
      obtain ⟨hpasync, hpresp⟩ := Prod.mk.inj hpeq
      obtain ⟨hqasync, hqresp⟩ := Prod.mk.inj hqeq
      have hlen : p.resp.length ≤ hweMaxResponse := by
        rw [hpresp]
        decide
      obtain ⟨b, hload, hresp, hptr, hsize, hasync⟩ := RespBuffer.zeroed.load_eq true hlen
      have hrefuses : b.refusesAsync = false := by simp [RespBuffer.refusesAsync, hptr, hasync]
      have hrx : hweSpiAsyncRx p (.newDev 1) = .ok ([.load .timer p.resp], b) :=
        hweSpiAsyncRx_accepted rfl hload
      rw [hpresp] at hresp hsize hrx
      have hne : b.respSize ≠ 0 := by rw [hsize]; decide
      refine ⟨k, d, q, b, [.asyncRx p [.load .timer [0xaa, 0xbb]], .start (.readOf 2), .stmt [],
        .stmt []], (Reachable.of_execAll hstore).sys, hd, haddr, hq, hqasync, hqresp, hsize, hrefuses,
        by rw [hresp]; rfl, ?_, rfl⟩
      have hdeliver : SpiStepHarmless 250 ⟨k, .newDev 1, .idle⟩
          (.asyncRx p [.load .timer [0xaa, 0xbb]]) ⟨k, ⟨1, b⟩, .idle⟩ :=
        ⟨⟨hpasync, ⟨d, hd, haddr, hp⟩, b, hrx, rfl⟩, fun _ => trivial⟩
      have hfound : SpiStepHarmless 250 ⟨k, ⟨1, b⟩, .entered (.readOf 2)⟩ (.stmt [])
          ⟨k, ⟨1, b⟩, .found (.readOf 2) none⟩ := ⟨⟨by simp, b, rfl, rfl, rfl⟩, trivial⟩
      have hpending : SpiStepHarmless 250 ⟨k, ⟨1, b⟩, .found (.readOf 2) none⟩ (.stmt [])
          ⟨k, ⟨1, b⟩, .pending (.readOf 2)⟩ := ⟨⟨by simp, b, if_pos hne, rfl, rfl⟩, trivial⟩
      exact .cons hdeliver (.cons ⟨⟨rfl, rfl⟩, trivial⟩ (.cons hfound (Run.single hpending)))

/-- A delivery before the size of the read is taken does no harm: the read is of the new response. -/
theorem spi_window_applies : ∃ (s : SpiSystem 64) (es : List (SpiEvent 64)),
    es.flatMap SpiEvent.acts = [.load .timer [0xaa, 0xbb], .load .timer [0xcc], .deliver [0xcc]] ∧
      [0xcc] <+: (Chunked.held [.load .timer [0xaa, 0xbb], .load .timer [0xcc]] :
        Chunked.Held Source UInt8).unread ∧
      s.priv.buffer.respSize ≤ hweMaxResponse := by
  obtain ⟨k, d, q, b, es, hreach, hd, haddr, hq, hqasync, hqresp, _, hrefuses, _, hrun, hacts⟩ :=
    sampleRead
  have hlen : q.resp.length ≤ hweMaxResponse := by
    rw [hqresp]
    decide
  obtain ⟨b', hload, hresp, hptr, hsize, hasync⟩ := b.load_eq true hlen
  have hrx : hweSpiAsyncRx q ⟨1, b⟩ = .ok ([.load .timer q.resp], b') :=
    hweSpiAsyncRx_accepted hrefuses hload
  rw [hqresp] at hresp hsize hrx
  have hpeek : b'.peek 1 = .ok [0xcc] := by
    unfold RespBuffer.peek
    rw [if_neg (by decide), hptr]
    dsimp only
    rw [if_pos (by decide), hresp]
    rfl
  have hdeliver : SpiStepHarmless 250 ⟨k, ⟨1, b⟩, .pending (.readOf 2)⟩
      (.asyncRx q [.load .timer [0xcc]]) ⟨k, ⟨1, b'⟩, .pending (.readOf 2)⟩ :=
    ⟨⟨hqasync, ⟨d, hd, haddr, hq⟩, b', hrx, rfl⟩, fun _ => trivial⟩
  have hsized : SpiStepHarmless 250 ⟨k, ⟨1, b'⟩, .pending (.readOf 2)⟩ (.stmt [])
      ⟨k, ⟨1, b'⟩, .sized (.readOf 2) 1⟩ := by
    refine ⟨⟨by simp, b', ?_, rfl, rfl⟩, trivial⟩
    change Except.ok (SpiPc.sized _ (if b'.respSize > 2 then 2 else b'.respSize), b', []) = _
    rw [hsize]
    rfl
  have hcopied : SpiStepHarmless 250 ⟨k, ⟨1, b'⟩, .sized (.readOf 2) 1⟩ (.stmt [.deliver [0xcc]])
      ⟨k, ⟨1, b'⟩, .copied (.readOf 2) 1 [0xcc]⟩ := by
    refine ⟨⟨by simp, b', ?_, rfl, rfl⟩, trivial⟩
    change (b'.peek 1 >>= _) = _
    rw [hpeek]
    rfl
  have hmore := Run.cons hdeliver (.cons hsized (Run.single hcopied))
  have hall := spi_window hreach ⟨d, hd, haddr⟩ (hrun.append hmore)
  have hlog : (es ++ [SpiEvent.asyncRx q [.load .timer [0xcc]], .stmt [], .stmt [.deliver [0xcc]]]).flatMap
      SpiEvent.acts = [.load .timer [0xaa, 0xbb], .load .timer [0xcc], .deliver [0xcc]] := by
    rw [List.flatMap_append, hacts]
    rfl
  exact ⟨_, _, hlog, hall.2.2.2.1 _ _ [] hlog, hall.2.1⟩

/-- **A delivery in the middle of a read.** The chunk that is copied is of neither response, and
`resp_size` wraps. -/
theorem delivery_amid_read : ∃ (k : Kernel 64) (s : SpiSystem 64) (es : List (SpiEvent 64)),
    SysReachable 250 k ∧ (∃ d ∈ k.devs, d.addr = 1) ∧
      Run (SpiStep 250) ⟨k, .newDev 1, .idle⟩ es s ∧
      es.flatMap SpiEvent.acts =
        [.load .timer [0xaa, 0xbb], .load .timer [0xcc], .deliver [0xcc, 0xbb]] ∧
      ¬[0xcc, 0xbb] <+: (Chunked.held [.load .timer [0xaa, 0xbb], .load .timer [0xcc]] :
        Chunked.Held Source UInt8).unread ∧
      s.priv.buffer.respPtr = some 0 ∧ s.priv.buffer.respSize = 2 ^ 64 - 1 := by
  obtain ⟨k, d, q, b, es, hreach, hd, haddr, hq, hqasync, hqresp, hbsize, hrefuses, hbresp, hrun,
    hacts⟩ := sampleRead
  have hlen : q.resp.length ≤ hweMaxResponse := by
    rw [hqresp]
    decide
  obtain ⟨b', hload, hresp, hptr, hsize, hasync⟩ := b.load_eq true hlen
  have hrx : hweSpiAsyncRx q ⟨1, b⟩ = .ok ([.load .timer q.resp], b') :=
    hweSpiAsyncRx_accepted hrefuses hload
  rw [hqresp] at hresp hsize hrx
  have hpeek : b'.peek 2 = .ok [0xcc, 0xbb] := by
    have hdrop : (b.resp.drop 1).take 1 = [0xbb] := by
      have hslice := @List.drop_take _ 1 2 b.resp
      rw [hbresp] at hslice
      exact hslice.symm
    unfold RespBuffer.peek
    rw [if_neg (by decide), hptr]
    dsimp only
    rw [if_pos (by decide), hresp]
    change Except.ok (0xcc :: (b.resp.drop 1).take 1) = _
    rw [hdrop]
  have hsized : SpiStep 250 ⟨k, ⟨1, b⟩, .pending (.readOf 2)⟩ (.stmt [])
      ⟨k, ⟨1, b⟩, .sized (.readOf 2) 2⟩ := by
    refine ⟨by simp, b, ?_, rfl, rfl⟩
    change Except.ok (SpiPc.sized _ (if b.respSize > 2 then 2 else b.respSize), b, []) = _
    rw [hbsize]
    rfl
  have hdeliver : SpiStep 250 ⟨k, ⟨1, b⟩, .sized (.readOf 2) 2⟩ (.asyncRx q [.load .timer [0xcc]])
      ⟨k, ⟨1, b'⟩, .sized (.readOf 2) 2⟩ := ⟨hqasync, ⟨d, hd, haddr, hq⟩, b', hrx, rfl⟩
  have hcopied : SpiStep 250 ⟨k, ⟨1, b'⟩, .sized (.readOf 2) 2⟩ (.stmt [.deliver [0xcc, 0xbb]])
      ⟨k, ⟨1, b'⟩, .copied (.readOf 2) 2 [0xcc, 0xbb]⟩ := by
    refine ⟨by simp, b', ?_, rfl, rfl⟩
    change (b'.peek 2 >>= _) = _
    rw [hpeek]
    rfl
  have hshrunk : SpiStep 250 ⟨k, ⟨1, b'⟩, .copied (.readOf 2) 2 [0xcc, 0xbb]⟩ (.stmt [])
      ⟨k, ⟨1, b'.shrink 2⟩, .shrunk (.readOf 2) 2 [0xcc, 0xbb]⟩ :=
    ⟨by simp, b'.shrink 2, rfl, rfl, rfl⟩
  have hmore := Run.cons hsized (.cons hdeliver (.cons hcopied (Run.single hshrunk)))
  refine ⟨k, _, _, hreach, ⟨d, hd, haddr⟩,
    (hrun.mono fun _ _ _ hstep => hstep.1).append hmore, ?_, by decide, hptr, ?_⟩
  · rw [List.flatMap_append, hacts]
    rfl
  · change toSizeT ((b'.respSize : Int) - (2 : Nat)) = _
    rw [hsize]
    rfl

end Hwemu
