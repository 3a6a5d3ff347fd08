import Hwemu.Spi
import Hwemu.PairBounds
import Hwemu.PairMap
import Mathlib.Data.List.Find

/-!
# An spi device as a queue

A transfer with nothing in between works on a queue of pending bytes: a read takes bytes out and is
filled up with zeros, a write puts the response of its request in place of what was there, and a
transfer in both directions empties it.
-/

namespace Hwemu

variable {w HZ : Nat}

/-- The part of `hwespi_transfer_one` that looks for the pair of a request. -/
def spiFind (k : Kernel w) (t : SpiTransfer) (dev : SpiPriv) : Except Fault (Option (Pair w)) :=
  match t.txBuf with
  | none => .ok none
  | some tx => do
      let hwedev ← k.deref dev.hwedev
      return findResponse hwedev tx (toInt t.len.toNat)

/-- `hwespi_transfer_one` with nothing in between: what is in the buffer of the reader afterwards, and
the private device. -/
def hwespiTransferOne (k : Kernel w) (t : SpiTransfer) (dev : SpiPriv) :
    Except Fault (Option (List UInt8) × SpiPriv) := do
  let pair ← spiFind k t dev
  match t.rxBuf, t.txBuf with
  | true, some _ => return (some (t.padded []), { dev with buffer := dev.buffer.discard })
  | true, none =>
      if dev.buffer.respSize ≠ 0 then
        let sz := if dev.buffer.respSize > t.len.toNat then t.len.toNat else dev.buffer.respSize
        let rx ← dev.buffer.peek sz
        return (some (t.padded rx), { dev with buffer := (dev.buffer.shrink sz).advance sz })
      else return (some (t.padded []), dev)
  | false, some _ =>
      match pair with
      | some pair => do
          let buffer ← dev.buffer.load false pair.resp
          return (none, { dev with buffer := buffer })
      | none => return (none, { dev with buffer := dev.buffer.discard })
  | false, none => return (none, dev)

/-! ### The queue -/

/-- The bytes of the response that are still to be read. -/
def RespBuffer.pending (b : RespBuffer) : List UInt8 :=
  match b.respPtr with
  | none => []
  | some off => (b.resp.drop off).take b.respSize

/-- As many pending bytes as are left, and zeros for the rest. -/
def zeroFilled (n : Nat) (q : List UInt8) : List UInt8 := q.take n ++ List.replicate (n - q.length) 0

/-- The response to the transmitted bytes, if they are a request. -/
def Dev.response (d : Dev w) (request : List UInt8) : Option (List UInt8) :=
  (d.pairList.find? fun p => !p.asyncRx && p.req == request).map (·.resp)

/-- What a transfer is to the queue: what is read, and what is pending afterwards. -/
def queueTransfer (d : Dev w) (t : SpiTransfer) (q : List UInt8) : Option (List UInt8) × List UInt8 :=
  match t.rxBuf, t.txBuf with
  | true, none => (some (zeroFilled t.len.toNat q), q.drop t.len.toNat)
  | false, some tx => (none, (d.response (tx.take t.len.toNat)).getD [])
  | true, some _ => (some (List.replicate t.len.toNat 0), [])
  | false, none => (none, q)

/-- The window lies inside `resp`. -/
def RespBuffer.Inside (b : RespBuffer) : Prop :=
  b.respSize ≠ 0 → ∃ off, b.respPtr = some off ∧ off + b.respSize ≤ hweMaxResponse

section

variable {b : RespBuffer}

theorem RespBuffer.pending_eq {off : Nat} (hptr : b.respPtr = some off) :
    b.pending = (b.resp.drop off).take b.respSize := by
  rw [RespBuffer.pending, hptr]

theorem RespBuffer.pending_zero (hzero : b.respSize = 0) : b.pending = [] := by
  unfold RespBuffer.pending
  rw [hzero]
  cases b.respPtr with
  | none => rfl
  | some off => rfl

theorem RespBuffer.Inside.length_pending (hb : b.Inside) : b.pending.length = b.respSize := by
  by_cases hzero : b.respSize = 0
  · rw [RespBuffer.pending_zero hzero, hzero]
    rfl
  · obtain ⟨off, hptr, hle⟩ := hb hzero
    rw [RespBuffer.pending_eq hptr, List.length_take, List.length_drop, b.length_resp]
    omega

/-- **A read** of the pending bytes. -/
theorem RespBuffer.Inside.read (hb : b.Inside) (hne : b.respSize ≠ 0) {sz : Nat} (hsz : sz ≤ b.respSize) :
    b.peek sz = .ok (b.pending.take sz) ∧ ((b.shrink sz).advance sz).pending = b.pending.drop sz ∧
      ((b.shrink sz).advance sz).Inside := by
  obtain ⟨off, hptr, hle⟩ := hb hne
  have hsize : ((b.shrink sz).advance sz).respSize = b.respSize - sz :=
    RespBuffer.respSize_shrink hsz (by omega)
  have hmoved : ((b.shrink sz).advance sz).respPtr = some (off + sz) := by
    change b.respPtr.map (· + sz) = _
    rw [hptr]
    rfl
  refine ⟨?_, ?_, ?_⟩
  · unfold RespBuffer.peek
    split
    · rename_i hzero
      rw [hzero]
      rfl
    · rw [hptr]
      dsimp only
      rw [if_pos (by omega), RespBuffer.pending_eq hptr, List.take_take, Nat.min_eq_left hsz]
  · rw [RespBuffer.pending_eq hmoved, RespBuffer.pending_eq hptr, hsize, List.drop_take, List.drop_drop]
    rfl
  · intro _
    exact ⟨off + sz, hmoved, by omega⟩

/-- The read of a message or a transfer, which may ask for more than is pending. -/
theorem RespBuffer.Inside.read_min (hb : b.Inside) (hne : b.respSize ≠ 0) (len : Nat) :
    let sz := if b.respSize > len then len else b.respSize
    b.peek sz = .ok (b.pending.take len) ∧ ((b.shrink sz).advance sz).pending = b.pending.drop len ∧
      ((b.shrink sz).advance sz).Inside := by
  have hpending := hb.length_pending
  split
  · rename_i hgt
    exact hb.read hne hgt.le
  · rename_i hle
    have hread := hb.read hne le_rfl
    rw [← hpending, List.take_length, List.drop_length] at hread
    rw [← hpending, List.take_of_length_le (by omega), List.drop_of_length_le (by omega)]
    exact hread

theorem RespBuffer.Inside.discard (b : RespBuffer) : b.discard.Inside := fun hne => absurd rfl hne

theorem RespBuffer.load_pending (b : RespBuffer) (async : Bool) {data : List UInt8}
    (hlen : data.length ≤ hweMaxResponse) :
    ∃ b', b.load async data = .ok b' ∧ b'.pending = data ∧ b'.Inside ∧ b'.async = async := by
  obtain ⟨b', hload, hresp, hptr, hsize, hasync⟩ := b.load_eq async hlen
  refine ⟨b', hload, ?_, ?_, hasync⟩
  · rw [RespBuffer.pending_eq hptr, hresp, hsize, List.drop_zero, List.take_left]
  · intro _
    exact ⟨0, hptr, by omega⟩

end

/-! ### One transfer -/

section

variable {k : Kernel w} {d : Dev w} {dev : SpiPriv} {t : SpiTransfer}

/-- The pair of a request is the one with these bytes, however the length is converted. -/
theorem findResponse_eq (hd : d.Ok) {tx : List UInt8} {len : Nat} (hlen : len ≤ tx.length)
    (hlt : len < 2 ^ 32) :
    findResponse d tx (toInt len) = d.pairList.find? fun p => !p.asyncRx && p.req == tx.take len := by
  unfold findResponse findPair
  apply List.find?_congr
  intro p hp
  cases hasync : p.asyncRx with
  | true => rw [Bool.not_true, Bool.false_and, Bool.false_and, Bool.false_and]
  | false =>
      have hreq := (((hd.valid p hp).sync hasync)).2
      have htake : (tx.take len).length = len := by
        rw [List.length_take]
        omega
      by_cases hint : len ≤ intMax
      · rw [toInt_of_le hint, toSizeT_of_le_intMax hint, Bool.not_false, Bool.true_and, Bool.true_and,
          Bool.eq_iff_iff, Bool.and_eq_true, beq_iff_eq, beq_iff_eq]
        constructor
        · exact And.right
        · intro heq
          exact ⟨heq ▸ htake, heq⟩
      · -- the length is negative as an `int`, and no request is as long
        have hbig : hweMaxRequest < toSizeT (toInt (len : Int)) := by
          unfold intMax at hint
          simp only [toInt, toSizeT, Int.bmod_def, hweMaxRequest]
          omega
        have hshort : hweMaxRequest < len := by
          unfold intMax at hint
          unfold hweMaxRequest
          omega
        have hne : p.req.length ≠ toSizeT (toInt (len : Int)) := by omega
        have hne' : p.req ≠ tx.take len := by
          intro heq
          rw [heq] at hreq
          omega
        rw [beq_eq_false_iff_ne.mpr hne, beq_eq_false_iff_ne.mpr hne', Bool.and_false, Bool.false_and]

theorem findResponse_map (hd : d.Ok) {tx : List UInt8} {len : Nat} (hlen : len ≤ tx.length)
    (hlt : len < 2 ^ 32) : (findResponse d tx (toInt len)).map (·.resp) = d.response (tx.take len) := by
  rw [findResponse_eq hd hlen hlt, Dev.response]

theorem padded_take (t : SpiTransfer) (q : List UInt8) :
    t.padded (q.take t.len.toNat) = zeroFilled t.len.toNat q := by
  unfold SpiTransfer.padded zeroFilled
  rw [List.length_take]
  congr 2
  omega

/-- **One transfer** is one operation on the queue. -/
theorem hwespiTransferOne_queue (hderef : k.deref dev.hwedev = .ok d) (hd : d.Ok)
    (hin : dev.buffer.Inside) (t : SpiTransfer) :
    ∃ b, hwespiTransferOne k t dev =
        .ok ((queueTransfer d t dev.buffer.pending).1, { dev with buffer := b }) ∧
      b.pending = (queueTransfer d t dev.buffer.pending).2 ∧ b.Inside ∧
      (t.txBuf = none → b.async = dev.buffer.async) ∧
      (t.txBuf ≠ none → b.pending ≠ [] → b.async = false) ∧
      (t.rxBuf = false → t.txBuf = none → b = dev.buffer) := by
  have hpending := hin.length_pending
  have hzeros : t.padded [] = zeroFilled t.len.toNat [] := by
    rw [← padded_take, List.take_nil]
  unfold hwespiTransferOne spiFind queueTransfer
  cases htx : t.txBuf with
  | none =>
      rw [Except.ok_bind]
      cases hrx : t.rxBuf with
      | false =>
          exact ⟨dev.buffer, rfl, rfl, hin, fun _ => rfl, fun h => absurd rfl h, fun _ _ => rfl⟩
      | true =>
          dsimp only
          by_cases hzero : dev.buffer.respSize = 0
          · have hnil := RespBuffer.pending_zero hzero
            rw [if_neg (not_not_intro hzero), hnil, hzeros, List.drop_nil]
            exact ⟨dev.buffer, rfl, hnil, hin, fun _ => rfl, fun h => absurd rfl h,
              fun h => absurd h (by decide)⟩
          · rw [if_pos hzero]
            obtain ⟨hpeek, hleft, hin'⟩ := hin.read_min hzero t.len.toNat
            rw [hpeek, Except.ok_bind, padded_take]
            exact ⟨_, rfl, hleft, hin', fun _ => rfl, fun h => absurd rfl h, fun h => absurd h (by decide)⟩
  | some tx =>
      dsimp only
      rw [hderef, Except.ok_bind]
      have hresponse := findResponse_map hd (t.len_le tx htx) t.len.toNat_lt
      cases hrx : t.rxBuf with
      | true =>
          have hread : t.padded [] = List.replicate t.len.toNat 0 := rfl
          refine ⟨dev.buffer.discard, ?_, RespBuffer.pending_zero rfl, RespBuffer.Inside.discard _,
            fun h => absurd h (by simp), ?_, fun h => absurd h (by decide)⟩
          · rw [← hread]
            rfl
          · intro _ hne
            exact absurd (RespBuffer.pending_zero rfl) hne
      | false =>
          dsimp only
          rw [← hresponse]
          cases hfind : findResponse d tx (toInt t.len.toNat) with
          | none =>
              refine ⟨dev.buffer.discard, rfl, RespBuffer.pending_zero rfl, RespBuffer.Inside.discard _,
                fun h => absurd h (by simp), ?_, fun _ h => absurd h (by simp)⟩
              intro _ hne
              exact absurd (RespBuffer.pending_zero rfl) hne
          | some p =>
              have hp : p ∈ d.pairList := List.mem_of_find?_eq_some hfind
              obtain ⟨b, hload, hnow, hin', hasync⟩ := dev.buffer.load_pending false (hd.valid p hp).resp_le
              refine ⟨b, ?_, hnow, hin', fun h => absurd h (by simp), fun _ _ => hasync,
                fun _ h => absurd h (by simp)⟩
              change (dev.buffer.load false p.resp >>= _) = _
              rw [hload]
              rfl

/-- Statements of the thread lead from one place to another, with nothing in between. -/
def SpiStmts (HZ : Nat) (s s' : SpiSystem w) : Prop :=
  ∃ es : List (SpiEvent w), (∀ e ∈ es, ∃ acts, e = .stmt acts) ∧ Run (SpiStep HZ) s es s'

namespace SpiStmts

variable {pair : Option (Pair w)}

theorem of_step {s s' : SpiSystem w} {acts : List RespAct} (h : SpiStep HZ s (.stmt acts) s') : SpiStmts HZ s s' :=
  ⟨[.stmt acts], by simp, Run.single h⟩

theorem trans {s s' s'' : SpiSystem w} (h : SpiStmts HZ s s') (h' : SpiStmts HZ s' s'') : SpiStmts HZ s s'' := by
  obtain ⟨es, hes, hrun⟩ := h
  obtain ⟨es', hes', hrun'⟩ := h'
  refine ⟨es ++ es', fun e he => ?_, hrun.append hrun'⟩
  rcases List.mem_append.mp he with he | he
  · exact hes e he
  · exact hes' e he

/-- The pair is looked up. -/
theorem find (hfind : spiFind k t dev = .ok pair) : SpiStmts HZ ⟨k, dev, .entered t⟩ ⟨k, dev, .found t pair⟩ := by
  have hfound : SpiStep HZ ⟨k, dev, .entered t⟩ (.stmt []) ⟨k, dev, .found t pair⟩ := by
    refine ⟨by simp, dev.buffer, ?_, rfl, rfl⟩
    unfold spiFind at hfind
    unfold spiStmt
    cases htx : t.txBuf with
    | none =>
        rw [htx] at hfind
        obtain rfl := Except.ok.inj hfind
        dsimp only
        rw [htx]
    | some tx =>
        rw [htx] at hfind
        obtain ⟨d, hd, hret⟩ := Except.bind_eq_ok_iff.mp hfind
        obtain rfl := Except.ok.inj hret
        dsimp only
        rw [htx]
        dsimp only
        rw [hd]
        rfl
  exact of_step hfound

/-- The branch that ends the transfer at once. -/
theorem branch {buffer : RespBuffer} (acts : List RespAct) {rx : Option (List UInt8)}
    (hbranch : spiBranch t pair dev.buffer = .ok (.finished rx, buffer, acts)) :
    SpiStmts HZ ⟨k, dev, .found t pair⟩ ⟨k, { dev with buffer := buffer }, .finished rx⟩ := by
  have hstep : SpiStep HZ ⟨k, dev, .found t pair⟩ (.stmt acts) ⟨k, { dev with buffer := buffer }, .finished rx⟩ :=
    ⟨by simp, buffer, hbranch, rfl, rfl⟩
  exact of_step hstep

/-- What is pending is copied to the reader, and taken from the buffer. -/
theorem read (hrx : t.rxBuf = true) (htx : t.txBuf = none) (hpos : dev.buffer.respSize ≠ 0) {sz : Nat}
    (hsz : (if dev.buffer.respSize > t.len.toNat then t.len.toNat else dev.buffer.respSize) = sz)
    {copy : List UInt8} (hpeek : dev.buffer.peek sz = .ok copy) :
    SpiStmts HZ ⟨k, dev, .found t pair⟩
      ⟨k, { dev with buffer := (dev.buffer.shrink sz).advance sz }, .finished (some (t.padded copy))⟩ := by
  have hpending : SpiStep HZ ⟨k, dev, .found t pair⟩ (.stmt []) ⟨k, dev, .pending t⟩ := by
    refine ⟨by simp, dev.buffer, ?_, rfl, rfl⟩
    change spiBranch t pair dev.buffer = _
    unfold spiBranch
    rw [hrx, htx]
    exact if_pos hpos
  have hsized : SpiStep HZ ⟨k, dev, .pending t⟩ (.stmt []) ⟨k, dev, .sized t sz⟩ := by
    refine ⟨by simp, dev.buffer, ?_, rfl, rfl⟩
    rw [← hsz]
    rfl
  have hcopied : SpiStep HZ ⟨k, dev, .sized t sz⟩ (.stmt [.deliver copy]) ⟨k, dev, .copied t sz copy⟩ := by
    refine ⟨by simp, dev.buffer, ?_, rfl, rfl⟩
    change (dev.buffer.peek sz >>= _) = _
    rw [hpeek]
    rfl
  have hshrunk : SpiStep HZ ⟨k, dev, .copied t sz copy⟩ (.stmt [])
      ⟨k, { dev with buffer := dev.buffer.shrink sz }, .shrunk t sz copy⟩ :=
    ⟨by simp, dev.buffer.shrink sz, rfl, rfl, rfl⟩
  have hadvanced : SpiStep HZ ⟨k, { dev with buffer := dev.buffer.shrink sz }, .shrunk t sz copy⟩ (.stmt [])
      ⟨k, { dev with buffer := (dev.buffer.shrink sz).advance sz }, .finished (some (t.padded copy))⟩ :=
    ⟨by simp, (dev.buffer.shrink sz).advance sz, rfl, rfl, rfl⟩
  exact (of_step hpending).trans ((of_step hsized).trans ((of_step hcopied).trans
    ((of_step hshrunk).trans (of_step hadvanced))))

/-- The response of a pair is put into the buffer. -/
theorem load (hrx : t.rxBuf = false) {tx : List UInt8} (htx : t.txBuf = some tx) {p : Pair w} {b : RespBuffer}
    (hload : dev.buffer.load false p.resp = .ok b) :
    SpiStmts HZ ⟨k, dev, .found t (some p)⟩ ⟨k, { dev with buffer := b }, .finished none⟩ := by
  obtain ⟨b₀, hfill, hsame⟩ := Except.bind_eq_ok_iff.mp hload
  obtain rfl := Except.ok.inj hsame
  have hfilled : SpiStep HZ ⟨k, dev, .found t (some p)⟩ (.stmt [.load .request p.resp])
      ⟨k, { dev with buffer := b₀ }, .filled p⟩ := by
    refine ⟨by simp, b₀, ?_, rfl, rfl⟩
    change spiBranch t (some p) dev.buffer = _
    unfold spiBranch
    rw [hrx, htx]
    dsimp only
    rw [hfill]
    rfl
  have hresized : SpiStep HZ ⟨k, { dev with buffer := b₀ }, .filled p⟩ (.stmt [])
      ⟨k, { dev with buffer := { b₀ with respSize := p.resp.length } }, .resized⟩ :=
    ⟨by simp, { b₀ with respSize := p.resp.length }, rfl, rfl, rfl⟩
  have hplaced : SpiStep HZ ⟨k, { dev with buffer := { b₀ with respSize := p.resp.length } }, .resized⟩ (.stmt [])
      ⟨k, { dev with buffer := { b₀ with respSize := p.resp.length, respPtr := some 0 } }, .placed⟩ :=
    ⟨by simp, { b₀ with respSize := p.resp.length, respPtr := some 0 }, rfl, rfl, rfl⟩
  have hdone : SpiStep HZ
      ⟨k, { dev with buffer := { b₀ with respSize := p.resp.length, respPtr := some 0 } }, .placed⟩ (.stmt [])
      ⟨k, { dev with buffer := { b₀ with respSize := p.resp.length, respPtr := some 0, async := false } },
        .finished none⟩ :=
    ⟨by simp, { b₀ with respSize := p.resp.length, respPtr := some 0, async := false }, rfl, rfl, rfl⟩
  exact (of_step hfilled).trans ((of_step hresized).trans ((of_step hplaced).trans (of_step hdone)))

end SpiStmts

/-- **The statements of a transfer**, one after the other with nothing in between. -/
theorem hwespiTransferOne_stmts {rx : Option (List UInt8)} {dev' : SpiPriv}
    (hrun : hwespiTransferOne k t dev = .ok (rx, dev')) :
    SpiStmts HZ ⟨k, dev, .entered t⟩ ⟨k, dev', .finished rx⟩ := by
  obtain ⟨pair, hfind, hrun⟩ := Except.bind_eq_ok_iff.mp hrun
  refine (SpiStmts.find hfind).trans ?_
  cases hrx : t.rxBuf with
  | true =>
      cases htx : t.txBuf with
      | some tx =>
          rw [hrx, htx] at hrun
          obtain ⟨rfl, rfl⟩ := Prod.mk.inj (Except.ok.inj hrun)
          refine SpiStmts.branch [.discard] ?_
          unfold spiBranch
          rw [hrx, htx]
      | none =>
          rw [hrx, htx] at hrun
          dsimp only at hrun
          by_cases hzero : dev.buffer.respSize = 0
          · rw [if_neg (not_not_intro hzero)] at hrun
            obtain ⟨rfl, rfl⟩ := Prod.mk.inj (Except.ok.inj hrun)
            refine SpiStmts.branch [] ?_
            unfold spiBranch
            rw [hrx, htx]
            exact if_neg (not_not_intro hzero)
          · rw [if_pos hzero] at hrun
            obtain ⟨copy, hpeek, hret⟩ := Except.bind_eq_ok_iff.mp hrun
            obtain ⟨rfl, rfl⟩ := Prod.mk.inj (Except.ok.inj hret)
            exact SpiStmts.read hrx htx hzero rfl hpeek
  | false =>
      cases htx : t.txBuf with
      | none =>
          rw [hrx, htx] at hrun
          obtain ⟨rfl, rfl⟩ := Prod.mk.inj (Except.ok.inj hrun)
          refine SpiStmts.branch [] ?_
          unfold spiBranch
          rw [hrx, htx]
      | some tx =>
          rw [hrx, htx] at hrun
          cases pair with
          | none =>
              obtain ⟨rfl, rfl⟩ := Prod.mk.inj (Except.ok.inj hrun)
              refine SpiStmts.branch [.discard] ?_
              unfold spiBranch
              rw [hrx, htx]
          | some p =>
              obtain ⟨b, hload, hret⟩ := Except.bind_eq_ok_iff.mp hrun
              obtain ⟨rfl, rfl⟩ := Prod.mk.inj (Except.ok.inj hret)
              exact SpiStmts.load hrx htx hload

end

/-! ### Runs -/

/-- What is done with an spi device: a transfer, with what is in the buffer of the reader afterwards,
or a timer delivery, or something in the store. -/
inductive SpiUse (w : Nat) where
  | transfer (t : SpiTransfer) (rx : Option (List UInt8))
  | asyncRx (pair : Pair w) (acts : List RespAct)
  | store (e : Event w)

namespace SpiUse

/-- Nothing is transmitted and no delivery is accepted. -/
def Quiet : SpiUse w → Prop
  | transfer t _ => t.txBuf = none
  | asyncRx _ acts => acts = []
  | store _ => True

def received : SpiUse w → List UInt8
  | transfer _ rx => rx.getD []
  | _ => []

/-- The number of bytes a reader asks for. -/
def asked : SpiUse w → Nat
  | transfer t _ => if t.rxBuf then t.len.toNat else 0
  | _ => 0

end SpiUse

/-- The spi device between two uses. -/
structure SpiDevice (w : Nat) where
  k : Kernel w
  priv : SpiPriv

def SpiUseStep (HZ : Nat) (s : SpiDevice w) : SpiUse w → SpiDevice w → Prop
  | .transfer t rx, s' => hwespiTransferOne s.k t s.priv = .ok (rx, s'.priv) ∧ s'.k = s.k
  | .asyncRx pair acts, s' => pair.asyncRx = true ∧
      (∃ d ∈ s.k.devs, d.addr = s.priv.hwedev ∧ pair ∈ d.pairList) ∧
      ∃ buffer, hweSpiAsyncRx pair s.priv = .ok (acts, buffer) ∧
        s' = { s with priv := { s.priv with buffer := buffer } }
  | .store e, s' => SysStep HZ s.k e s'.k ∧ s'.priv = s.priv ∧
      ∃ d ∈ s'.k.devs, d.addr = s.priv.hwedev

/-- A use of the device is a run of statements and deliveries. -/
theorem SpiUseStep.run {s s' : SpiDevice w} {u : SpiUse w} (hstep : SpiUseStep HZ s u s') :
    ∃ es, Run (SpiStep HZ) ⟨s.k, s.priv, .idle⟩ es ⟨s'.k, s'.priv, .idle⟩ := by
  cases u with
  | transfer t rx =>
      obtain ⟨hrun, hk⟩ := hstep
      obtain ⟨es, _, hstmts⟩ := @hwespiTransferOne_stmts w HZ _ _ _ _ _ hrun
      refine ⟨.start t :: es ++ [.stmt []], Run.snoc_iff.mpr ⟨_, .cons ⟨rfl, rfl⟩ hstmts, ?_⟩⟩
      exact ⟨by simp, s'.priv.buffer, rfl, rfl, hk⟩
  | asyncRx pair acts =>
      obtain ⟨hasync, hmem, buffer, hrun, rfl⟩ := hstep
      exact ⟨[.asyncRx pair acts], Run.single ⟨hasync, hmem, buffer, hrun, rfl⟩⟩
  | store e =>
      obtain ⟨hsys, hpriv, hlisted⟩ := hstep
      exact ⟨[.store e], Run.single ⟨hsys, hpriv, rfl, hlisted, fun p hp => absurd hp (by simp [SpiPc.pair])⟩⟩

/-- The device is one of the store, and its window lies inside `resp`. -/
structure SpiDevice.Ready (hwedev : Nat) (s : SpiDevice w) : Prop where
  store : StoreInv s.k
  sems : ∀ iface, s.k.sems iface = 1
  owner : s.priv.hwedev = hwedev
  listed : ∃ d ∈ s.k.devs, d.addr = hwedev
  inside : s.priv.buffer.Inside

namespace SpiDevice.Ready

variable {hwedev : Nat} {s s' : SpiDevice w} {us : List (SpiUse w)}

/-- **A transfer** in a state like that. -/
theorem transfer (h : s.Ready hwedev) (t : SpiTransfer) :
    ∃ d ∈ s.k.devs, d.addr = hwedev ∧ ∃ b, hwespiTransferOne s.k t s.priv =
        .ok ((queueTransfer d t s.priv.buffer.pending).1, { s.priv with buffer := b }) ∧
      b.pending = (queueTransfer d t s.priv.buffer.pending).2 ∧ b.Inside ∧
      (t.txBuf = none → b.async = s.priv.buffer.async) ∧
      (t.txBuf ≠ none → b.pending ≠ [] → b.async = false) ∧
      (t.rxBuf = false → t.txBuf = none → b = s.priv.buffer) := by
  obtain ⟨d, hd, haddr⟩ := h.listed
  have hderef : s.k.deref s.priv.hwedev = .ok d := by
    rw [h.owner, ← haddr]
    exact h.store.deref_eq hd
  exact ⟨d, hd, haddr, hwespiTransferOne_queue hderef (h.store.ok d hd) h.inside t⟩

/-- **A delivery** in a state like that. -/
theorem asyncRx (h : s.Ready hwedev) {pair : Pair w} {acts : List RespAct} {b : RespBuffer}
    (hpair : ∃ d ∈ s.k.devs, d.addr = s.priv.hwedev ∧ pair ∈ d.pairList)
    (hrun : hweSpiAsyncRx pair s.priv = .ok (acts, b)) :
    (s.priv.buffer.refusesAsync = true ∧ acts = [] ∧ b = s.priv.buffer) ∨
      (s.priv.buffer.refusesAsync = false ∧ acts ≠ [] ∧ b.pending = pair.resp ∧ b.Inside) := by
  obtain ⟨d, hd, _, hp⟩ := hpair
  unfold hweSpiAsyncRx at hrun
  cases hrefused : s.priv.buffer.refusesAsync with
  | true =>
      rw [hrefused, if_pos rfl] at hrun
      obtain ⟨rfl, rfl⟩ := Prod.mk.inj (Except.ok.inj hrun)
      exact Or.inl ⟨rfl, rfl, rfl⟩
  | false =>
      obtain ⟨b', hload, hpending, hin, _⟩ :=
        s.priv.buffer.load_pending true ((h.store.ok d hd).valid pair hp).resp_le
      rw [hrefused, if_neg Bool.false_ne_true, hload] at hrun
      obtain ⟨rfl, rfl⟩ := Prod.mk.inj (Except.ok.inj hrun)
      exact Or.inr ⟨rfl, List.cons_ne_nil _ _, hpending, hin⟩

/-- **Every use** leads from such a state to such a state. -/
theorem step (h : s.Ready hwedev) {u : SpiUse w} (hstep : SpiUseStep HZ s u s') : s'.Ready hwedev := by
  cases u with
  | transfer t rx =>
      obtain ⟨hrun, hk⟩ := hstep
      obtain ⟨d, hd, haddr, b, hrun', _, hin, _⟩ := h.transfer t
      obtain ⟨_, hpriv⟩ := Prod.mk.inj (Except.ok.inj (hrun'.symm.trans hrun))
      refine ⟨hk ▸ h.store, hk ▸ h.sems, ?_, hk ▸ h.listed, ?_⟩
      · rw [← hpriv]
        exact h.owner
      · rw [← hpriv]
        exact hin
  | asyncRx pair acts =>
      obtain ⟨_, hpair, b, hrun, rfl⟩ := hstep
      refine ⟨h.store, h.sems, h.owner, h.listed, ?_⟩
      rcases h.asyncRx hpair hrun with ⟨_, _, rfl⟩ | ⟨_, _, _, hin⟩
      · exact h.inside
      · exact hin
  | store e =>
      obtain ⟨hsys, hpriv, hlisted⟩ := hstep
      obtain ⟨hstore, hsems⟩ := hsys.inv ⟨h.store, h.sems⟩
      refine ⟨hstore, hsems, ?_, h.owner ▸ hlisted, ?_⟩
      · rw [hpriv]
        exact h.owner
      · rw [hpriv]
        exact h.inside

theorem of_run (h : s.Ready hwedev) (hrun : Run (SpiUseStep HZ) s us s') : s'.Ready hwedev :=
  hrun.invariant (fun _ _ _ hready hstep => step hready hstep) h

end SpiDevice.Ready

end Hwemu
