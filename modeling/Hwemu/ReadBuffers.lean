import Hwemu.Smbus
import Hwemu.SpiQueue

/-!
# What was in the buffer of a reader

Two readers whose buffers held different bytes should be given the same ones. The spi driver fills
the whole buffer. A read over i2c that asks for more than is pending leaves the rest of the buffer as
it was, and a block read over smbus takes its length from the buffer of the reader.
-/

namespace Hwemu

variable {w HZ : Nat} {k : Kernel w} {d : Dev w}

/-! ### Messages -/

/-- What the caller takes from a message after a transfer. -/
def I2cMsg.returned (m : I2cMsg) : List UInt8 := if m.read then m.buf.take m.len.toNat else []

/-- The same messages, but for what the buffers of readers hold. -/
def I2cMsg.SameUpToReads (m₁ m₂ : I2cMsg) : Prop :=
  m₂.read = m₁.read ∧ m₂.len = m₁.len ∧ (m₁.read = false → m₂.buf = m₁.buf)

/-- The two transfers end alike, and when they succeed their callers take the same bytes. -/
def XfersAgree (k : Kernel w) (dev : I2cPriv) (err : Int) (msgs₁ msgs₂ : List I2cMsg) : Prop :=
  ∃ ret msgs₁' msgs₂' acts dev', doMasterXfer k msgs₁ err dev = .ok (ret, msgs₁', acts, dev') ∧
    doMasterXfer k msgs₂ err dev = .ok (ret, msgs₂', acts, dev') ∧
    (0 ≤ ret → msgs₁'.map I2cMsg.returned = msgs₂'.map I2cMsg.returned)

/-- The message after it was handled, when `q` is pending. -/
def I2cMsg.handled (q : List UInt8) (m : I2cMsg) : I2cMsg :=
  if m.read then if q = [] then m.noData else m.put (q.take m.len.toNat) else m

/-- The bytes that are pending after the message. -/
def I2cMsg.left (d : Dev w) (q : List UInt8) (m : I2cMsg) : List UInt8 :=
  if m.read then q.drop m.len.toNat else (d.response (m.buf.take m.len.toNat)).getD []

/-- Each message that reads finds something pending. -/
def ReadsServed (d : Dev w) : List UInt8 → List I2cMsg → Prop
  | _, [] => True
  | q, m :: msgs => (m.read = true → q ≠ []) ∧ ReadsServed d (m.left d q) msgs

/-- Each message that reads asks for no more than is pending. -/
def ReadsCovered (d : Dev w) : List UInt8 → List I2cMsg → Prop
  | _, [] => True
  | q, m :: msgs => (m.read = true → m.len.toNat ≤ q.length) ∧ ReadsCovered d (m.left d q) msgs

/-- The messages after they were handled. -/
def handledAll (d : Dev w) : List UInt8 → List I2cMsg → List I2cMsg
  | _, [] => []
  | q, m :: msgs => m.handled q :: handledAll d (m.left d q) msgs

theorem I2cMsg.SameUpToReads.refl (m : I2cMsg) : m.SameUpToReads m := ⟨rfl, rfl, fun _ => rfl⟩

theorem I2cMsg.SameUpToReads.eq_of_write {m₁ m₂ : I2cMsg} (h : m₁.SameUpToReads m₂)
    (hwrite : m₁.read = false) : m₂ = m₁ := by
  obtain ⟨hread, hlen, hbuf⟩ := h
  have hsame := hbuf hwrite
  cases m₁
  cases m₂
  simp_all

/-- What is left does not depend on the buffer of a reader. -/
theorem I2cMsg.SameUpToReads.left {m₁ m₂ : I2cMsg} (h : m₁.SameUpToReads m₂) (d : Dev w) (q : List UInt8) :
    m₂.left d q = m₁.left d q := by
  cases hread : m₁.read with
  | true =>
      unfold I2cMsg.left
      rw [h.1, h.2.1, hread, if_pos rfl, if_pos rfl]
  | false => rw [h.eq_of_write hread]

/-- **One message**: what becomes of it, and of the device, which does not depend on the buffer of a
reader. -/
theorem xferMsg_queue {dev : I2cPriv} (hderef : k.deref dev.hwedev = .ok d) (hd : d.Ok)
    (hin : dev.buffer.Inside) (m : I2cMsg) :
    ∃ act b, b.Inside ∧ b.pending = m.left d dev.buffer.pending ∧
      (act = .fail ↔ m.read = true ∧ dev.buffer.pending = []) ∧ ∀ m₂, m.SameUpToReads m₂ →
        xferMsg k m₂ dev = .ok (m₂.handled dev.buffer.pending, act, { dev with buffer := b }) := by
  have hpending := hin.length_pending
  unfold I2cMsg.left I2cMsg.handled xferMsg
  cases hread : m.read with
  | true =>
      by_cases hzero : dev.buffer.respSize = 0
      · have hnil := RespBuffer.pending_zero hzero
        refine ⟨.fail, dev.buffer, hin, by rw [if_pos rfl, hnil, List.drop_nil], iff_of_true rfl ⟨rfl, hnil⟩, ?_⟩
        rintro m₂ ⟨hread₂, _, _⟩
        rw [hread₂, hread, if_pos rfl, if_neg (not_not_intro hzero), if_pos rfl, if_pos hnil]
        rfl
      · have hne : dev.buffer.pending ≠ [] := by
          intro hnil
          rw [hnil] at hpending
          exact hzero hpending.symm
        obtain ⟨hpeek, hleft, hin'⟩ := hin.read_min hzero m.len.toNat
        refine ⟨.deliver (dev.buffer.pending.take m.len.toNat), _, hin', by rw [if_pos rfl, hleft],
          iff_of_false (by simp) fun h => hne h.2, ?_⟩
        rintro m₂ ⟨hread₂, hlen₂, _⟩
        rw [hread₂, hread, if_pos rfl, if_pos hzero, if_pos rfl, if_neg hne, hlen₂]
        dsimp only
        rw [hpeek]
        rfl
  | false =>
      have hsame : ∀ m₂, m.SameUpToReads m₂ → m₂ = m := fun m₂ h => h.eq_of_write hread
      have hlen : (m.len.toNat : Int) = toInt m.len.toNat := by
        have hlt := m.len.toNat_lt
        rw [toInt_of_le]
        unfold intMax
        omega
      have hresponse := findResponse_map hd m.len_le (lt_trans m.len.toNat_lt (by decide))
      rw [← hlen] at hresponse
      rw [if_neg Bool.false_ne_true, ← hresponse]
      cases hfind : findResponse d m.buf m.len.toNat with
      | none =>
          refine ⟨.discard, dev.buffer.discard, RespBuffer.Inside.discard _, RespBuffer.pending_zero rfl,
            iff_of_false (by simp) (by simp), ?_⟩
          intro m₂ hm₂
          rw [hsame m₂ hm₂, hread, if_neg Bool.false_ne_true, hderef, Except.ok_bind, hfind]
          rfl
      | some p =>
          have hp : p ∈ d.pairList := List.mem_of_find?_eq_some hfind
          obtain ⟨b, hload, hnow, hin', _⟩ := dev.buffer.load_pending false (hd.valid p hp).resp_le
          refine ⟨.load .request p.resp, b, hin', hnow, iff_of_false (by simp) (by simp), ?_⟩
          intro m₂ hm₂
          rw [hsame m₂ hm₂, hread, if_neg Bool.false_ne_true, hderef, Except.ok_bind, hfind]
          dsimp only
          rw [hload]
          rfl

section

variable {q : List UInt8} {m : I2cMsg}

theorem returned_put (hread : m.read = true) (bytes : List UInt8) :
    (m.put bytes).returned = (bytes ++ m.buf.drop bytes.length).take m.len.toNat := if_pos hread

/-- A message that is covered returns pending bytes only. -/
theorem returned_of_covered (hread : m.read = true) (hne : q ≠ []) (h : m.len.toNat ≤ q.length) :
    (m.handled q).returned = q.take m.len.toNat := by
  rw [I2cMsg.handled, if_pos hread, if_neg hne, returned_put hread, List.take_append_of_le_length, List.take_take,
    Nat.min_self]
  rw [List.length_take, Nat.min_eq_left h]

/-- A message that asks for more returns bytes of its buffer. -/
theorem returned_of_short (hread : m.read = true) (hne : q ≠ []) (h : ¬m.len.toNat ≤ q.length) :
    ∃ m₂, m.SameUpToReads m₂ ∧ (m.handled q).returned ≠ (m₂.handled q).returned := by
  have hlen := m.len_le
  have hlt : q.length < m.buf.length := by omega
  have hstale : ∀ m' : I2cMsg, m'.read = true → m'.len = m.len →
      (m'.handled q).returned[q.length]? = m'.buf[q.length]? := by
    intro m' hread' hlen'
    rw [I2cMsg.handled, if_pos hread', if_neg hne, returned_put hread', hlen',
      List.take_of_length_le (show q.length ≤ m.len.toNat by omega), List.getElem?_take_of_lt (by omega),
      List.getElem?_append_right le_rfl, Nat.sub_self, List.getElem?_drop, Nat.add_zero]
  let m₂ : I2cMsg := { m with
    buf := m.buf.set q.length (m.buf[q.length] + 1)
    len_le := by rw [List.length_set]; exact hlen }
  refine ⟨m₂, ⟨rfl, rfl, ?_⟩, ?_⟩
  · intro hwrite
    rw [hread] at hwrite
    exact absurd hwrite (by decide)
  · intro heq
    have hbyte := hstale m₂ hread rfl
    rw [← heq, hstale m hread rfl, List.getElem?_set_self hlt, List.getElem?_eq_getElem hlt] at hbyte
    have hsame := Option.some.inj hbyte
    simp at hsame

end

/-! ### Transfers -/

section

variable {dev : I2cPriv}

/-- **A whole transfer**: how it ends does not depend on the buffers of the readers. It succeeds when each read
finds something pending. -/
theorem doMasterXfer_queue (hderef : k.deref dev.hwedev = .ok d) (hd : d.Ok) (hin : dev.buffer.Inside) (err : Int)
    (msgs : List I2cMsg) :
    ∃ ret acts dev', (0 ≤ ret ↔ 0 ≤ err ∧ ReadsServed d dev.buffer.pending msgs) ∧
      ∀ msgs₂, List.Forall₂ I2cMsg.SameUpToReads msgs msgs₂ →
        doMasterXfer k msgs₂ err dev = .ok (ret, handledAll d dev.buffer.pending msgs₂, acts, dev') := by
  induction msgs generalizing dev err with
  | nil =>
      refine ⟨err, [], dev, (and_iff_left trivial).symm, fun msgs₂ hsame => ?_⟩
      cases hsame
      rfl
  | cons m msgs ih =>
      obtain ⟨act, b, hin₁, hleft, hfail, hmsg⟩ := xferMsg_queue hderef hd hin m
      obtain ⟨ret, acts, dev', hret, hrest⟩ := @ih { dev with buffer := b } hderef hin₁ (errAfter err act)
      refine ⟨ret, act :: acts, dev', ?_, fun msgs₂ hsame => ?_⟩
      · have herr : 0 ≤ errAfter err act ↔ 0 ≤ err ∧ (m.read = true → dev.buffer.pending ≠ []) := by
          by_cases hact : act = .fail
          · obtain ⟨hread, hnil⟩ := hfail.mp hact
            have hneg : ¬(0 : Int) ≤ -einval := by decide
            rw [hact]
            exact iff_of_false hneg fun h => h.2 hread hnil
          · have hserved : m.read = true → dev.buffer.pending ≠ [] := fun hread hnil => hact (hfail.mpr ⟨hread, hnil⟩)
            have hsame : errAfter err act = err := by cases act <;> first | rfl | exact absurd rfl hact
            rw [hsame]
            exact (and_iff_left hserved).symm
        rw [hret, herr, ReadsServed, ← hleft, and_assoc]
      · cases hsame with
        | @cons _ m₂ _ msgs₂ hm hmsgs =>
            have hafter := hrest msgs₂ hmsgs
            dsimp only at hafter
            rw [hleft, ← hm.left d] at hafter
            rw [doMasterXfer, hmsg m₂ hm, Except.ok_bind]
            dsimp only
            rw [hafter]
            rfl

/-- Where each read finds something pending, the callers take the same bytes whatever their buffers held exactly
when each read is covered. -/
theorem returned_same_iff {q : List UInt8} {msgs : List I2cMsg} (h : ReadsServed d q msgs) :
    (∀ msgs₂, List.Forall₂ I2cMsg.SameUpToReads msgs msgs₂ →
        (handledAll d q msgs).map I2cMsg.returned = (handledAll d q msgs₂).map I2cMsg.returned) ↔
      ReadsCovered d q msgs := by
  induction msgs generalizing q with
  | nil =>
      refine iff_of_true (fun msgs₂ hsame => ?_) trivial
      cases hsame
      rfl
  | cons m msgs ih =>
      obtain ⟨hserved, hrest⟩ := h
      rw [ReadsCovered, ← ih hrest]
      constructor
      · intro hall
        constructor
        · intro hread
          by_contra hshort
          obtain ⟨m₂, hsame, hne⟩ := returned_of_short hread (hserved hread) hshort
          have hagree := hall (m₂ :: msgs) (.cons hsame (List.forall₂_same.mpr fun m _ => .refl m))
          exact hne (List.cons.inj hagree).1
        · intro msgs₂ hsame
          exact (List.cons.inj (hall (m :: msgs₂) (.cons (.refl m) hsame))).2
      · rintro ⟨hcov, hall⟩ out hsame
        cases hsame with
        | @cons _ m₂ _ msgs₂ hm hmsgs =>
            rw [handledAll, handledAll, List.map_cons, List.map_cons, hm.left d, hall msgs₂ hmsgs]
            congr 1
            cases hread : m.read with
            | false => rw [hm.eq_of_write hread]
            | true =>
                have hlen : m₂.len = m.len := hm.2.1
                rw [returned_of_covered hread (hserved hread) (hcov hread),
                  returned_of_covered (hm.1.trans hread) (hserved hread) (by rw [hlen]; exact hcov hread), hlen]

/-- One message that reads, when something is pending. -/
theorem doMasterXfer_read (k : Kernel w) (hin : dev.buffer.Inside) (hne : dev.buffer.respSize ≠ 0)
    {m : I2cMsg} (hread : m.read = true) (err : Int) :
    let sz := if dev.buffer.respSize > m.len.toNat then m.len.toNat else dev.buffer.respSize
    doMasterXfer k [m] err dev = .ok (err, [m.put (dev.buffer.pending.take m.len.toNat)],
      [.deliver (dev.buffer.pending.take m.len.toNat)],
      { dev with buffer := (dev.buffer.shrink sz).advance sz }) := by
  obtain ⟨hpeek, _⟩ := hin.read_min hne m.len.toNat
  intro sz
  rw [doMasterXfer, xferMsg, if_pos hread, if_pos hne]
  dsimp only
  rw [hpeek]
  rfl

/-- **A transfer that succeeds returns the same bytes whatever the buffers held** exactly when each read is
covered. -/
theorem xfersAgree_iff (hderef : k.deref dev.hwedev = .ok d) (hd : d.Ok) (hin : dev.buffer.Inside) {err : Int}
    (herr : 0 ≤ err) (msgs : List I2cMsg) :
    (∀ msgs₂, List.Forall₂ I2cMsg.SameUpToReads msgs msgs₂ → XfersAgree k dev err msgs msgs₂) ↔
      (ReadsServed d dev.buffer.pending msgs → ReadsCovered d dev.buffer.pending msgs) := by
  obtain ⟨ret, acts, dev', hret, hrun⟩ := doMasterXfer_queue hderef hd hin err msgs
  have hself := hrun msgs (List.forall₂_same.mpr fun m _ => .refl m)
  have hagree : ∀ msgs₂, List.Forall₂ I2cMsg.SameUpToReads msgs msgs₂ → (XfersAgree k dev err msgs msgs₂ ↔
      (0 ≤ ret → (handledAll d dev.buffer.pending msgs).map I2cMsg.returned =
        (handledAll d dev.buffer.pending msgs₂).map I2cMsg.returned)) := by
    intro msgs₂ hsame
    constructor
    · rintro ⟨ret', out₁, out₂, acts', dev'', hrun₁, hrun₂, hbytes⟩
      obtain ⟨rfl, hrest₁⟩ := Prod.mk.inj (Except.ok.inj (hself.symm.trans hrun₁))
      obtain ⟨_, hrest₂⟩ := Prod.mk.inj (Except.ok.inj ((hrun msgs₂ hsame).symm.trans hrun₂))
      rwa [(Prod.mk.inj hrest₁).1, (Prod.mk.inj hrest₂).1]
    · exact fun hbytes => ⟨ret, _, _, acts, dev', hself, hrun msgs₂ hsame, hbytes⟩
  rw [hret, and_iff_right herr] at hagree
  constructor
  · intro hall hserved
    exact (returned_same_iff hserved).mp fun msgs₂ hsame => (hagree msgs₂ hsame).mp (hall msgs₂ hsame) hserved
  · intro hcovered msgs₂ hsame
    exact (hagree msgs₂ hsame).mpr fun hserved => (returned_same_iff hserved).mpr (hcovered hserved) msgs₂ hsame

end

/-! ### The buffer of an spi transfer -/

/-- `memcpy(buf, data, size)` for the `size` bytes of `data`. -/
def memcpy (data buf : List UInt8) : List UInt8 := data ++ buf.drop data.length

/-- `memset(buf + off, 0, size)`. -/
def memzero (off size : Nat) (buf : List UInt8) : List UInt8 :=
  buf.take off ++ List.replicate size 0 ++ buf.drop (off + size)

/-- `hwespi_transfer_one` with nothing in between, on a reader's buffer that holds `rx`. -/
def hwespiTransferInto (k : Kernel w) (t : SpiTransfer) (rx : List UInt8) (dev : SpiPriv) :
    Except Fault (List UInt8 × SpiPriv) := do
  let pair ← spiFind k t dev
  match t.rxBuf, t.txBuf with
  | true, some _ => return (memzero 0 t.len.toNat rx, { dev with buffer := dev.buffer.discard })
  | true, none =>
      if dev.buffer.respSize ≠ 0 then
        let sz := if dev.buffer.respSize > t.len.toNat then t.len.toNat else dev.buffer.respSize
        let bytes ← dev.buffer.peek sz
        let rx := memcpy bytes rx
        let rx := if sz < t.len.toNat then memzero sz (t.len.toNat - sz) rx else rx
        return (rx, { dev with buffer := (dev.buffer.shrink sz).advance sz })
      else return (memzero 0 t.len.toNat rx, dev)
  | false, some _ =>
      match pair with
      | some pair => do
          let buffer ← dev.buffer.load false pair.resp
          return (rx, { dev with buffer := buffer })
      | none => return (rx, { dev with buffer := dev.buffer.discard })
  | false, none => return (rx, dev)

/-- A copy of `sz` bytes and zeros up to the length of the transfer. -/
theorem memcpy_padded (t : SpiTransfer) (rx : List UInt8) {bytes : List UInt8} {sz : Nat}
    (hlen : bytes.length = sz) (hle : sz ≤ t.len.toNat) :
    (if sz < t.len.toNat then memzero sz (t.len.toNat - sz) (memcpy bytes rx) else memcpy bytes rx) =
      t.padded bytes ++ rx.drop t.len.toNat := by
  subst hlen
  unfold memzero memcpy SpiTransfer.padded
  split
  · rw [List.take_left, ← List.drop_drop, List.drop_left, List.drop_drop]
    congr 2
    omega
  · have hall : bytes.length = t.len.toNat := by omega
    rw [hall, Nat.sub_self, List.replicate_zero, List.append_nil]

/-- **The whole buffer is written**: it holds what the transfer returns, and nothing else matters. -/
theorem hwespiTransferInto_eq (k : Kernel w) (t : SpiTransfer) (rx : List UInt8) (dev : SpiPriv)
    (hin : dev.buffer.Inside) :
    hwespiTransferInto k t rx dev = (hwespiTransferOne k t dev).map fun out =>
      ((out.1.map fun bytes => bytes ++ rx.drop t.len.toNat).getD rx, out.2) := by
  have hzero : memzero 0 t.len.toNat rx = t.padded [] ++ rx.drop t.len.toNat := by
    rw [memzero, Nat.zero_add]
    rfl
  unfold hwespiTransferInto hwespiTransferOne
  cases spiFind k t dev with
  | error fault => rfl
  | ok pair =>
      rw [Except.ok_bind, Except.ok_bind]
      cases t.rxBuf with
      | false =>
          cases t.txBuf with
          | none => rfl
          | some tx =>
              cases pair with
              | none => rfl
              | some p =>
                  dsimp only
                  cases dev.buffer.load false p.resp with
                  | error fault => rfl
                  | ok b => rfl
      | true =>
          cases t.txBuf with
          | some tx =>
              dsimp only
              rw [hzero]
              rfl
          | none =>
              dsimp only
              by_cases hsize : dev.buffer.respSize = 0
              · rw [if_neg (not_not_intro hsize), if_neg (not_not_intro hsize), hzero]
                rfl
              · rw [if_pos hsize, if_pos hsize]
                obtain ⟨hpeek, _⟩ := hin.read_min hsize t.len.toNat
                generalize hsz : (if dev.buffer.respSize > t.len.toNat then t.len.toNat
                  else dev.buffer.respSize) = sz at hpeek
                have hlen : (dev.buffer.pending.take t.len.toNat).length = sz := by
                  rw [List.length_take, hin.length_pending, ← hsz]
                  split
                  · omega
                  · omega
                have hle : sz ≤ t.len.toNat := by
                  rw [← hlen, List.length_take]
                  omega
                rw [hpeek, Except.ok_bind, Except.ok_bind, memcpy_padded t rx hlen hle]
                rfl

/-! ### Block reads over smbus -/

namespace SmbusCall

/-- What the caller takes from the data after a read. -/
def returned (call : SmbusCall) (data : SmbusData) : List UInt8 :=
  match call.kind with
  | .byte => [data.byte]
  | .byteData => [data.byte]
  | .wordData => [data.get 0, data.get 1]
  | .blockData => (List.range (1 + (data.get 0).toNat)).map data.get
  | _ => []

/-- The reads in which the device says how many bytes there are. -/
def DeviceSized (call : SmbusCall) : Prop :=
  ¬call.IsWrite ∧ (call.size = 1 ∨ call.size = 2 ∨ call.size = 3 ∨ call.size = 5)

/-- The two reads end alike, and their callers take the same bytes. -/
def Agree (call₁ call₂ : SmbusCall) (chip : I2cChip) : Prop :=
  ∃ ret data₁ data₂ chip', doSmbusXfer call₁ chip = .ok (ret, data₁, chip') ∧
    doSmbusXfer call₂ chip = .ok (ret, data₂, chip') ∧ call₁.returned data₁ = call₂.returned data₂

theorem kind_of_deviceSized {call : SmbusCall} (h : call.DeviceSized) :
    call.kind = .byte ∨ call.kind = .byteData ∨ call.kind = .wordData ∨
      call.size = 5 ∧ call.kind = .blockData := by
  unfold kind
  rcases h.2 with hsize | hsize | hsize | hsize
  · rw [hsize]
    exact Or.inl rfl
  · rw [hsize]
    exact Or.inr (Or.inl rfl)
  · rw [hsize]
    exact Or.inr (Or.inr (Or.inl rfl))
  · rw [hsize]
    exact Or.inr (Or.inr (Or.inr ⟨rfl, rfl⟩))

theorem ext_of_byte {chip₁ chip₂ : I2cChip} (hpos : chip₁.pos = chip₂.pos)
    (hbyte : chip₁.byte = chip₂.byte) : chip₁ = chip₂ := by
  have hdat : chip₁.dat = chip₂.dat := by
    apply List.ext_getElem (chip₁.length_dat.trans chip₂.length_dat.symm)
    intro a ha₁ ha₂
    have hat := congrFun hbyte a
    unfold I2cChip.byte at hat
    rw [List.getD_eq_getElem?_getD, List.getD_eq_getElem?_getD, List.getElem?_eq_getElem ha₁,
      List.getElem?_eq_getElem ha₂] at hat
    exact hat
  cases chip₁
  cases chip₂
  simp_all

/-- **Reads** of one kind leave the same chip, and return what it held. -/
theorem doSmbusXfer_reads (call : SmbusCall) (hread : call.DeviceSized) (chip : I2cChip) :
    ∃ chip', ∀ data, ∃ data', doSmbusXfer { call with data := data } chip = .ok (0, data', chip') ∧
      ({ call with data := data } : SmbusCall).Returns chip.byte chip.pos data' := by
  have hother : call.kind ≠ .other := by
    rcases kind_of_deviceSized hread with hkind | hkind | hkind | ⟨_, hkind⟩
    all_goals
      rw [hkind]
      decide
  have hdone : ∀ data, ∃ data' chip', doSmbusXfer { call with data := data } chip = .ok (0, data', chip') ∧
      ({ call with data := data } : SmbusCall).Returns chip.byte chip.pos data' ∧
      chip'.pos = call.position chip.pos ∧ chip'.byte = chip.byte := by
    intro data
    obtain ⟨ret, data', chip', hrun, hdone⟩ := doSmbusXfer_runs chip { call with data := data }
    have hret : ret = 0 := hdone.ret.trans (if_neg hother)
    have hstores : ({ call with data := data } : SmbusCall).stores = [] := if_neg hread.1
    have hbytes := hdone.bytes
    rw [hstores] at hbytes
    exact ⟨data', chip', hret ▸ hrun, hdone.returns, hdone.pos, hbytes⟩
  obtain ⟨_, chip', _, _, hpos, hbyte⟩ := hdone call.data
  refine ⟨chip', ?_⟩
  intro data
  obtain ⟨data', chip'', hrun, hreturns, hpos', hbyte'⟩ := hdone data
  obtain rfl := ext_of_byte (hpos'.trans hpos.symm) (hbyte'.trans hbyte.symm)
  exact ⟨data', hrun, hreturns⟩

theorem byte_setByte (data : SmbusData) (b : UInt8) : (data.setByte b).byte = b := by
  unfold SmbusData.setByte SmbusData.byte
  rw [SmbusData.get_set (by decide), if_pos rfl]

/-- Two unions with the same word have the same two bytes. -/
theorem get_of_word {data₁ data₂ : SmbusData} (h : data₁.word.toNat = data₂.word.toNat) :
    data₁.get 0 = data₂.get 0 ∧ data₁.get 1 = data₂.get 1 := by
  have hword : data₁.word = data₂.word := UInt16.toNat_inj.mp h
  unfold SmbusData.word at hword
  constructor
  · rw [← lowByte_leWord (data₁.get 0) (data₁.get 1), hword, lowByte_leWord]
  · rw [← highByte_leWord (data₁.get 0) (data₁.get 1), hword, highByte_leWord]

/-- A block of another length. -/
theorem exists_width_ne (call : SmbusCall) (hkind : call.kind = .blockData) :
    ∃ data, ({ call with data := data } : SmbusCall).width ≠ call.width := by
  have hwidth : ∀ b, ({ call with data := call.data.set 0 b } : SmbusCall).width =
      min (min b.toNat i2cSmbusBlockMax) (i2cChipSize - call.command.toNat) := by
    intro b
    have hkind' : ({ call with data := call.data.set 0 b } : SmbusCall).kind = .blockData := hkind
    unfold width
    rw [hkind']
    dsimp only
    rw [SmbusData.get_set (by decide), if_pos rfl]
  have hcommand := call.command.toNat_lt
  by_cases hzero : call.width = 0
  · refine ⟨call.data.set 0 1, ?_⟩
    rw [hwidth, hzero]
    have hone : (1 : UInt8).toNat = 1 := rfl
    unfold i2cSmbusBlockMax i2cChipSize
    omega
  · refine ⟨call.data.set 0 0, ?_⟩
    rw [hwidth]
    have hnone : (0 : UInt8).toNat = 0 := rfl
    omega

/-- **A read returns the same bytes whatever its data held** unless it is a block read. -/
theorem agree_iff (call : SmbusCall) (hread : call.DeviceSized) (chip : I2cChip) :
    (∀ data, Agree call { call with data := data } chip) ↔ call.size ≠ 5 := by
  obtain ⟨chip', hreads⟩ := doSmbusXfer_reads call hread chip
  obtain ⟨data₁, hrun₁, hreturns₁⟩ := hreads call.data
  constructor
  · intro hall hsize
    have hkind : call.kind = .blockData := by
      unfold kind
      rw [hsize]
      rfl
    obtain ⟨data, hne⟩ := exists_width_ne call hkind
    obtain ⟨data₂, hrun₂, hreturns₂⟩ := hreads data
    obtain ⟨ret, out₁, out₂, chip'', hout₁, hout₂, hsame⟩ := hall data
    obtain ⟨_, rfl, _⟩ := Prod.mk.inj (Except.ok.inj (hrun₁.symm.trans hout₁)) |>.imp_right Prod.mk.inj
    obtain ⟨_, rfl, _⟩ := Prod.mk.inj (Except.ok.inj (hrun₂.symm.trans hout₂)) |>.imp_right Prod.mk.inj
    have hkind₂ : ({ call with data := data } : SmbusCall).kind = .blockData := hkind
    unfold Returns at hreturns₁ hreturns₂
    rw [hkind] at hreturns₁
    rw [hkind₂] at hreturns₂
    unfold returned at hsame
    rw [hkind, hkind₂] at hsame
    have hlength := congrArg List.length hsame
    rw [List.length_map, List.length_map, List.length_range, List.length_range, hreturns₁.1,
      hreturns₂.1] at hlength
    exact hne (Nat.add_left_cancel hlength).symm
  · intro hsize data
    obtain ⟨data₂, hrun₂, hreturns₂⟩ := hreads data
    refine ⟨0, data₁, data₂, chip', hrun₁, hrun₂, ?_⟩
    have hkind₂ : ({ call with data := data } : SmbusCall).kind = call.kind := rfl
    unfold Returns at hreturns₁ hreturns₂
    unfold returned
    rw [hkind₂] at hreturns₂ ⊢
    rcases kind_of_deviceSized hread with hkind | hkind | hkind | ⟨hblock, _⟩
    · rw [hkind] at hreturns₁ hreturns₂ ⊢
      dsimp only at hreturns₁ hreturns₂ ⊢
      rw [hreturns₁.trans (if_neg hread.1), hreturns₂.trans (if_neg hread.1), byte_setByte, byte_setByte]
    · rw [hkind] at hreturns₁ hreturns₂ ⊢
      dsimp only at hreturns₁ hreturns₂ ⊢
      rw [hreturns₁.trans (if_neg hread.1), hreturns₂.trans (if_neg hread.1), byte_setByte, byte_setByte]
    · rw [hkind] at hreturns₁ hreturns₂ ⊢
      dsimp only at hreturns₁ hreturns₂ ⊢
      have hread₂ : ¬({ call with data := data } : SmbusCall).IsWrite := hread.1
      rw [if_neg hread.1] at hreturns₁
      rw [if_neg hread₂] at hreturns₂
      obtain ⟨hlow, hhigh⟩ := get_of_word (hreturns₁.trans hreturns₂.symm)
      rw [hlow, hhigh]
    · exact absurd hblock hsize

end SmbusCall

/-! ### All three -/

/-- **What a reader is given.** It is independent of what the buffers of the readers held: over i2c, where a
transfer fails unless each read finds something pending, exactly when each read of a transfer that succeeds finds as
much as it asks for, over spi always, and over smbus exactly when the read is not a block read. -/
theorem prior_contents (hreach : SysReachable HZ k) (hd : d ∈ k.devs) :
    (∀ (dev : I2cPriv) msgs, dev.hwedev = d.addr → dev.buffer.Inside →
      ((∀ msgs₂, List.Forall₂ I2cMsg.SameUpToReads msgs msgs₂ →
          XfersAgree k dev msgs.length msgs msgs₂) ↔
        (ReadsServed d dev.buffer.pending msgs → ReadsCovered d dev.buffer.pending msgs))) ∧
    (∀ (dev : SpiPriv) (t : SpiTransfer) rx₁ rx₂, dev.hwedev = d.addr → dev.buffer.Inside →
      ∃ priv rx₁' rx₂', hwespiTransferInto k t rx₁ dev = .ok (rx₁', priv) ∧
        hwespiTransferInto k t rx₂ dev = .ok (rx₂', priv) ∧
        (t.rxBuf = true → rx₁'.take t.len.toNat = rx₂'.take t.len.toNat)) ∧
    (∀ (call : SmbusCall) chip, call.DeviceSized →
      ((∀ data, call.Agree { call with data := data } chip) ↔ call.size ≠ 5)) := by
  obtain ⟨hstore, _⟩ := hreach.inv
  have hderef := hstore.deref_eq hd
  have hok := hstore.ok d hd
  refine ⟨?_, ?_, fun call chip hread => call.agree_iff hread chip⟩
  · intro dev msgs hdev hin
    exact xfersAgree_iff (hdev ▸ hderef) hok hin (Int.natCast_nonneg msgs.length) msgs
  · intro dev t rx₁ rx₂ hdev hin
    obtain ⟨b, hrun, _⟩ := hwespiTransferOne_queue (hdev ▸ hderef) hok hin t
    refine ⟨_, _, _, by rw [hwespiTransferInto_eq k t rx₁ dev hin, hrun]; rfl,
      by rw [hwespiTransferInto_eq k t rx₂ dev hin, hrun]; rfl, ?_⟩
    intro hrx
    obtain ⟨bytes, hbytes, hlen⟩ : ∃ bytes, (queueTransfer d t dev.buffer.pending).1 = some bytes ∧
        bytes.length = t.len.toNat := by
      unfold queueTransfer
      rw [hrx]
      cases t.txBuf with
      | none =>
          refine ⟨_, rfl, ?_⟩
          rw [zeroFilled, List.length_append, List.length_take, List.length_replicate]
          omega
      | some tx => exact ⟨_, rfl, List.length_replicate⟩
    rw [hbytes, ← hlen]
    exact List.take_left.trans List.take_left.symm

theorem toNat_ofNat_length_le (buf : List UInt8) : (UInt16.ofNat buf.length).toNat ≤ buf.length := by
  rw [UInt16.toNat_ofNat']
  exact Nat.mod_le _ _

/-- A read of bytes over `buf`. -/
def I2cMsg.readOver (buf : List UInt8) : I2cMsg :=
  { read := true
    len := UInt16.ofNat buf.length
    buf := buf
    len_le := toNat_ofNat_length_le buf }

theorem sampleTimer_store : ∃ (k : Kernel 32) (d : Dev 32), SysReachable 250 k ∧ d ∈ k.devs ∧
    sampleTimer ∈ d.pairList := by
  obtain ⟨d, es, ⟨k, op, k₁, k₂, ⟨before, hbefore⟩, hadd, _, hd, hp, _⟩, _⟩ := sampleTimer_run []
  exact ⟨k₁, d, ⟨before ++ [.op op], Run.snoc_iff.mpr ⟨k, hbefore, show SysStep 250 k (.op op) k₁ from hadd⟩⟩, hd, hp⟩

/-- The timer of the device has delivered its byte. -/
theorem sampleTimer_delivered (d : Dev 32) : ∃ dev,
    hweI2cAsyncRx sampleTimer (I2cPriv.zeroed.initDev d.addr d.index) = .ok ([.load .timer [0xcc]], dev) ∧
      dev.hwedev = d.addr ∧ dev.buffer.pending = [0xcc] ∧ dev.buffer.Inside ∧ dev.buffer.respSize ≠ 0 := by
  obtain ⟨b, hload, hresp, hptr, hsize, _⟩ :=
    (I2cPriv.zeroed.initDev d.addr d.index).buffer.load_eq true (by decide : sampleTimer.resp.length ≤ hweMaxResponse)
  refine ⟨_, hweI2cAsyncRx_accepted rfl rfl hload, rfl, ?_, fun _ => ⟨0, hptr, ?_⟩, ?_⟩
  · dsimp only
    rw [RespBuffer.pending_eq hptr, hresp, hsize, List.drop_zero, List.take_left]
    rfl
  · rw [hsize]
    decide
  · rw [hsize]
    decide

/-- Data of equal bytes. -/
def SmbusData.filled (b : UInt8) : SmbusData :=
  { block := List.replicate (i2cSmbusBlockMax + 2) b
    length_block := List.length_replicate }

theorem prior_contents_applies : ∃ (k : Kernel 32) (d : Dev 32) (dev dev' : I2cPriv) (m : I2cMsg) (spi : SpiPriv),
    (SysReachable 250 k ∧ d ∈ k.devs ∧ dev.hwedev = d.addr ∧ spi.hwedev = d.addr ∧ spi.buffer.pending = [0xcc]) ∧
      (doMasterXfer k [.readOver [0]] 1 dev = .ok (1, [m], [.deliver [0xcc]], dev') ∧ m.returned = [0xcc] ∧
        XfersAgree k dev 1 [.readOver [0]] [.readOver [1]]) ∧
      (∃ priv rx₁ rx₂, hwespiTransferInto k (.readOf 3) [0, 0, 0] spi = .ok (rx₁, priv) ∧
        hwespiTransferInto k (.readOf 3) [1, 2, 3] spi = .ok (rx₂, priv) ∧ rx₁.take 3 = rx₂.take 3) ∧
      SmbusCall.Agree ⟨1, 7, 2, .filled 0⟩ ⟨1, 7, 2, .filled 1⟩ dev.chip := by
  obtain ⟨k, d, hreach, hd, _⟩ := sampleTimer_store
  obtain ⟨dev, _, hdev, hpending, hin, hne⟩ := sampleTimer_delivered d
  have hread := doMasterXfer_read k hin hne (m := .readOver [0]) rfl 1
  rw [hpending] at hread
  have happlied := prior_contents hreach hd
  have hcovered : ReadsCovered d dev.buffer.pending [.readOver [0]] := by
    rw [hpending]
    exact ⟨fun _ => le_rfl, trivial⟩
  refine ⟨k, d, dev, _, _, { hwedev := d.addr, buffer := dev.buffer }, ⟨hreach, hd, hdev, rfl, hpending⟩,
    ⟨hread, rfl, ?_⟩, ?_, ?_⟩
  · refine (happlied.1 dev [.readOver [0]] hdev hin).mpr (fun _ => hcovered) _ ?_
    exact .cons ⟨rfl, rfl, fun h => absurd h (by decide)⟩ .nil
  · obtain ⟨priv, rx₁, rx₂, hrun₁, hrun₂, hsame⟩ :=
      happlied.2.1 { hwedev := d.addr, buffer := dev.buffer } (.readOf 3) [0, 0, 0] [1, 2, 3] rfl hin
    exact ⟨priv, rx₁, rx₂, hrun₁, hrun₂, hsame rfl⟩
  · exact (happlied.2.2 ⟨1, 7, 2, .filled 0⟩ dev.chip ⟨by decide, Or.inr (Or.inl rfl)⟩).mpr (by decide) (.filled 1)

/-- A timer has delivered one byte, and a reader asks for two: the second one is its own. -/
theorem short_read_leaks : ∃ (k : Kernel 32) (d : Dev 32) (dev dev' : I2cPriv) (m₁ m₂ : I2cMsg),
    SysReachable 250 k ∧ d ∈ k.devs ∧ sampleTimer ∈ d.pairList ∧
      hweI2cAsyncRx sampleTimer (I2cPriv.zeroed.initDev d.addr d.index) =
        .ok ([.load .timer [0xcc]], dev) ∧
      doMasterXfer k [.readOver [0, 0]] 1 dev = .ok (1, [m₁], [.deliver [0xcc]], dev') ∧
      doMasterXfer k [.readOver [1, 1]] 1 dev = .ok (1, [m₂], [.deliver [0xcc]], dev') ∧
      m₁.returned = [0xcc, 0] ∧ m₂.returned = [0xcc, 1] ∧
      ¬XfersAgree k dev 1 [.readOver [0, 0]] [.readOver [1, 1]] := by
  obtain ⟨k, d, hreach, hd, hp⟩ := sampleTimer_store
  obtain ⟨dev, hrx, _, hpending, hin, hne⟩ := sampleTimer_delivered d
  have hread₁ := doMasterXfer_read (m := .readOver [0, 0]) k hin hne rfl 1
  have hread₂ := doMasterXfer_read (m := .readOver [1, 1]) k hin hne rfl 1
  rw [hpending] at hread₁ hread₂
  refine ⟨k, d, dev, _, _, _, hreach, hd, hp, hrx, hread₁, hread₂, rfl, rfl, ?_⟩
  rintro ⟨ret, msgs₁, msgs₂, acts, dev', hrun₁, hrun₂, hsame⟩
  obtain ⟨rfl, rfl, _⟩ := (Prod.mk.inj (Except.ok.inj (hread₁.symm.trans hrun₁))).imp_right Prod.mk.inj
  obtain ⟨_, rfl, _⟩ := (Prod.mk.inj (Except.ok.inj (hread₂.symm.trans hrun₂))).imp_right Prod.mk.inj
  exact absurd (hsame (by decide)) (by decide)

end Hwemu
