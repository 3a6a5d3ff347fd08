import Hwemu.RespBuffer
import Hwemu.TimerRuns

/-!
# The i2c driver

The transfers and timer deliveries of `hwe_i2c.c`, and the runs of one private device: it is put into
use for a device of the store, transfers and deliveries come in any order while the store changes,
and it may be destroyed and used again. The actions on the response buffer are kept as a log.
-/

namespace Hwemu

variable {w : Nat}

def i2cChipSize : Nat := 256

/-- `struct i2c_msg`; `read` is the flag `I2C_M_RD`. -/
structure I2cMsg where
  read : Bool
  len : UInt16
  buf : List UInt8
  len_le : len.toNat ≤ buf.length

/-- The message with `bytes` copied to the start of its buffer. -/
def I2cMsg.put (bytes : List UInt8) (m : I2cMsg) : I2cMsg :=
  { m with
    buf := bytes ++ m.buf.drop bytes.length
    len_le := by
      have hlen := m.len_le
      rw [List.length_append, List.length_drop]
      omega }

def I2cMsg.noData (m : I2cMsg) : I2cMsg := { m with len := 0, len_le := Nat.zero_le _ }

/-- `struct hwe_chip`. -/
structure I2cChip where
  pos : UInt8
  dat : List UInt8
  length_dat : dat.length = i2cChipSize

def I2cChip.zeroed : I2cChip :=
  { pos := 0
    dat := List.replicate i2cChipSize 0
    length_dat := List.length_replicate }

/-- The chip with as much of `bytes` as fits copied to its start. -/
def I2cChip.put (bytes : List UInt8) (chip : I2cChip) : I2cChip :=
  { chip with
    dat := bytes.take i2cChipSize ++ chip.dat.drop bytes.length
    length_dat := by
      rw [List.length_append, List.length_take, List.length_drop, chip.length_dat]
      omega }

/-- `struct hwe_dev_priv` of the i2c driver. `hwedev` is the address of the device in the store. -/
structure I2cPriv where
  inUse : Bool
  hwedev : Nat
  index : Nat
  buffer : RespBuffer
  chip : I2cChip

def I2cPriv.zeroed : I2cPriv :=
  { inUse := false
    hwedev := 0
    index := 0
    buffer := .zeroed
    chip := .zeroed }

/-- `init_dev`. -/
def I2cPriv.initDev (hwedev index : Nat) (dev : I2cPriv) : I2cPriv :=
  { inUse := true
    hwedev := hwedev
    index := index
    buffer := dev.buffer.discard
    chip := .zeroed }

/-- The body of the loop over the messages: the message and the device as they are left, and what
happened to the response. -/
def xferMsg (k : Kernel w) (m : I2cMsg) (dev : I2cPriv) :
    Except Fault (I2cMsg × RespAct × I2cPriv) := do
  if m.read then
    if dev.buffer.respSize ≠ 0 then
      let sz := if dev.buffer.respSize > m.len.toNat then m.len.toNat else dev.buffer.respSize
      let bytes ← dev.buffer.peek sz
      return (m.put bytes, .deliver bytes, { dev with buffer := (dev.buffer.shrink sz).advance sz })
    else return (m.noData, .fail, dev)
  else
    let hwedev ← k.deref dev.hwedev
    match findResponse hwedev m.buf m.len.toNat with
    | some pair =>
        let buffer ← dev.buffer.load false pair.resp
        return (m, .load .request pair.resp, { dev with buffer := buffer })
    | none => return (m, .discard, { dev with buffer := dev.buffer.discard })

/-- `err` after a message: it is set when there was nothing to read. -/
def errAfter (err : Int) : RespAct → Int
  | .fail => -einval
  | _ => err

/-- The loop of `do_master_xfer`. -/
def doMasterXfer (k : Kernel w) : List I2cMsg → Int → I2cPriv →
    Except Fault (Int × List I2cMsg × List RespAct × I2cPriv)
  | [], err, dev => .ok (err, [], [], dev)
  | m :: msgs, err, dev => do
      let (m, act, dev) ← xferMsg k m dev
      let (err, msgs, acts, dev) ← doMasterXfer k msgs (errAfter err act) dev
      return (err, m :: msgs, act :: acts, dev)

def hwei2cMasterXfer (msgs : List I2cMsg) (dev : I2cPriv) (k : Kernel w) :
    Except Fault ((Int × List I2cMsg × List RespAct × I2cPriv) × Kernel w) :=
  if dev.inUse then
    withLock .i2c k fun k => do
      let out ← doMasterXfer k msgs msgs.length dev
      return (out, k)
  else return ((-enodev, msgs, [], dev), k)

def hweI2cAsyncRx (pair : Pair w) (dev : I2cPriv) : Except Fault (List RespAct × I2cPriv) := do
  if !dev.inUse then return ([], dev)
  else
    let dev := { dev with chip := dev.chip.put pair.resp }
    if dev.buffer.refusesAsync then return ([], dev)
    else
      let buffer ← dev.buffer.load true pair.resp
      return ([.load .timer pair.resp], { dev with buffer := buffer })

/-- `hwe_destroy_i2c_device`, as far as it concerns the record. -/
def hweDestroyI2cDevice (dev : I2cPriv) : I2cPriv := { dev with inUse := false }

/-! ### Runs of one private device -/

structure I2cSystem (w : Nat) where
  k : Kernel w
  priv : I2cPriv

/-- What happens, with what is returned and done to the response. -/
inductive I2cEvent (w : Nat) where
  | init (hwedev index : Nat)
  | xfer (msgs : List I2cMsg) (ret : Int) (msgs' : List I2cMsg) (acts : List RespAct)
  | asyncRx (pair : Pair w) (acts : List RespAct)
  | store (e : Event w)
  | destroy

def I2cEvent.acts : I2cEvent w → List RespAct
  | init _ _ => [.discard]
  | xfer _ _ _ acts => acts
  | asyncRx _ acts => acts
  | store _ => []
  | destroy => []

/-- A device in use is one of the store, which keeps it until it is destroyed; a delivery brings a
timer pair of that device. -/
def I2cStep (HZ : Nat) (s : I2cSystem w) : I2cEvent w → I2cSystem w → Prop
  | .init hwedev index, s' => s.priv.inUse = false ∧ (∃ d ∈ s.k.devs, d.addr = hwedev) ∧
      s' = { s with priv := s.priv.initDev hwedev index }
  | .xfer msgs ret msgs' acts, s' =>
      hwei2cMasterXfer msgs s.priv s.k = .ok ((ret, msgs', acts, s'.priv), s'.k)
  | .asyncRx pair acts, s' => pair.asyncRx = true ∧
      (s.priv.inUse = true → ∃ d ∈ s.k.devs, d.addr = s.priv.hwedev ∧ pair ∈ d.pairList) ∧
      hweI2cAsyncRx pair s.priv = .ok (acts, s'.priv) ∧ s'.k = s.k
  | .store e, s' => SysStep HZ s.k e s'.k ∧ s'.priv = s.priv ∧
      (s.priv.inUse = true → ∃ d ∈ s'.k.devs, d.addr = s.priv.hwedev)
  | .destroy, s' => s.priv.inUse = true ∧ s' = { s with priv := hweDestroyI2cDevice s.priv }

/-- What a message does when `unread` is left of the response. -/
def MsgOutcome (d : Dev w) (unread : List UInt8) (m m' : I2cMsg) : RespAct → Prop
  | .load source resp => m.read = false ∧ m' = m ∧ source = .request ∧
      ∃ p, findResponse d m.buf m.len.toNat = some p ∧ p.resp = resp
  | .discard => m.read = false ∧ m' = m ∧ findResponse d m.buf m.len.toNat = none
  | .deliver chunk => m.read = true ∧ unread ≠ [] ∧ chunk = unread.take m.len.toNat ∧ m' = m.put chunk
  | .fail => m.read = true ∧ unread = [] ∧ m' = m.noData

/-- What a transfer does after the actions `acts`. -/
inductive XferOutcome (d : Dev w) : List RespAct → List I2cMsg → List I2cMsg → List RespAct → Prop
  | nil (acts : List RespAct) : XferOutcome d acts [] [] []
  | cons {acts acts' : List RespAct} {m m' : I2cMsg} {msgs msgs' : List I2cMsg} {act : RespAct} :
      MsgOutcome d (Chunked.held acts).unread m m' act →
      XferOutcome d (acts ++ [act]) msgs msgs' acts' →
      XferOutcome d acts (m :: msgs) (m' :: msgs') (act :: acts')

section

variable {k : Kernel w} {d : Dev w} {dev : I2cPriv} {acts : List RespAct}

/-- **One message** of a transfer. -/
theorem xferMsg_outcome (hderef : k.deref dev.hwedev = .ok d) (hd : d.Ok)
    (hholds : dev.buffer.Holds (Chunked.held acts)) (m : I2cMsg) :
    ∃ m' act buffer, xferMsg k m dev = .ok (m', act, { dev with buffer := buffer }) ∧
      MsgOutcome d (Chunked.held acts).unread m m' act ∧ act.Lawful (Chunked.held acts) ∧
      buffer.Holds (Chunked.held (acts ++ [act])) := by
  unfold xferMsg
  cases hread : m.read with
  | true =>
      rw [if_pos rfl]
      by_cases hzero : dev.buffer.respSize = 0
      · rw [if_neg (not_not_intro hzero)]
        have hnone := hholds.unread_eq_nil_iff.mpr hzero
        refine ⟨_, .fail, dev.buffer, rfl, ⟨hread, hnone, rfl⟩, hnone, ?_⟩
        rw [Chunked.held_concat]
        exact hholds
      · rw [if_pos hzero]
        have hsome : (Chunked.held acts).unread ≠ [] := mt hholds.unread_eq_nil_iff.mp hzero
        have hlen := hholds.length_unread
        have hmin : (if dev.buffer.respSize > m.len.toNat then m.len.toNat
            else dev.buffer.respSize) ≤ dev.buffer.respSize := by
          split
          · omega
          · exact le_rfl
        have hpeek := hholds.toWindow.peek hzero hmin
        have hnext := hholds.read hzero hmin
        have htake : (Chunked.held acts).unread.take (if dev.buffer.respSize > m.len.toNat then
            m.len.toNat else dev.buffer.respSize) = (Chunked.held acts).unread.take m.len.toNat := by
          split
          · rfl
          · rw [List.take_of_length_le hlen.le, List.take_of_length_le (by omega)]
        dsimp only
        rw [hpeek, Except.ok_bind]
        refine ⟨_, _, _, rfl, ⟨hread, hsome, htake, rfl⟩, ⟨hsome, List.take_prefix _ _⟩, ?_⟩
        rw [Chunked.held_concat]
        exact hnext
  | false =>
      rw [if_neg Bool.false_ne_true, hderef, Except.ok_bind]
      cases hfind : findResponse d m.buf m.len.toNat with
      | none =>
          refine ⟨m, .discard, dev.buffer.discard, rfl, ⟨hread, rfl, hfind⟩, trivial, ?_⟩
          rw [Chunked.held_concat]
          exact hholds.discard
      | some p =>
          have hp : p ∈ d.pairList := List.mem_of_find?_eq_some hfind
          obtain ⟨buffer, hload, hnext⟩ := RespBuffer.Holds.load dev.buffer .request (hd.valid p hp).resp_le
          change dev.buffer.load false p.resp = .ok buffer at hload
          dsimp only
          rw [hload, Except.ok_bind]
          refine ⟨m, _, buffer, rfl, ⟨hread, rfl, rfl, p, hfind, rfl⟩, trivial, ?_⟩
          rw [Chunked.held_concat]
          exact hnext

/-- **The messages of a transfer**, one after the other. -/
theorem doMasterXfer_outcome (hd : d.Ok) (msgs : List I2cMsg) (err : Int)
    (hderef : k.deref dev.hwedev = .ok d) (hholds : dev.buffer.Holds (Chunked.held acts)) :
    ∃ ret msgs' acts' buffer, doMasterXfer k msgs err dev =
        .ok (ret, msgs', acts', { dev with buffer := buffer }) ∧
      XferOutcome d acts msgs msgs' acts' ∧ (.fail ∈ acts' → ret = -einval) ∧
      (.fail ∉ acts' → ret = err) ∧
      Run Chunked.Step (Chunked.held acts) acts' (Chunked.held (acts ++ acts')) ∧
      buffer.Holds (Chunked.held (acts ++ acts')) := by
  induction msgs generalizing err dev acts with
  | nil =>
      refine ⟨err, [], [], dev.buffer, rfl, .nil acts, ?_, fun _ => rfl, ?_, ?_⟩
      · exact fun hmem => absurd hmem List.not_mem_nil
      · rw [List.append_nil]
        exact .nil _
      · rw [List.append_nil]
        exact hholds
  | cons m msgs ih =>
      obtain ⟨m', act, buffer, hmsg, hout, hlawful, hholds₁⟩ := xferMsg_outcome hderef hd hholds m
      obtain ⟨ret, msgs', acts', buffer', hrest, houts, hfail, hdone, hrun, hholds₂⟩ :=
        @ih { dev with buffer := buffer } (acts ++ [act]) (errAfter err act) hderef hholds₁
      rw [List.append_assoc, List.singleton_append] at hrun hholds₂
      refine ⟨ret, m' :: msgs', act :: acts', buffer', ?_, .cons hout houts, ?_, ?_, ?_, hholds₂⟩
      · rw [doMasterXfer, hmsg, Except.ok_bind]
        dsimp only
        rw [hrest]
        rfl
      · intro hmem
        by_cases hlater : .fail ∈ acts'
        · exact hfail hlater
        · rcases List.mem_cons.mp hmem with rfl | hmem'
          · exact hdone hlater
          · exact absurd hmem' hlater
      · intro hnotMem
        have hne : act ≠ .fail := fun heq => hnotMem (heq ▸ List.mem_cons_self)
        rw [hdone fun hmem => hnotMem (List.mem_cons_of_mem _ hmem)]
        cases act with
        | fail => exact absurd rfl hne
        | _ => rfl
      · refine .cons ⟨hlawful, ?_⟩ hrun
        exact Chunked.held_concat acts act

end

/-! ### The invariant of a run -/

section

variable {HZ : Nat} {s s' : I2cSystem w} {acts : List RespAct} {es : List (I2cEvent w)}

/-- After the actions `acts` the buffer holds what is left of the response they loaded. -/
structure I2cInv (s : I2cSystem w) (acts : List RespAct) : Prop where
  store : StoreInv s.k
  sems : ∀ iface, s.k.sems iface = 1
  holds : s.priv.buffer.Holds (Chunked.held acts)
  run : Run Chunked.Step .empty acts (Chunked.held acts)
  listed : s.priv.inUse = true → ∃ d ∈ s.k.devs, d.addr = s.priv.hwedev

/-- **A transfer** on a device in use goes through, message by message. -/
theorem I2cInv.xfer (h : I2cInv s acts) (huse : s.priv.inUse = true) (msgs : List I2cMsg) :
    ∃ d ∈ s.k.devs, d.addr = s.priv.hwedev ∧ ∃ ret msgs' acts' buffer k',
      hwei2cMasterXfer msgs s.priv s.k =
        .ok ((ret, msgs', acts', { s.priv with buffer := buffer }), k') ∧
      k'.ifaces = s.k.ifaces ∧ k'.sems = s.k.sems ∧ k'.heap = s.k.heap ∧
      XferOutcome d acts msgs msgs' acts' ∧ (.fail ∈ acts' → ret = -einval) ∧
      (.fail ∉ acts' → ret = msgs.length) ∧
      Run Chunked.Step (Chunked.held acts) acts' (Chunked.held (acts ++ acts')) ∧
      buffer.Holds (Chunked.held (acts ++ acts')) := by
  obtain ⟨d, hd, haddr⟩ := h.listed huse
  have hlocked : StoreInv (s.k.setSem .i2c (s.k.sems .i2c - 1)) := h.store.setSem _ _
  have hderef : (s.k.setSem .i2c (s.k.sems .i2c - 1)).deref s.priv.hwedev = .ok d := by
    rw [← haddr]
    exact hlocked.deref_eq hd
  obtain ⟨ret, msgs', acts', buffer, hloop, hout⟩ :=
    doMasterXfer_outcome (h.store.ok d hd) msgs msgs.length hderef h.holds
  refine ⟨d, hd, haddr, ret, msgs', acts', buffer,
    unlockIfaceDevs .i2c (s.k.setSem .i2c (s.k.sems .i2c - 1)), ?_, rfl, ?_, rfl, hout⟩
  · unfold hwei2cMasterXfer
    rw [if_pos huse]
    refine withLock_eq_ok.mpr ⟨?_, _, Except.bind_of_eq_ok hloop _, rfl⟩
    rw [h.sems]
    decide
  · funext iface
    rw [h.sems iface]
    by_cases heq : iface = .i2c
    · subst heq
      simp [unlockIfaceDevs, Kernel.setSem, h.sems]
    · simp [unlockIfaceDevs, Kernel.setSem, heq, h.sems]

theorem hwei2cMasterXfer_unused (hunused : s.priv.inUse = false) (msgs : List I2cMsg) :
    hwei2cMasterXfer msgs s.priv s.k = .ok ((-enodev, msgs, [], s.priv), s.k) := by
  unfold hwei2cMasterXfer
  rw [hunused]
  rfl

theorem hweI2cAsyncRx_unused {dev : I2cPriv} (pair : Pair w) (hunused : dev.inUse = false) :
    hweI2cAsyncRx pair dev = .ok ([], dev) := by
  unfold hweI2cAsyncRx
  rw [hunused]
  rfl

theorem hweI2cAsyncRx_refused {dev : I2cPriv} (pair : Pair w) (huse : dev.inUse = true)
    (hrefused : dev.buffer.refusesAsync = true) :
    hweI2cAsyncRx pair dev = .ok ([], { dev with chip := dev.chip.put pair.resp }) := by
  unfold hweI2cAsyncRx
  rw [if_neg (by simp [huse])]
  exact if_pos hrefused

theorem hweI2cAsyncRx_accepted {dev : I2cPriv} {pair : Pair w} {buffer : RespBuffer}
    (huse : dev.inUse = true) (haccepted : dev.buffer.refusesAsync = false)
    (hload : dev.buffer.load true pair.resp = .ok buffer) :
    hweI2cAsyncRx pair dev = .ok ([.load .timer pair.resp],
      { dev with chip := dev.chip.put pair.resp, buffer := buffer }) := by
  unfold hweI2cAsyncRx
  rw [if_neg (by simp [huse])]
  dsimp only
  rw [if_neg (by simp [haccepted]), hload]
  rfl

/-- **A timer delivery.** -/
theorem I2cInv.asyncRx (h : I2cInv s acts) {pair : Pair w} (hvalid : s.priv.inUse = true → pair.Valid) :
    ∃ acts' buffer chip, hweI2cAsyncRx pair s.priv =
        .ok (acts', { s.priv with buffer := buffer, chip := chip }) ∧
      acts' = (if s.priv.inUse = true ∧ ((Chunked.held acts).unread = [] ∨
          ((Chunked.held acts).source ≠ some .request ∧ (Chunked.held acts).read = 0))
        then [.load .timer pair.resp] else []) ∧
      Run Chunked.Step (Chunked.held acts) acts' (Chunked.held (acts ++ acts')) ∧
      buffer.Holds (Chunked.held (acts ++ acts')) := by
  have hkept : Run Chunked.Step (Chunked.held acts) [] (Chunked.held (acts ++ [])) ∧
      s.priv.buffer.Holds (Chunked.held (acts ++ [])) := by
    rw [List.append_nil]
    exact ⟨.nil _, h.holds⟩
  by_cases huse : s.priv.inUse = true
  · have hrefuses := h.holds.refusesAsync_iff
    cases hrefused : s.priv.buffer.refusesAsync with
    | true =>
        obtain ⟨hunread, hbusy⟩ := hrefuses.mp hrefused
        refine ⟨[], _, _, hweI2cAsyncRx_refused pair huse hrefused, ?_, hkept⟩
        rw [if_neg]
        rintro ⟨_, hnone | ⟨hsource, hread⟩⟩
        · exact hunread hnone
        · exact hbusy.elim hsource fun hne => hne hread
    | false =>
        have hfree : (Chunked.held acts).unread = [] ∨
            ((Chunked.held acts).source ≠ some .request ∧ (Chunked.held acts).read = 0) := by
          by_contra hcontra
          rw [not_or, not_and_or, not_not] at hcontra
          have hrefused' := hrefuses.mpr hcontra
          rw [hrefused] at hrefused'
          exact Bool.false_ne_true hrefused'
        obtain ⟨buffer, hload, hholds⟩ :=
          RespBuffer.Holds.load s.priv.buffer .timer (hvalid huse).resp_le
        have hheld := Chunked.held_concat acts (.load .timer pair.resp)
        refine ⟨_, buffer, _, hweI2cAsyncRx_accepted huse hrefused hload, ?_, ?_, ?_⟩
        · rw [if_pos ⟨huse, hfree⟩]
        · exact Run.single ⟨trivial, hheld⟩
        · rw [hheld]
          exact hholds
  · have hunused : s.priv.inUse = false := by simpa using huse
    refine ⟨[], _, _, hweI2cAsyncRx_unused pair hunused, ?_, hkept⟩
    rw [if_neg fun hboth => huse hboth.1]

/-- **Every step keeps the invariant.** -/
theorem I2cInv.step (h : I2cInv s acts) {e : I2cEvent w} (hstep : I2cStep HZ s e s') :
    I2cInv s' (acts ++ e.acts) := by
  cases e with
  | init hwedev index =>
      obtain ⟨_, hlisted, rfl⟩ := hstep
      have hheld := Chunked.held_concat acts (.discard : RespAct)
      refine ⟨h.store, h.sems, ?_, ?_, fun _ => hlisted⟩
      · change s.priv.buffer.discard.Holds (Chunked.held (acts ++ [.discard]))
        rw [hheld]
        exact h.holds.discard
      · exact Run.snoc_iff.mpr ⟨_, h.run, trivial, hheld⟩
  | xfer msgs ret msgs' acts' =>
      change hwei2cMasterXfer msgs s.priv s.k = _ at hstep
      by_cases huse : s.priv.inUse = true
      · obtain ⟨d, hd, haddr, ret₁, msgs₁, acts₁, buffer, k', hrun, hifaces, hsems, hheap, _, _, _,
          hacts, hholds⟩ := h.xfer huse msgs
        obtain ⟨hout, rfl⟩ := Prod.mk.inj (Except.ok.inj (hrun.symm.trans hstep))
        obtain ⟨_, hout⟩ := Prod.mk.inj hout
        obtain ⟨_, hout⟩ := Prod.mk.inj hout
        obtain ⟨rfl, hpriv⟩ := Prod.mk.inj hout
        have hstore : StoreInv s'.k := h.store.congr hifaces (congrArg Heap.next hheap).ge
        refine ⟨hstore, ?_, ?_, ?_, ?_⟩
        · rw [hsems]
          exact h.sems
        · rw [← hpriv]
          exact hholds
        · exact Run.append_iff.mpr ⟨_, h.run, hacts⟩
        · intro _
          rw [← hpriv]
          exact ⟨d, mem_devs_congr hifaces hd, haddr⟩
      · have hunused : s.priv.inUse = false := by simpa using huse
        rw [hwei2cMasterXfer_unused hunused] at hstep
        obtain ⟨hout, hk⟩ := Prod.mk.inj (Except.ok.inj hstep)
        obtain ⟨_, hout⟩ := Prod.mk.inj hout
        obtain ⟨_, hout⟩ := Prod.mk.inj hout
        obtain ⟨rfl, hpriv⟩ := Prod.mk.inj hout
        change I2cInv s' (acts ++ [])
        rw [List.append_nil]
        rcases s with ⟨k, priv⟩
        rcases s' with ⟨k', priv'⟩
        obtain rfl : k = k' := hk
        obtain rfl : priv = priv' := hpriv
        exact h
  | asyncRx pair acts' =>
      obtain ⟨_, hlisted, hrun, hk⟩ := hstep
      have hvalid : s.priv.inUse = true → pair.Valid := by
        intro huse
        obtain ⟨d, hd, _, hp⟩ := hlisted huse
        exact (h.store.ok d hd).valid pair hp
      obtain ⟨acts₁, buffer, chip, hrun₁, _, hacts, hholds⟩ := h.asyncRx hvalid
      obtain ⟨rfl, hpriv⟩ := Prod.mk.inj (Except.ok.inj (hrun₁.symm.trans hrun))
      refine ⟨by rw [hk]; exact h.store, by rw [hk]; exact h.sems, ?_, ?_, ?_⟩
      · rw [← hpriv]
        exact hholds
      · exact Run.append_iff.mpr ⟨_, h.run, hacts⟩
      · rw [← hpriv, hk]
        exact h.listed
  | store e =>
      obtain ⟨hsys, hpriv, hlisted⟩ := hstep
      obtain ⟨hstore, hsems⟩ := hsys.inv ⟨h.store, h.sems⟩
      change I2cInv s' (acts ++ [])
      rw [List.append_nil]
      refine ⟨hstore, hsems, by rw [hpriv]; exact h.holds, h.run, ?_⟩
      rw [hpriv]
      exact hlisted
  | destroy =>
      obtain ⟨_, rfl⟩ := hstep
      change I2cInv _ (acts ++ [])
      rw [List.append_nil]
      exact ⟨h.store, h.sems, h.holds, h.run, fun huse => absurd huse Bool.false_ne_true⟩

/-- **Every run keeps the invariant**, for the actions of the run. -/
theorem I2cInv.of_run (h : I2cInv s acts) (hrun : Run (I2cStep HZ) s es s') :
    I2cInv s' (acts ++ es.flatMap I2cEvent.acts) := by
  induction hrun generalizing acts with
  | nil =>
      rw [List.flatMap_nil, List.append_nil]
      exact h
  | cons hstep _ ih =>
      rw [List.flatMap_cons, ← List.append_assoc]
      exact ih (h.step hstep)

/-- **The responses of an i2c device.** In every run the reads between two loads or discards deliver
a prefix of the response loaded last; every write loads the response of its pair or discards; a timer
delivery takes the buffer only when nothing is unread, or another timer's response that nobody has
begun to read; a read fails exactly when nothing is unread; and the window stays inside `resp`. -/
theorem i2c_responses {k₀ : Kernel w} (hreach : SysReachable HZ k₀)
    (hrun : Run (I2cStep HZ) ⟨k₀, .zeroed⟩ es s) :
    let acts := es.flatMap I2cEvent.acts
    let held := Chunked.held acts
    (∀ pre source resp mid post, acts = pre ++ .load source resp :: (mid ++ post) →
      (∀ a ∈ mid, a.Keeps) → Chunked.delivered mid <+: resp) ∧
    (∀ pre mid post, acts = pre ++ .discard :: (mid ++ post) →
      (∀ a ∈ mid, a.Keeps) → Chunked.delivered mid = []) ∧
    s.priv.buffer.respSize = held.unread.length ∧
    (∀ off, s.priv.buffer.respPtr = some off →
      off + s.priv.buffer.respSize ≤ hweMaxResponse) ∧
    (∀ msgs, ∃ ret msgs' acts' s', I2cStep HZ s (.xfer msgs ret msgs' acts') s') ∧
    (∀ msgs ret msgs' acts' s', I2cStep HZ s (.xfer msgs ret msgs' acts') s' →
      (s.priv.inUse = true →
        (∃ d ∈ s.k.devs, d.addr = s.priv.hwedev ∧ XferOutcome d acts msgs msgs' acts') ∧
        (.fail ∈ acts' → ret = -einval) ∧ (.fail ∉ acts' → ret = msgs.length)) ∧
      (s.priv.inUse = false → ret = -enodev ∧ msgs' = msgs ∧ acts' = [])) ∧
    ∀ pair acts' s', I2cStep HZ s (.asyncRx pair acts') s' →
      acts' = if s.priv.inUse = true ∧ (held.unread = [] ∨
          (held.source ≠ some .request ∧ held.read = 0))
        then [.load .timer pair.resp] else [] := by
  obtain ⟨hstore, hsems⟩ := hreach.inv
  have hstart : I2cInv (⟨k₀, .zeroed⟩ : I2cSystem w) [] :=
    ⟨hstore, hsems, RespBuffer.Holds.zeroed, .nil _, fun huse => absurd huse Bool.false_ne_true⟩
  have hinv := hstart.of_run hrun
  rw [List.nil_append] at hinv
  intro acts held
  have hacts : Run Chunked.Step .empty acts held := hinv.run
  refine ⟨?_, ?_, ?_, hinv.holds.inside, ?_, ?_, ?_⟩
  · intro pre source resp mid post heq hkeep
    rw [heq] at hacts
    exact Chunked.Run.delivered_prefix hacts hkeep
  · intro pre mid post heq hkeep
    rw [heq] at hacts
    exact Chunked.Run.delivered_nil hacts hkeep
  · exact hinv.holds.length_unread.symm
  · intro msgs
    by_cases huse : s.priv.inUse = true
    · obtain ⟨d, _, _, ret, msgs', acts', buffer, k', hxfer, _⟩ := hinv.xfer huse msgs
      exact ⟨ret, msgs', acts', ⟨k', _⟩, hxfer⟩
    · have hunused : s.priv.inUse = false := by simpa using huse
      exact ⟨_, _, _, s, hwei2cMasterXfer_unused hunused msgs⟩
  · intro msgs ret msgs' acts' s' hstep
    constructor
    · intro huse
      obtain ⟨d, hd, haddr, ret₁, msgs₁, acts₁, buffer, k', hxfer, _, _, _, hout, hfail, hdone, _⟩ :=
        hinv.xfer huse msgs
      have heq := Prod.mk.inj (Except.ok.inj (hxfer.symm.trans hstep))
      simp only [Prod.mk.injEq] at heq
      obtain ⟨⟨rfl, rfl, rfl, _⟩, _⟩ := heq
      exact ⟨⟨d, hd, haddr, hout⟩, hfail, hdone⟩
    · intro hunused
      have heq := Prod.mk.inj
        (Except.ok.inj ((hwei2cMasterXfer_unused hunused msgs).symm.trans hstep))
      simp only [Prod.mk.injEq] at heq
      obtain ⟨⟨rfl, rfl, rfl, _⟩, _⟩ := heq
      exact ⟨rfl, rfl, rfl⟩
  · intro pair acts' s' hstep
    obtain ⟨_, hlisted, hrx, _⟩ := hstep
    have hvalid : s.priv.inUse = true → pair.Valid := by
      intro huse
      obtain ⟨d, hd, _, hp⟩ := hlisted huse
      exact (hinv.store.ok d hd).valid pair hp
    obtain ⟨acts₁, buffer, chip, hrx₁, hacts₁, _⟩ := hinv.asyncRx hvalid
    obtain ⟨rfl, _⟩ := Prod.mk.inj (Except.ok.inj (hrx₁.symm.trans hrx))
    exact hacts₁

end

/-- A write of `bytes`. -/
def I2cMsg.write (bytes : List UInt8) : I2cMsg :=
  { read := false
    len := UInt16.ofNat bytes.length
    buf := bytes
    len_le := by
      rw [UInt16.toNat_ofNat']
      exact Nat.mod_le _ _ }

/-- A read of `len` bytes into a buffer of zeros. -/
def I2cMsg.readInto (len : UInt16) : I2cMsg :=
  { read := true
    len := len
    buf := List.replicate len.toNat 0
    len_le := by rw [List.length_replicate] }

/-- A request, and its response read in two chunks and once more. -/
theorem i2c_responses_applies : ∃ (k : Kernel 64) (s : I2cSystem 64) (msgs' : List I2cMsg),
    let msgs := [.write [1, 2], .readInto 1, .readInto 4, .readInto 1]
    let acts := [.load .request [0xaa, 0xbb], .deliver [0xaa], .deliver [0xbb], .fail]
    Run (I2cStep 250) ⟨k, .zeroed⟩ [.init 1 0, .xfer msgs (-einval) msgs' acts] s ∧
      s.priv.buffer.respSize = (Chunked.held ([.discard] ++ acts : List RespAct)).unread.length := by
  have hxfer : (execAll 250 sampleOps (Kernel.loaded 64)).toOption.bind (fun k =>
      (hwei2cMasterXfer [.write [1, 2], .readInto 1, .readInto 4, .readInto 1]
        (I2cPriv.zeroed.initDev 1 0) k).toOption.map fun r => (r.1.1, r.1.2.2.1)) =
      some (-einval, [.load .request [0xaa, 0xbb], .deliver [0xaa], .deliver [0xbb], .fail]) := by
    decide +kernel
  have hlisted : (execAll 250 sampleOps (Kernel.loaded 64)).toOption.map (fun k => k.devs.map (·.addr)) =
      some [1] := by
    decide +kernel
  cases hstore : execAll 250 sampleOps (Kernel.loaded 64) with
  | error fault => simp [hstore, Except.toOption] at hlisted
  | ok k =>
      simp only [hstore, Except.toOption, Option.bind_some, Option.map_some, Option.some.injEq]
        at hxfer hlisted
      split at hxfer
      · rename_i out hout
        obtain ⟨⟨ret, msgs', acts, priv⟩, k'⟩ := out
        simp only [Option.map_some, Option.some.injEq, Prod.mk.injEq] at hxfer
        obtain ⟨rfl, rfl⟩ := hxfer
        have hdev : ∃ d ∈ k.devs, d.addr = 1 := by
          apply List.mem_map.mp
          rw [hlisted]
          exact List.mem_singleton_self _
        have hrun : Run (I2cStep 250) ⟨k, .zeroed⟩ [.init 1 0, .xfer _ (-einval) msgs' _] ⟨k', priv⟩ :=
          .cons ⟨rfl, hdev, rfl⟩ (Run.single hout)
        have hall := i2c_responses (Reachable.of_execAll hstore).sys hrun
        exact ⟨k, ⟨k', priv⟩, msgs', hrun, hall.2.2.1⟩
      · simp at hxfer

end Hwemu
