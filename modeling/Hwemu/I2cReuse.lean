import Hwemu.Lib.Machine
import Hwemu.Smbus

/-!
# The pool of i2c devices

`hwe_destroy_i2c_device` leaves the private device in a list, and `alloc_dev` takes one that is not
in use from there before it asks for memory. `init_dev` leaves the bytes of the old response, the
pointer into them and the flag `async` as they are; nobody can tell.
-/

namespace Hwemu

variable {w : Nat}

/-- A private device in the list `devices` of the i2c driver. -/
structure I2cEntry where
  addr : Nat
  priv : I2cPriv

def findUnusedDev (devices : List I2cEntry) : Option I2cEntry := devices.find? fun dev => !dev.priv.inUse

/-- `alloc_dev`: the address of the private device, and the list. `kzalloc` is the address of new
memory, if there is any. -/
def allocDev (kzalloc : Option Nat) (hwedev index : Nat) (devices : List I2cEntry) :
    Option (Nat × List I2cEntry) :=
  match findUnusedDev devices with
  | some ret => some (ret.addr, devices.map fun dev =>
      if dev.addr = ret.addr then { dev with priv := dev.priv.initDev hwedev index } else dev)
  | none =>
      match kzalloc with
      | none => none
      | some addr => some (addr, { addr := addr, priv := I2cPriv.zeroed.initDev hwedev index } :: devices)

def hwei2cSmbusXfer (call : SmbusCall) (dev : I2cPriv) (k : Kernel w) :
    Except Fault ((Int × SmbusData × I2cPriv) × Kernel w) :=
  if dev.inUse then
    withLock .i2c k fun k => do
      let (err, data, chip) ← doSmbusXfer call dev.chip
      return ((err, data, { dev with chip := chip }), k)
  else return ((-enodev, call.data, dev), k)

/-- What is done with a private device, each time with the store of that time. -/
inductive I2cUse (w : Nat) where
  | masterXfer (k : Kernel w) (msgs : List I2cMsg)
  | smbusXfer (k : Kernel w) (call : SmbusCall)
  | asyncRx (pair : Pair w)

/-- What the caller gets, and what is done to the response on the way. -/
inductive I2cOut where
  | xfer (ret : Int) (msgs : List I2cMsg) (acts : List RespAct)
  | smbus (ret : Int) (data : SmbusData)
  | asyncRx (acts : List RespAct)

def I2cUse.exec : I2cUse w → I2cPriv → Except Fault (I2cOut × I2cPriv)
  | masterXfer k msgs, dev => do
      let ((ret, msgs, acts, dev), _) ← hwei2cMasterXfer msgs dev k
      return (.xfer ret msgs acts, dev)
  | smbusXfer k call, dev => do
      let ((ret, data, dev), _) ← hwei2cSmbusXfer call dev k
      return (.smbus ret data, dev)
  | asyncRx pair, dev => do
      let (acts, dev) ← hweI2cAsyncRx pair dev
      return (.asyncRx acts, dev)

/-! ### What cannot be seen of a response buffer -/

/-- With nothing pending the other fields do not matter, and of the bytes only the pending ones. -/
structure RespBuffer.Alike (b c : RespBuffer) : Prop where
  respSize : b.respSize = c.respSize
  async : b.respSize ≠ 0 → b.async = c.async
  respPtr : b.respSize ≠ 0 → b.respPtr = c.respPtr
  resp : ∀ off, b.respSize ≠ 0 → b.respPtr = some off →
    (b.resp.drop off).take b.respSize = (c.resp.drop off).take b.respSize

namespace RespBuffer.Alike

variable {b c : RespBuffer}

theorem of_zero (hb : b.respSize = 0) (hc : c.respSize = 0) : b.Alike c :=
  ⟨hb.trans hc.symm, fun hne => absurd hb hne, fun hne => absurd hb hne, fun _ hne => absurd hb hne⟩

theorem refusesAsync (h : b.Alike c) : b.refusesAsync = c.refusesAsync := by
  unfold RespBuffer.refusesAsync
  by_cases hzero : b.respSize = 0
  · simp [hzero, ← h.respSize]
  · rw [h.respSize, h.async hzero, h.respPtr hzero]

/-- What is loaded hides what was there. -/
theorem load (b c : RespBuffer) (async : Bool) (data : List UInt8) :
    Except.Rel Alike (b.load async data) (c.load async data) := by
  unfold RespBuffer.load RespBuffer.fill
  by_cases hlen : data.length ≤ hweMaxResponse
  · rw [dif_pos hlen, dif_pos hlen]
    refine .ok ⟨rfl, fun _ => rfl, fun _ => rfl, ?_⟩
    intro off _ hoff
    obtain rfl := Option.some.inj hoff
    change (data ++ _).take data.length = (data ++ _).take data.length
    rw [List.take_left, List.take_left]
  · rw [dif_neg hlen, dif_neg hlen]
    exact .error _

/-- A read of pending bytes. -/
theorem peek (h : b.Alike c) (hne : b.respSize ≠ 0) {size : Nat} (hsize : size ≤ b.respSize) :
    b.peek size = c.peek size := by
  unfold RespBuffer.peek
  split
  · rfl
  · rw [← h.respPtr hne]
    cases hptr : b.respPtr with
    | none => rfl
    | some off =>
        have hbytes := congrArg (List.take size) (h.resp off hne hptr)
        rw [List.take_take, List.take_take, Nat.min_eq_left hsize] at hbytes
        dsimp only
        rw [hbytes]

theorem read (h : b.Alike c) (hne : b.respSize ≠ 0) {size : Nat} (hsize : size ≤ b.respSize) :
    ((b.shrink size).advance size).Alike ((c.shrink size).advance size) := by
  have hleft : (c.shrink size).respSize = (b.shrink size).respSize := by
    unfold RespBuffer.shrink
    rw [h.respSize]
  have hle : (b.shrink size).respSize ≤ b.respSize - size := by
    unfold RespBuffer.shrink toSizeT
    dsimp only
    omega
  refine ⟨hleft.symm, fun _ => h.async hne, fun _ => ?_, ?_⟩
  · change b.respPtr.map (· + size) = c.respPtr.map (· + size)
    rw [h.respPtr hne]
  · intro start _ hstart
    obtain ⟨off, hptr, rfl⟩ := Option.map_eq_some_iff.mp hstart
    have hbytes := congrArg (List.drop size) (h.resp off hne hptr)
    rw [List.drop_take, List.drop_take, List.drop_drop, List.drop_drop] at hbytes
    have hfirst := congrArg (List.take (b.shrink size).respSize) hbytes
    rwa [List.take_take, List.take_take, Nat.min_eq_left hle] at hfirst

end RespBuffer.Alike

/-! ### What cannot be seen of a private device -/

/-- The records differ in what cannot be seen of the response buffer. -/
def I2cPriv.Alike (dev₁ dev₂ : I2cPriv) : Prop :=
  ∃ buffer, dev₁.buffer.Alike buffer ∧ dev₂ = { dev₁ with buffer := buffer }

/-- `init_dev` hides whatever the record held. -/
theorem I2cPriv.Alike.initDev (dev₁ dev₂ : I2cPriv) (hwedev index : Nat) :
    (dev₁.initDev hwedev index).Alike (dev₂.initDev hwedev index) :=
  ⟨dev₂.buffer.discard, .of_zero rfl rfl, rfl⟩

section

variable {dev₁ dev₂ : I2cPriv}

/-- **One message.** -/
theorem xferMsg_alike (h : dev₁.Alike dev₂) (k : Kernel w) (m : I2cMsg) :
    Except.Rel (Machine.Same (Machine.Same I2cPriv.Alike)) (xferMsg k m dev₁) (xferMsg k m dev₂) := by
  obtain ⟨buffer, hbuffer, rfl⟩ := h
  unfold xferMsg
  dsimp only
  split
  · rw [← hbuffer.respSize]
    split
    · rename_i hne
      have hmin : (if dev₁.buffer.respSize > m.len.toNat then m.len.toNat else dev₁.buffer.respSize) ≤
          dev₁.buffer.respSize := by
        split
        · omega
        · exact le_rfl
      rw [← hbuffer.peek hne hmin]
      cases dev₁.buffer.peek _ with
      | error fault => exact .error fault
      | ok bytes => exact .ok ⟨rfl, rfl, _, hbuffer.read hne hmin, rfl⟩
    · exact .ok ⟨rfl, rfl, buffer, hbuffer, rfl⟩
  · cases k.deref dev₁.hwedev with
    | error fault => exact .error fault
    | ok d =>
        rw [Except.ok_bind, Except.ok_bind]
        cases findResponse d m.buf m.len.toNat with
        | none => exact .ok ⟨rfl, rfl, buffer.discard, .of_zero rfl rfl, rfl⟩
        | some pair =>
            refine (RespBuffer.Alike.load dev₁.buffer buffer false pair.resp).bind ?_
            exact fun _ b hb => .ok ⟨rfl, rfl, b, hb, rfl⟩

theorem doMasterXfer_alike (k : Kernel w) (msgs : List I2cMsg) (err : Int) (h : dev₁.Alike dev₂) :
    Except.Rel (Machine.Same (Machine.Same (Machine.Same I2cPriv.Alike))) (doMasterXfer k msgs err dev₁)
      (doMasterXfer k msgs err dev₂) := by
  induction msgs generalizing err dev₁ dev₂ with
  | nil => exact .ok ⟨rfl, rfl, rfl, h⟩
  | cons m msgs ih =>
      refine (xferMsg_alike h k m).bind ?_
      rintro ⟨m', act, dev₁'⟩ ⟨_, _, dev₂'⟩ ⟨rfl, rfl, h'⟩
      refine (ih (errAfter err act) h').bind ?_
      rintro ⟨ret, msgs', acts, dev₁''⟩ ⟨_, _, _, dev₂''⟩ ⟨rfl, rfl, rfl, h''⟩
      exact .ok ⟨rfl, rfl, rfl, h''⟩

/-- Work under the lock that ends alike. -/
theorem withLock_rel {α : Type} {P : α → α → Prop} {iface : HweIface} {k : Kernel w}
    {f g : Kernel w → Except Fault (α × Kernel w)}
    (h : ∀ k, Except.Rel (fun a b => P a.1 b.1 ∧ a.2 = b.2) (f k) (g k)) :
    Except.Rel (fun a b => P a.1 b.1 ∧ a.2 = b.2) (withLock iface k f) (withLock iface k g) := by
  unfold withLock
  cases lockIfaceDevs iface k with
  | error fault => exact .error fault
  | ok k =>
      refine (h k).bind ?_
      rintro ⟨a, k₁⟩ ⟨b, _⟩ ⟨hab, rfl⟩
      exact .ok ⟨hab, rfl⟩

theorem hweI2cAsyncRx_alike (h : dev₁.Alike dev₂) (pair : Pair w) :
    Except.Rel (Machine.Same I2cPriv.Alike) (hweI2cAsyncRx pair dev₁) (hweI2cAsyncRx pair dev₂) := by
  obtain ⟨buffer, hbuffer, rfl⟩ := h
  unfold hweI2cAsyncRx
  dsimp only
  split
  · exact .ok ⟨rfl, buffer, hbuffer, rfl⟩
  · rw [← hbuffer.refusesAsync]
    split
    · exact .ok ⟨rfl, buffer, hbuffer, rfl⟩
    · refine (RespBuffer.Alike.load dev₁.buffer buffer true pair.resp).bind ?_
      exact fun _ b hb => .ok ⟨rfl, b, hb, rfl⟩

theorem hwei2cMasterXfer_alike (h : dev₁.Alike dev₂) (k : Kernel w) (msgs : List I2cMsg) :
    Except.Rel (fun a b => Machine.Same (Machine.Same (Machine.Same I2cPriv.Alike)) a.1 b.1 ∧ a.2 = b.2)
      (hwei2cMasterXfer msgs dev₁ k) (hwei2cMasterXfer msgs dev₂ k) := by
  have huse : dev₂.inUse = dev₁.inUse := by
    obtain ⟨buffer, _, rfl⟩ := h
    rfl
  unfold hwei2cMasterXfer
  rw [huse]
  split
  · refine withLock_rel fun k => ?_
    refine (doMasterXfer_alike k msgs msgs.length h).bind ?_
    exact fun _ _ hout => .ok ⟨hout, rfl⟩
  · exact .ok ⟨⟨rfl, rfl, rfl, h⟩, rfl⟩

theorem hwei2cSmbusXfer_alike (h : dev₁.Alike dev₂) (k : Kernel w) (call : SmbusCall) :
    Except.Rel (fun a b => Machine.Same (Machine.Same I2cPriv.Alike) a.1 b.1 ∧ a.2 = b.2)
      (hwei2cSmbusXfer call dev₁ k) (hwei2cSmbusXfer call dev₂ k) := by
  obtain ⟨buffer, hbuffer, rfl⟩ := h
  unfold hwei2cSmbusXfer
  dsimp only
  split
  · refine withLock_rel fun k => ?_
    cases doSmbusXfer call dev₁.chip with
    | error fault => exact .error fault
    | ok out => exact .ok ⟨⟨rfl, rfl, buffer, hbuffer, rfl⟩, rfl⟩
  · exact .ok ⟨⟨rfl, rfl, buffer, hbuffer, rfl⟩, rfl⟩

/-- **One use** of the device. -/
theorem I2cUse.exec_alike (use : I2cUse w) (dev₁ dev₂ : I2cPriv) (h : dev₁.Alike dev₂) :
    Except.Rel (Machine.Same I2cPriv.Alike) (use.exec dev₁) (use.exec dev₂) := by
  cases use with
  | masterXfer k msgs =>
      refine (hwei2cMasterXfer_alike h k msgs).bind ?_
      rintro ⟨⟨ret, msgs', acts, dev₁'⟩, k'⟩ ⟨⟨_, _, _, dev₂'⟩, _⟩ ⟨⟨rfl, rfl, rfl, h'⟩, rfl⟩
      exact .ok ⟨rfl, h'⟩
  | smbusXfer k call =>
      refine (hwei2cSmbusXfer_alike h k call).bind ?_
      rintro ⟨⟨ret, data, dev₁'⟩, k'⟩ ⟨⟨_, _, dev₂'⟩, _⟩ ⟨⟨rfl, rfl, h'⟩, rfl⟩
      exact .ok ⟨rfl, h'⟩
  | asyncRx pair =>
      refine (hweI2cAsyncRx_alike h pair).bind ?_
      rintro ⟨acts, dev₁'⟩ ⟨_, dev₂'⟩ ⟨rfl, h'⟩
      exact .ok ⟨rfl, h'⟩

end

/-! ### Reuse -/

theorem allocDev_of_unused {devices : List I2cEntry} {ret : I2cEntry} (h : findUnusedDev devices = some ret)
    (kzalloc : Option Nat) (hwedev index : Nat) :
    ∃ devices', allocDev kzalloc hwedev index devices = some (ret.addr, devices') ∧
      { ret with priv := ret.priv.initDev hwedev index } ∈ devices' := by
  unfold allocDev
  rw [h]
  refine ⟨_, rfl, ?_⟩
  exact List.mem_map.mpr ⟨ret, List.mem_of_find?_eq_some h, if_pos rfl⟩

/-- **A device that is taken from the list cannot be told from a new one**, whatever was done with it:
what every sequence of transfers and deliveries returns is the same as for a record of zeros. -/
theorem recycled_as_new {devices : List I2cEntry} {ret : I2cEntry} (h : findUnusedDev devices = some ret)
    (kzalloc : Option Nat) (hwedev index : Nat) :
    ∃ devices' dev, allocDev kzalloc hwedev index devices = some (ret.addr, devices') ∧
      { addr := ret.addr, priv := dev } ∈ devices' ∧ ∀ uses : List (I2cUse w),
        Machine.outputs I2cUse.exec uses dev =
          Machine.outputs I2cUse.exec uses (I2cPriv.zeroed.initDev hwedev index) := by
  obtain ⟨devices', halloc, hmem⟩ := allocDev_of_unused h kzalloc hwedev index
  refine ⟨devices', _, halloc, hmem, fun uses => ?_⟩
  exact Machine.outputs_eq I2cUse.exec_alike uses (.initDev ret.priv .zeroed hwedev index)

/-- A device destroyed while two bytes of a response from a timer were still to be read. -/
theorem recycled_as_new_applies : ∃ (ret : I2cEntry) (devices' : List I2cEntry) (dev : I2cPriv),
    ret.priv.buffer.respSize = 2 ∧ ret.priv.buffer.respPtr = some 1 ∧
    allocDev none 1 0 [ret] = some (ret.addr, devices') ∧ { addr := ret.addr, priv := dev } ∈ devices' ∧
    ∀ uses : List (I2cUse 64), Machine.outputs I2cUse.exec uses dev =
      Machine.outputs I2cUse.exec uses (I2cPriv.zeroed.initDev 1 0) := by
  let buffer : RespBuffer :=
    { resp := List.replicate hweMaxResponse 0x55
      respPtr := some 1
      respSize := 2
      async := true
      length_resp := List.length_replicate }
  let ret : I2cEntry :=
    { addr := 2
      priv := hweDestroyI2cDevice { I2cPriv.zeroed.initDev 1 0 with buffer := buffer } }
  have hunused : findUnusedDev [ret] = some ret := rfl
  obtain ⟨devices', dev, halloc, hmem, hsame⟩ := recycled_as_new (w := 64) hunused none 1 0
  exact ⟨ret, devices', dev, rfl, rfl, halloc, hmem, hsame⟩

end Hwemu
