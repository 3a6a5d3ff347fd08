import Hwemu.Lib.Chunked
import Hwemu.Pair

/-!
# The response buffer of a private device

`resp`, `resp_ptr`, `resp_size` and `async`, the fields the i2c and the spi driver keep a response in
until it has been read, and the abstract message they stand for.
-/

namespace Hwemu

variable {w : Nat}

/-- `resp_ptr` is kept as its offset from `resp`, and is `none` until it is set. -/
structure RespBuffer where
  resp : List UInt8
  respPtr : Option Nat
  respSize : Nat
  async : Bool
  length_resp : resp.length = hweMaxResponse

namespace RespBuffer

/-- The fields of a record that was just allocated with `kzalloc`. -/
def zeroed : RespBuffer :=
  { resp := List.replicate hweMaxResponse 0
    respPtr := none
    respSize := 0
    async := false
    length_resp := List.length_replicate }

/-- `memcpy(dev->resp, data, size)` for the `size` bytes of `data`. -/
def fill (data : List UInt8) (b : RespBuffer) : Except Fault RespBuffer :=
  if h : data.length ≤ hweMaxResponse then
    .ok { b with
      resp := data ++ b.resp.drop data.length
      length_resp := by
        rw [List.length_append, List.length_drop, b.length_resp]
        omega }
  else .error .outOfBounds

/-- A response put into the buffer, ready to be read from its start. -/
def load (async : Bool) (data : List UInt8) (b : RespBuffer) : Except Fault RespBuffer := do
  let b ← b.fill data
  return { b with respSize := data.length, respPtr := some 0, async := async }

/-- `memcpy(buf, dev->resp_ptr, size)`. -/
def peek (size : Nat) (b : RespBuffer) : Except Fault (List UInt8) :=
  if size = 0 then .ok []
  else
    match b.respPtr with
    | none => .error .nullDeref
    | some off =>
        if off + size ≤ hweMaxResponse then .ok ((b.resp.drop off).take size)
        else .error .outOfBounds

/-- `dev->resp_size -= size`, in `size_t`. -/
def shrink (size : Nat) (b : RespBuffer) : RespBuffer :=
  { b with respSize := toSizeT ((b.respSize : Int) - size) }

/-- `dev->resp_ptr += size`. -/
def advance (size : Nat) (b : RespBuffer) : RespBuffer :=
  { b with respPtr := b.respPtr.map (· + size) }

def discard (b : RespBuffer) : RespBuffer := { b with respSize := 0 }

/-- The condition under which `async_rx` leaves the buffer alone: a pending response that is not
asynchronous, or that is already being read. -/
def refusesAsync (b : RespBuffer) : Bool :=
  b.respSize ≠ 0 && (!b.async || b.respPtr ≠ some 0)

end RespBuffer

theorem RespBuffer.respSize_shrink {b : RespBuffer} {size : Nat} (hsize : size ≤ b.respSize)
    (hmax : b.respSize ≤ hweMaxResponse) : (b.shrink size).respSize = b.respSize - size := by
  change toSizeT _ = _
  unfold toSizeT
  unfold hweMaxResponse at hmax
  omega

/-! ### What the buffer stands for -/

/-- Where a response comes from: the pair of a request, or a timer. -/
inductive Source where
  | request
  | timer
  deriving DecidableEq, Repr

abbrev RespAct := Chunked.Act Source UInt8

/-- The window of the buffer is a piece of what is left of the message `h`, from its next byte on. -/
structure RespBuffer.Window (b : RespBuffer) (h : Chunked.Held Source UInt8) : Prop where
  data_le : h.data.length ≤ hweMaxResponse
  resp : b.resp.take h.data.length = h.data
  size_le : h.read + b.respSize ≤ h.data.length
  ptr : b.respSize ≠ 0 → b.respPtr = some h.read
  inside : ∀ off, b.respPtr = some off → off + b.respSize ≤ hweMaxResponse

/-- The window is all that is left of the message, and `async` says where it comes from. -/
structure RespBuffer.Holds (b : RespBuffer) (h : Chunked.Held Source UInt8) : Prop
    extends b.Window h where
  size : h.data.length = h.read + b.respSize
  async : b.respSize ≠ 0 → h.source = some (if b.async then .timer else .request)

section

variable {b : RespBuffer} {h : Chunked.Held Source UInt8}

theorem RespBuffer.Window.length_unread (hb : b.Window h) : b.respSize ≤ h.unread.length := by
  have hle := hb.size_le
  rw [Chunked.Held.unread, List.length_drop]
  omega

/-- **A copy out of the window** is the next bytes of the message. -/
theorem RespBuffer.Window.peek (hb : b.Window h) (hne : b.respSize ≠ 0) {size : Nat}
    (hsize : size ≤ b.respSize) : b.peek size = .ok (h.unread.take size) := by
  have hptr := hb.ptr hne
  have hinside := hb.inside h.read hptr
  have hle := hb.size_le
  unfold RespBuffer.peek
  split
  · rename_i hzero
    rw [hzero]
    rfl
  · rw [hptr]
    dsimp only
    rw [if_pos (by omega)]
    have hunread : h.unread = (b.resp.drop h.read).take (h.data.length - h.read) := by
      rw [Chunked.Held.unread, ← List.drop_take, hb.resp]
    rw [hunread, List.take_take, Nat.min_eq_left (by omega)]

theorem RespBuffer.load_eq {data : List UInt8} (b : RespBuffer) (async : Bool)
    (hlen : data.length ≤ hweMaxResponse) :
    ∃ b', b.load async data = .ok b' ∧ b'.resp = data ++ b.resp.drop data.length ∧
      b'.respPtr = some 0 ∧ b'.respSize = data.length ∧ b'.async = async := by
  unfold RespBuffer.load RespBuffer.fill
  rw [dif_pos hlen]
  exact ⟨_, rfl, rfl, rfl, rfl, rfl⟩

/-- Any response that fits can be loaded, and is then what the buffer holds. -/
theorem RespBuffer.Holds.load {data : List UInt8} (b : RespBuffer) (source : Source)
    (hlen : data.length ≤ hweMaxResponse) :
    ∃ b', b.load (source = .timer) data = .ok b' ∧ b'.Holds ⟨some source, data, 0⟩ := by
  obtain ⟨b', hload, hresp, hptr, hsize, hasync⟩ := b.load_eq (source = .timer) hlen
  refine ⟨b', hload, ⟨hlen, ?_, ?_, fun _ => hptr, ?_⟩, ?_, ?_⟩
  · rw [hresp]
    exact List.take_left
  · rw [hsize]
    exact (Nat.zero_add _).le
  · intro off hoff
    rw [hptr] at hoff
    obtain rfl := Option.some.inj hoff
    rw [hsize, Nat.zero_add]
    exact hlen
  · rw [hsize]
    exact (Nat.zero_add _).symm
  · intro _
    rw [hasync]
    cases source with
    | request => rfl
    | timer => rfl

theorem RespBuffer.Window.empty (hinside : ∀ off, b.respPtr = some off → off ≤ hweMaxResponse)
    (hsize : b.respSize = 0) : b.Window .empty := by
  refine ⟨Nat.zero_le _, rfl, by rw [hsize]; rfl, fun hne => absurd hsize hne, ?_⟩
  intro off hoff
  rw [hsize]
  exact hinside off hoff

theorem RespBuffer.Window.discard (hb : b.Window h) : b.discard.Window .empty := by
  apply RespBuffer.Window.empty
  · intro off hoff
    exact le_trans (Nat.le_add_right _ _) (hb.inside off hoff)
  · rfl

end

namespace RespBuffer.Holds

variable {b : RespBuffer} {h : Chunked.Held Source UInt8}

theorem zeroed : RespBuffer.zeroed.Holds .empty := by
  refine ⟨RespBuffer.Window.empty ?_ rfl, rfl, fun hne => absurd rfl hne⟩
  intro off hoff
  exact absurd hoff (by simp [RespBuffer.zeroed])

theorem discard (hb : b.Holds h) : b.discard.Holds .empty :=
  ⟨hb.toWindow.discard, rfl, fun hne => absurd rfl hne⟩

theorem length_unread (hb : b.Holds h) : h.unread.length = b.respSize := by
  rw [Chunked.Held.unread, List.length_drop, hb.size, Nat.add_sub_cancel_left]

theorem unread_eq_nil_iff (hb : b.Holds h) : h.unread = [] ↔ b.respSize = 0 := by
  rw [← List.length_eq_zero_iff, hb.length_unread]

/-- **A read** of at most what is left takes the next bytes of the message. -/
theorem read (hb : b.Holds h) (hne : b.respSize ≠ 0) {size : Nat} (hsize : size ≤ b.respSize) :
    ((b.shrink size).advance size).Holds { h with read := h.read + (h.unread.take size).length } := by
  have hptr := hb.ptr hne
  have hinside := hb.inside h.read hptr
  have hall := hb.size
  have hlen : (h.unread.take size).length = size := by
    rw [List.length_take, hb.length_unread]
    exact Nat.min_eq_left hsize
  have hleft : ((b.shrink size).advance size).respSize = b.respSize - size :=
    respSize_shrink hsize (by omega)
  have hmoved : ((b.shrink size).advance size).respPtr = some (h.read + size) := by
    change b.respPtr.map (· + size) = _
    rw [hptr]
    rfl
  rw [hlen]
  refine ⟨⟨hb.data_le, hb.resp, ?_, fun _ => hmoved, ?_⟩, ?_, fun _ => hb.async hne⟩
  · rw [hleft]
    change h.read + size + (b.respSize - size) ≤ h.data.length
    omega
  · intro off hoff
    rw [hmoved] at hoff
    obtain rfl := Option.some.inj hoff
    rw [hleft]
    omega
  · rw [hleft]
    change h.data.length = h.read + size + (b.respSize - size)
    omega

/-- When a timer's response is turned down. -/
theorem refusesAsync_iff (hb : b.Holds h) :
    b.refusesAsync = true ↔ h.unread ≠ [] ∧ (h.source = some .request ∨ h.read ≠ 0) := by
  have hpending : h.unread ≠ [] ↔ b.respSize ≠ 0 := not_congr hb.unread_eq_nil_iff
  rw [hpending]
  unfold RespBuffer.refusesAsync
  by_cases hzero : b.respSize = 0
  · simp [hzero]
  · have hptr := hb.ptr hzero
    have hasync := hb.async hzero
    cases hflag : b.async with
    | false => simp [hzero, hflag, hasync]
    | true => simp [hzero, hflag, hasync, hptr]

end RespBuffer.Holds

end Hwemu
