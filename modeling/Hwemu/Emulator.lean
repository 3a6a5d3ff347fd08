import Hwemu.DriverTables
import Hwemu.SpiQueue

/-!
# The emulator at work

The drivers together: what their users call, on open ttys, adapters, buses and network devices, the
responses that the timer hands over, and the operations on devices and pairs. The file operations of
`hwe_tty.c` and the transmit function of `hwe_net.c` stand here, with what both do with a response.
-/

namespace Hwemu

variable {w : Nat}

def pageSize : Nat := 4096

/-- What the kernel services called with a response return: how many bytes the flip buffer of a port
takes, whether there is memory for a frame, and what `netif_rx` says. -/
structure RxEnv where
  flip : Nat
  skb : Bool
  netifRx : Int

/-- The counters of `struct net_device_stats` that the driver keeps, and the frames it handed up. -/
structure NetPriv (w : Nat) where
  txBytes : BitVec w
  txPackets : BitVec w
  rxPackets : BitVec w
  received : List (List UInt8)

def NetPriv.zeroed : NetPriv w := { txBytes := 0, txPackets := 0, rxPackets := 0, received := [] }

/-- The module with what its users see of it. `ttys` is `driver_data` of each open tty, which is the
number of a slot of the tty driver, `ports` what was ever pushed to a port, and `spi` and `net` the
memory of the private devices of these drivers, by address. -/
structure Emulator (w : Nat) where
  m : HwemuModule w
  ttys : Nat → Option Nat
  ports : Nat → List UInt8
  spi : Nat → RespBuffer
  net : Nat → NetPriv w

/-- The module is loaded and nothing has been done yet. -/
def Emulator.loaded (w : Nat) (objs : Registry KernelObj) : Emulator w :=
  { m := .empty (Kernel.loaded w) objs
    ttys := fun _ => none
    ports := fun _ => []
    spi := fun _ => .zeroed
    net := fun _ => .zeroed }

namespace Emulator

/-- The work of a handler under the semaphore of its interface. -/
def withLock {α : Type} (iface : HweIface) (s : Emulator w)
    (body : Emulator w → Except Fault (α × Emulator w)) : Except Fault (α × Emulator w) := do
  let k ← lockIfaceDevs iface s.m.k
  let (ret, s) ← body { s with m := s.m.setKernel k }
  return (ret, { s with m := s.m.setKernel (unlockIfaceDevs iface s.m.k) })

/-! ### tty -/

/-- `tty_insert_flip_string_fixed_flag` and `tty_flip_buffer_push`. -/
def pushFlip (env : RxEnv) (index : Nat) (resp : List UInt8) (s : Emulator w) : Emulator w :=
  { s with ports := Function.update s.ports index (s.ports index ++ resp.take env.flip) }

/-- `*(struct hwe_dev_priv **)tty->driver_data`. -/
def ttyDev (tty : Nat) (s : Emulator w) : Except Fault (Option PrivDev) :=
  match s.ttys tty with
  | none => .error .nullDeref
  | some slot => .ok (s.m.ttyDevices slot)

/-- The tty core only asks for indexes of the range that the driver was allocated with. -/
def hwettyOpen (tty : Nat) (index : Fin hweMaxDevices) (s : Emulator w) :
    Except Fault (Int × Emulator w) :=
  s.withLock .tty fun s => do
    let s := { s with ttys := Function.update s.ttys tty (some index.val) }
    match ← s.ttyDev tty with
    | none => return (-enodev, s)
    | some _ => return (0, s)

/-- `close_dev` does nothing. -/
def hwettyClose (tty : Nat) (s : Emulator w) : Except Fault (Unit × Emulator w) :=
  s.withLock .tty fun s => do
    let _ ← s.ttyDev tty
    return ((), s)

def hwettyWrite (env : HweIface → Nat → Nat → RxEnv) (tty : Nat) (buffer : List UInt8) (s : Emulator w) :
    Except Fault (Int × Emulator w) :=
  s.withLock .tty fun s => do
    match ← s.ttyDev tty with
    | none => return (-enodev, s)
    | some dev => do
        let hwedev ← s.m.k.deref dev.hwedev
        let count := toInt buffer.length
        match findResponse hwedev buffer count with
        | none => return (count, s)
        | some pair => return (count, s.pushFlip (env .tty dev.index pair.index) dev.index pair.resp)

/-- As it is before Linux 5.14; later it is unsigned, and the error is a large room. -/
def hwettyWriteRoom (tty : Nat) (s : Emulator w) : Except Fault (Int × Emulator w) :=
  s.withLock .tty fun s => do
    match ← s.ttyDev tty with
    | none => return (-enodev, s)
    | some _ => return ((pageSize : Int), s)

def hweTtyAsyncRx (env : HweIface → Nat → Nat → RxEnv) (device : Nat) (pair : Pair w) (s : Emulator w) :
    Except Fault (Emulator w) :=
  match findTtyDevice device s.m with
  | none => .error .useAfterFree
  | some dev => .ok (s.pushFlip (env .tty dev.index pair.index) dev.index pair.resp)

/-! ### net -/

/-- The private device of a net device that has not been freed. -/
def netDev (device : Nat) (s : Emulator w) : Except Fault PrivDev :=
  match s.m.netDevices.find? fun e => e.priv.addr == device with
  | none => .error .useAfterFree
  | some e => if e.freed then .error .useAfterFree else .ok e.priv

def setNet (device : Nat) (priv : NetPriv w) (s : Emulator w) : Emulator w :=
  { s with net := Function.update s.net device priv }

/-- `send_response`. Memory for the frame is not checked for. -/
def sendResponse (env : RxEnv) (dev : Nat) (data : List UInt8) (s : Emulator w) :
    Except Fault (Int × Emulator w) :=
  if !env.skb then .error .nullDeref
  else
    let priv := s.net dev
    let priv := { priv with rxPackets := priv.rxPackets + 1, received := priv.received ++ [data] }
    .ok (env.netifRx, s.setNet dev priv)

def hwenetXmit (env : HweIface → Nat → Nat → RxEnv) (ndev : Nat) (data : List UInt8) (s : Emulator w) :
    Except Fault (Int × Emulator w) := do
  let dev ← s.netDev ndev
  let priv := s.net ndev
  let priv := { priv with
    txBytes := priv.txBytes + BitVec.ofNat w data.length
    txPackets := priv.txPackets + 1 }
  let s := s.setNet ndev priv
  let hwedev ← s.m.k.deref dev.hwedev
  match findResponse hwedev data (toInt data.length) with
  | some pair => s.sendResponse (env .net dev.index pair.index) ndev pair.resp
  | none => return (0, s)

def hweNetAsyncRx (env : HweIface → Nat → Nat → RxEnv) (device : Nat) (pair : Pair w) (s : Emulator w) :
    Except Fault (Emulator w) := do
  let dev ← s.netDev device
  let (_, s) ← s.sendResponse (env .net dev.index pair.index) device pair.resp
  return s

/-! ### i2c -/

def i2cDev (device : Nat) (s : Emulator w) : Except Fault I2cEntry :=
  match s.m.i2cDevices.find? fun e => e.addr == device with
  | none => .error .useAfterFree
  | some e => .ok e

/-- A write to the private device at an address. -/
def setI2c (device : Nat) (priv : I2cPriv) (s : Emulator w) : Emulator w :=
  { s with m := { s.m with i2cDevices := s.m.i2cDevices.map fun e : I2cEntry =>
      if e.addr = device then { e with priv := priv } else e } }

def i2cMasterXfer (device : Nat) (msgs : List I2cMsg) (s : Emulator w) :
    Except Fault ((Int × List I2cMsg) × Emulator w) := do
  let e ← s.i2cDev device
  let ((ret, msgs, _, priv), k) ← hwei2cMasterXfer msgs e.priv s.m.k
  return ((ret, msgs), { s.setI2c device priv with m := (s.setI2c device priv).m.setKernel k })

def i2cSmbusXfer (device : Nat) (call : SmbusCall) (s : Emulator w) :
    Except Fault ((Int × SmbusData) × Emulator w) := do
  let e ← s.i2cDev device
  let ((ret, data, priv), k) ← hwei2cSmbusXfer call e.priv s.m.k
  return ((ret, data), { s.setI2c device priv with m := (s.setI2c device priv).m.setKernel k })

def i2cAsyncRx (device : Nat) (pair : Pair w) (s : Emulator w) : Except Fault (Emulator w) := do
  let e ← s.i2cDev device
  let (_, priv) ← hweI2cAsyncRx pair e.priv
  return s.setI2c device priv

/-! ### spi -/

/-- The private device of the spi driver, with the part of its memory that the transfers use. -/
def spiDev (device : Nat) (s : Emulator w) : Except Fault SpiPriv :=
  match s.m.spiDevices.find? fun dev => dev.addr == device with
  | none => .error .useAfterFree
  | some dev => .ok { hwedev := dev.hwedev, buffer := s.spi device }

def setSpi (device : Nat) (buffer : RespBuffer) (s : Emulator w) : Emulator w :=
  { s with spi := Function.update s.spi device buffer }

def spiTransferOne (device : Nat) (t : SpiTransfer) (s : Emulator w) :
    Except Fault (Option (List UInt8) × Emulator w) := do
  let dev ← s.spiDev device
  let (rx, dev) ← hwespiTransferOne s.m.k t dev
  return (rx, s.setSpi device dev.buffer)

def spiAsyncRx (device : Nat) (pair : Pair w) (s : Emulator w) : Except Fault (Emulator w) := do
  let dev ← s.spiDev device
  let (_, buffer) ← hweSpiAsyncRx pair dev
  return s.setSpi device buffer

/-! ### The timer -/

/-- `async_rx[ifc](hwe_get_dev_priv(dev), p)`. -/
def asyncRx (env : HweIface → Nat → Nat → RxEnv) (s : Emulator w) (call : RxCall w) :
    Except Fault (Emulator w) :=
  match call.device with
  | none => .error .nullDeref
  | some device =>
      match call.iface with
      | .tty => s.hweTtyAsyncRx env device call.pair
      | .i2c => s.i2cAsyncRx device call.pair
      | .net => s.hweNetAsyncRx env device call.pair
      | .spi => s.spiAsyncRx device call.pair

/-- A tick. The handlers do not look at the lists the loops go through, so they can be called after. -/
def tick (jiff : BitVec w) (free : HweIface → Bool) (env : HweIface → Nat → Nat → RxEnv) (s : Emulator w) :
    Except Fault (Emulator w) :=
  let (k, calls) := timerTick jiff free s.m.k
  calls.foldlM (asyncRx env) { s with m := s.m.setKernel k }

end Emulator

/-! ### What is done with the emulator -/

/-- The adapter, the bus or the network device of a number is the private device that the driver
registered for it. -/
def HwemuModule.registered (iface : HweIface) (index : Nat) (m : HwemuModule w) : Option Nat :=
  match iface with
  | .tty => (m.ttyDevices index).map (·.addr)
  | .i2c => (m.i2cDevices.find? fun e => e.priv.inUse && e.priv.index == index).map (·.addr)
  | .net => (m.netDevices.find? fun e => !e.freed && e.priv.index == index).map (·.priv.addr)
  | .spi => (m.spiDevices.find? fun p => p.index == index).map (·.addr)

/-- An operation on devices and pairs, a tick, or a call of a driver. Buffers are as long as the types
of their lengths allow. -/
inductive EmuEvent (w : Nat) where
  | op (op : ModuleOp w)
  | tick (jiff : BitVec w) (free : HweIface → Bool) (env : HweIface → Nat → Nat → RxEnv)
  | ttyOpen (tty : Nat) (index : Fin hweMaxDevices)
  | ttyClose (tty : Nat)
  | ttyWrite (tty : Nat) (buffer : List UInt8) (hcount : buffer.length ≤ intMax)
      (env : HweIface → Nat → Nat → RxEnv)
  | ttyWriteRoom (tty : Nat)
  | i2cMasterXfer (index : Nat) (msgs : List I2cMsg)
  | i2cSmbusXfer (index : Nat) (call : SmbusCall)
  | spiTransfer (index : Nat) (t : SpiTransfer)
  | netXmit (index : Nat) (data : List UInt8) (hlen : data.length ≤ uintMax)
      (env : HweIface → Nat → Nat → RxEnv)

/-- What the caller gets; nothing is registered under the number in the case `absent`. -/
inductive EmuOutput where
  | done
  | absent
  | ret (ret : Int)
  | i2c (ret : Int) (msgs : List I2cMsg)
  | smbus (ret : Int) (data : SmbusData)
  | spi (rx : Option (List UInt8))

namespace Emulator

/-- A call that goes to the private device registered for a number. -/
def onRegistered {α : Type} (iface : HweIface) (index : Nat) (out : α → EmuOutput)
    (call : Nat → Emulator w → Except Fault (α × Emulator w)) (s : Emulator w) :
    Except Fault (EmuOutput × Emulator w) :=
  match s.m.registered iface index with
  | none => .ok (.absent, s)
  | some device => do
      let (ret, s) ← call device s
      return (out ret, s)

def exec (HZ : Nat) : EmuEvent w → Emulator w → Except Fault (EmuOutput × Emulator w)
  | .op op, s => do
      let (ret, m) ← s.m.exec HZ op
      return (.ret ret, { s with m := m })
  | .tick jiff free env, s => do
      let s ← s.tick jiff free env
      return (.done, s)
  | .ttyOpen tty index, s => do
      let (ret, s) ← s.hwettyOpen tty index
      return (.ret ret, s)
  | .ttyClose tty, s => do
      let (_, s) ← s.hwettyClose tty
      return (.done, s)
  | .ttyWrite tty buffer _ env, s => do
      let (ret, s) ← s.hwettyWrite env tty buffer
      return (.ret ret, s)
  | .ttyWriteRoom tty, s => do
      let (ret, s) ← s.hwettyWriteRoom tty
      return (.ret ret, s)
  | .i2cMasterXfer index msgs, s =>
      s.onRegistered .i2c index (fun out => .i2c out.1 out.2) fun device s => s.i2cMasterXfer device msgs
  | .i2cSmbusXfer index call, s =>
      s.onRegistered .i2c index (fun out => .smbus out.1 out.2) fun device s => s.i2cSmbusXfer device call
  | .spiTransfer index t, s =>
      s.onRegistered .spi index .spi fun device s => s.spiTransferOne device t
  | .netXmit index data _ env, s =>
      s.onRegistered .net index .ret fun device s => s.hwenetXmit env device data

end Emulator

end Hwemu
