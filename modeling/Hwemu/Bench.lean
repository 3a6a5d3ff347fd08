import Hwemu.Emulator
import Hwemu.Uninstall

/-!
# The bench

What the emulator is for, in terms of its users: a bench with up to `HWE_MAX_DEVICES` places for each
interface. A device on the bench has been taught a list of lines, each a response to a request or to the
clock, and whoever talks to it hears these responses and nothing else. There is no memory here and there
are no tables, and a device has nothing to do with the others. It is known by its place, and by its directory
to those who write to the files there.
-/

namespace Hwemu

variable {w : Nat}

/-- A line a device was taught. -/
structure Line (w : Nat) where
  index : Nat
  req : List UInt8
  resp : List UInt8
  asyncRx : Bool
  period : BitVec w
  time : BitVec w

def Pair.line (p : Pair w) : Line w :=
  { index := p.index, req := p.req, resp := p.resp, asyncRx := p.asyncRx, period := p.period, time := p.time }

/-- When the line is next to be said, if the clock says it. -/
def Line.next (jiff : BitVec w) (l : Line w) : BitVec w := if l.time = 0 then jiff else l.time + l.period

def Line.due (jiff : BitVec w) (l : Line w) : Bool := l.asyncRx && timeAfterEq jiff (l.next jiff)

def Line.ticked (jiff : BitVec w) (l : Line w) : Line w :=
  if l.due jiff then { l with time := l.next jiff } else l

/-- A device: its directory, its lines, what has happened to the response that is read in pieces, the registers,
and the frames sent and received. An interface uses what it needs of it. -/
structure BenchDev (w : Nat) where
  dir : Nat
  lines : List (Line w)
  acts : List RespAct
  chip : I2cChip
  net : NetPriv w

namespace BenchDev

def new (dir : Nat) : BenchDev w := { dir := dir, lines := [], acts := [], chip := .zeroed, net := .zeroed }

def held (dev : BenchDev w) : Chunked.Held Source UInt8 := Chunked.held dev.acts

/-- The line that answers a request. -/
def answer (request : List UInt8) (dev : BenchDev w) : Option (Line w) :=
  dev.lines.find? fun l => !l.asyncRx && l.req == request

/-- A line that can be added: its number is the first one free, and its request is new. -/
structure Accepts (dev : BenchDev w) (l : Line w) : Prop where
  room : l.index < hweMaxPairs
  free : ∀ l' ∈ dev.lines, l'.index ≠ l.index
  first : ∀ j < l.index, ∃ l' ∈ dev.lines, l'.index = j
  said : 0 < l.resp.length ∧ l.resp.length ≤ hweMaxResponse
  unmatched : l.asyncRx = false → ∀ l' ∈ dev.lines, l'.asyncRx = false → l'.req ≠ l.req
  unfired : l.asyncRx = true → l.time = 0

def act (act : RespAct) (dev : BenchDev w) : BenchDev w := { dev with acts := dev.acts ++ [act] }

/-- The response to a request takes the place of what was there before. -/
def reply (request : List UInt8) (dev : BenchDev w) : RespAct :=
  match dev.answer request with
  | some l => .load .request l.resp
  | none => .discard

/-- A response that nobody asked for waits for one that somebody did, and for a reader to finish. -/
def offer (resp : List UInt8) (dev : BenchDev w) : BenchDev w :=
  if dev.held.unread = [] ∨ (dev.held.source ≠ some .request ∧ dev.held.read = 0) then
    dev.act (.load .timer resp)
  else dev

def receive (frame : List UInt8) (dev : BenchDev w) : BenchDev w :=
  { dev with net := { dev.net with
      rxPackets := dev.net.rxPackets + 1
      received := dev.net.received ++ [frame] } }

/-- What a device does when the clock says one of its lines; the port of a tty is not part of it. -/
def said (iface : HweIface) (dev : BenchDev w) (l : Line w) : BenchDev w :=
  match iface with
  | .tty => dev
  | .i2c => offer l.resp { dev with chip := dev.chip.put l.resp }
  | .net => dev.receive l.resp
  | .spi => dev.offer l.resp

/-- The lines that are due, with their time noted. -/
def dueLines (jiff : BitVec w) (dev : BenchDev w) : List (Line w) :=
  (dev.lines.filter (Line.due jiff)).map (Line.ticked jiff)

def tick (iface : HweIface) (jiff : BitVec w) (dev : BenchDev w) : BenchDev w :=
  (dev.dueLines jiff).foldl (said iface) { dev with lines := dev.lines.map (Line.ticked jiff) }

/-- What the clock says at a tty. -/
def spoken (jiff : BitVec w) (env : Nat → RxEnv) (dev : BenchDev w) : List UInt8 :=
  (dev.dueLines jiff).flatMap fun l => l.resp.take (env l.index).flip

/-- A message to the device, or one to be filled by it. -/
def message (m : I2cMsg) (dev : BenchDev w) : I2cMsg × RespAct :=
  if m.read then
    if dev.held.unread = [] then (m.noData, .fail)
    else
      let chunk := dev.held.unread.take m.len.toNat
      (m.put chunk, .deliver chunk)
  else (m, dev.reply (m.buf.take m.len.toNat))

/-- A transfer, one message after the other; it fails if there was nothing to read. -/
def xfer : List I2cMsg → Int → BenchDev w → (Int × List I2cMsg) × BenchDev w
  | [], err, dev => ((err, []), dev)
  | m :: msgs, err, dev =>
      let (m, act) := dev.message m
      let ((err, msgs), dev) := xfer msgs (errAfter err act) (dev.act act)
      ((err, m :: msgs), dev)

def transfer (t : SpiTransfer) (dev : BenchDev w) : Option (List UInt8) × BenchDev w :=
  match t.rxBuf, t.txBuf with
  | true, none =>
      let unread := dev.held.unread
      (some (zeroFilled t.len.toNat unread),
        if unread = [] then dev else dev.act (.deliver (unread.take t.len.toNat)))
  | false, some tx => (none, dev.act (dev.reply (tx.take t.len.toNat)))
  | true, some _ => (some (List.replicate t.len.toNat 0), dev.act .discard)
  | false, none => (none, dev)

/-- A frame that is sent, and the answer to it, if there is one. -/
def xmit (env : Nat → RxEnv) (frame : List UInt8) (dev : BenchDev w) : Int × BenchDev w :=
  let sent := { dev with net := { dev.net with
    txBytes := dev.net.txBytes + BitVec.ofNat w frame.length
    txPackets := dev.net.txPackets + 1 } }
  match dev.answer frame with
  | none => (0, sent)
  | some l => ((env l.index).netifRx, sent.receive l.resp)

end BenchDev

/-- The places for devices, the place that each open tty belongs to, and what has been said at the ports
of the ttys, which stay when a device is taken away. -/
@[ext]
structure Bench (w : Nat) where
  devs : HweIface → Nat → Option (BenchDev w)
  ttys : Nat → Option Nat
  ports : Nat → List UInt8

def Bench.empty : Bench w := { devs := fun _ _ => none, ttys := fun _ => none, ports := fun _ => [] }

namespace Bench

def setDev (iface : HweIface) (index : Nat) (dev : Option (BenchDev w)) (b : Bench w) : Bench w :=
  { b with devs := fun i n => if i = iface ∧ n = index then dev else b.devs i n }

/-- All places of an interface are taken. -/
def Full (iface : HweIface) (b : Bench w) : Prop := ∀ index < hweMaxDevices, (b.devs iface index).isSome = true

def modifyDev (iface : HweIface) (index : Nat) (f : BenchDev w → BenchDev w) (b : Bench w) : Bench w :=
  b.setDev iface index ((b.devs iface index).map f)

/-- The port of a tty hears as much of a line as it takes. -/
def hear (index : Nat) (spoken : List UInt8) (b : Bench w) : Bench w :=
  { b with ports := Function.update b.ports index (b.ports index ++ spoken) }

/-- A tick reaches the interfaces in `free`. -/
def tick (jiff : BitVec w) (free : HweIface → Bool) (env : HweIface → Nat → Nat → RxEnv) (b : Bench w) :
    Bench w :=
  { b with
    devs := fun iface index =>
      if free iface then (b.devs iface index).map (BenchDev.tick iface jiff) else b.devs iface index
    ports := fun index =>
      if free .tty then b.ports index ++ ((b.devs .tty index).map (BenchDev.spoken jiff (env .tty index))).getD []
      else b.ports index }

/-- A call to the device in a place. -/
def call {α : Type} (iface : HweIface) (index : Nat) (out : α → EmuOutput)
    (f : BenchDev w → α × BenchDev w) (b : Bench w) : EmuOutput × Bench w :=
  match b.devs iface index with
  | none => (.absent, b)
  | some dev => (out (f dev).1, b.setDev iface index (some (f dev).2))

/-- What users and the clock do. A tty is written to after it was opened. -/
def interact : EmuEvent w → Bench w → Option (EmuOutput × Bench w)
  | .op _, _ => none
  | .tick jiff free env, b => some (.done, b.tick jiff free env)
  | .ttyOpen tty index, b =>
      some (.ret (if (b.devs .tty index).isSome then 0 else -enodev),
        { b with ttys := Function.update b.ttys tty (some index.val) })
  | .ttyClose tty, b => (b.ttys tty).map fun _ => (.done, b)
  | .ttyWrite tty buffer _ env, b => (b.ttys tty).map fun index =>
      match b.devs .tty index with
      | none => (.ret (-enodev), b)
      | some dev =>
          (.ret buffer.length,
            match dev.answer buffer with
            | none => b
            | some l => b.hear index (l.resp.take (env .tty index l.index).flip))
  | .ttyWriteRoom tty, b => (b.ttys tty).map fun index =>
      (.ret (if (b.devs .tty index).isSome then pageSize else -enodev), b)
  | .i2cMasterXfer index msgs, b =>
      some (b.call .i2c index (fun out => .i2c out.1 out.2) (BenchDev.xfer msgs msgs.length))
  | .i2cSmbusXfer index call, b =>
      some (b.call .i2c index (fun out => .smbus out.1 out.2) fun dev =>
        match doSmbusXfer call dev.chip with
        | .error _ => ((0, call.data), dev)
        | .ok (ret, data, chip) => ((ret, data), { dev with chip := chip }))
  | .spiTransfer index t, b => some (b.call .spi index .spi (BenchDev.transfer t))
  | .netXmit index frame _ env, b =>
      some (b.call .net index .ret (BenchDev.xmit (env .net index) frame))

end Bench

/-- What can be done to the bench between two uses. -/
inductive BenchChange (w : Nat) where
  | keep
  | attach (iface : HweIface) (index dir : Nat)
  | detach (iface : HweIface) (index : Nat)
  | learn (iface : HweIface) (index : Nat) (l : Line w)
  | forget (iface : HweIface) (index : Nat) (line : Nat)
  | clear (iface : HweIface) (index : Nat)

namespace BenchChange

def apply : BenchChange w → Bench w → Bench w
  | keep, b => b
  | attach iface index dir, b => b.setDev iface index (some (.new dir))
  | detach iface index, b => b.setDev iface index none
  | learn iface index l, b => b.modifyDev iface index fun dev => { dev with lines := dev.lines ++ [l] }
  | forget iface index line, b => b.modifyDev iface index fun dev =>
      { dev with lines := dev.lines.filter fun l => l.index ≠ line }
  | clear iface index, b => b.modifyDev iface index fun dev => { dev with lines := [] }

/-- A device comes to the first place that is free, with a directory of its own. -/
def Allowed (b : Bench w) : BenchChange w → Prop
  | keep => True
  | attach iface index dir => index < hweMaxDevices ∧ b.devs iface index = none ∧
      (∀ j < index, (b.devs iface j).isSome = true) ∧ ∀ i n dev, b.devs i n = some dev → dev.dir ≠ dir
  | detach iface index => (b.devs iface index).isSome = true
  | learn iface index l => ∃ dev, b.devs iface index = some dev ∧ dev.Accepts l
  | forget iface index line => ∃ dev, b.devs iface index = some dev ∧ ∃ l ∈ dev.lines, l.index = line
  | clear iface index => (b.devs iface index).isSome = true

end BenchChange

/-! ### What operations do -/

/-- A line that is what a text says, in the memory that the kernel had for it. -/
def Line.SaidIn (HZ : Nat) (text : List UInt8) (mem : Pair w) (l : Line w) : Prop :=
  ∃ (addr : Nat) (q : Pair w), strToPair HZ text { mem with addr := addr } = .ok (.ok q) ∧
    l = { q.line with index := l.index }

/-- The device can be taught the line by a text, and the kernel has memory and a file for it. -/
def AddPairEnv.Teaches (HZ : Nat) (env : AddPairEnv w) (text : List UInt8) (dev : BenchDev w) (l : Line w) : Prop :=
  (∃ mem, env.kmalloc = some mem ∧ l.SaidIn HZ text mem) ∧ env.sysfsCreateFile = none ∧ dev.Accepts l

/-- What the driver of an interface always asks the kernel for is there. -/
def CreateEnv.Allows (env : CreateEnv) : HweIface → Prop
  | .tty => env.kzalloc = true ∧ env.ttyPortRegisterDevice = none
  | .i2c => env.i2cAddAdapter = none
  | .net => env.allocNetdev = .succeeds ∧ env.registerNetdev = none
  | .spi => env.spiAllocMaster = true ∧ env.spiRegisterMaster = none ∧ env.spiNewDevice = true

/-- A device cannot be added without these services. -/
structure AddDeviceEnv.Allows (env : AddDeviceEnv) (iface : HweIface) : Prop where
  kzalloc : env.kzalloc = true
  create : env.create.Allows iface
  kobjectInitAndAdd : env.kobjectInitAndAdd = none
  kobjectCreateAndAdd : env.kobjectCreateAndAdd = true

/-- All that an addition may ask for is there; the i2c driver only asks for memory when it has none left. -/
structure AddDeviceEnv.Serves (env : AddDeviceEnv) (iface : HweIface) : Prop extends env.Allows iface where
  i2c : iface = .i2c → env.create.kzalloc = true

/-- The device with a directory, and its place. -/
def Bench.HasDir (dir : Nat) (iface : HweIface) (index : Nat) (dev : BenchDev w) (b : Bench w) : Prop :=
  b.devs iface index = some dev ∧ dev.dir = dir

/-- What an operation on pairs that returns `ret` does. It fails when it cannot do what it is for. -/
def Op.Does (HZ : Nat) (b : Bench w) (ret : Int) (c : BenchChange w) : Op w → Prop
  | .devAddStore dir buf env => ∃ iface index dev, b.HasDir dir iface index dev ∧
      (c = .keep ∧ ret < 0 ∧ (∀ l, ¬env.Teaches HZ buf dev l) ∨
        ∃ l, c = .learn iface index l ∧ env.Teaches HZ buf dev l ∧ ret = buf.length)
  | .hweAddPair iface devIndex pairStr env =>
      (c = .keep ∧ ret < 0 ∧ ∀ (index : Nat) (dev : BenchDev w) (l : Line w), devIndex = index →
        b.devs iface index = some dev → ¬env.Teaches HZ (cstr pairStr) dev l) ∨
      ∃ (index : Nat) (dev : BenchDev w) (l : Line w), devIndex = index ∧ b.devs iface index = some dev ∧
        c = .learn iface index l ∧ env.Teaches HZ (cstr pairStr) dev l ∧ ret = l.index
  | .devDeleteStore dir buf => ∃ iface index dev, b.HasDir dir iface index dev ∧
      (c = .keep ∧ ret < 0 ∧ (∀ line, kstrtouint buf = some line → ∀ l ∈ dev.lines, l.index ≠ line) ∨
        ∃ line, kstrtouint buf = some line ∧ c = .forget iface index line ∧ ret = buf.length)
  | .hweDeletePair iface devIndex pairIndex =>
      (c = .keep ∧ ret < 0 ∧ ∀ (index : Nat) (dev : BenchDev w), devIndex = index → b.devs iface index = some dev →
        ∀ l ∈ dev.lines, l.index ≠ toSizeT pairIndex) ∨
      ∃ index : Nat, devIndex = index ∧ c = .forget iface index (toSizeT pairIndex) ∧ ret = 0
  | .devClearStore dir buf => c = .keep ∧ ret < 0 ∧ buf = [] ∨
      ∃ iface index dev, buf ≠ [] ∧ b.HasDir dir iface index dev ∧ c = .clear iface index ∧ ret = buf.length
  | .hweClearPairs iface devIndex =>
      (c = .keep ∧ ret < 0 ∧ ∀ index : Nat, devIndex = index → b.devs iface index = none) ∨
      ∃ index : Nat, devIndex = index ∧ c = .clear iface index ∧ ret = 0
  | _ => False

/-- What an operation that returns `ret` does. An addition of a device fails when the kernel does not serve it or
there is no place left, a removal when there is nothing to remove. -/
def ModuleOp.Does (HZ : Nat) (b : Bench w) (ret : Int) (c : BenchChange w) : ModuleOp w → Prop
  | .hweAddDevice iface env => c = .keep ∧ ret < 0 ∧ (env.Serves iface → b.Full iface) ∨
      ∃ index dir : Nat, env.Allows iface ∧ c = .attach iface index dir ∧ ret = index
  | .ifaceAddStore iface buf env => c = .keep ∧ ret < 0 ∧ (buf ≠ [] → env.Serves iface → b.Full iface) ∨
      ∃ index dir, buf ≠ [] ∧ env.Allows iface ∧ c = .attach iface index dir ∧ ret = toInt buf.length
  | .hweDeleteDevice iface devIndex =>
      (c = .keep ∧ ret < 0 ∧ ∀ index : Nat, devIndex = index → b.devs iface index = none) ∨
      ∃ index : Nat, devIndex = index ∧ c = .detach iface index ∧ ret = 0
  | .ifaceUninstallStore iface buf =>
      (c = .keep ∧ ret < 0 ∧ ∀ index, firstWord buf = devName iface index → b.devs iface index = none) ∨
      ∃ index, firstWord buf = devName iface index ∧ c = .detach iface index ∧ ret = toInt buf.length
  | .onPairs op => op.val.Does HZ b ret c

/-- A step of the bench, with what the caller hears: an operation on devices and pairs makes its one change,
everything else does what the bench is for. -/
def Bench.Step (HZ : Nat) (b : Bench w) (e : EmuEvent w × EmuOutput) (b' : Bench w) : Prop :=
  match e with
  | (.op op, out) => ∃ (ret : Int) (c : BenchChange w), out = .ret ret ∧ op.Does HZ b ret c ∧ c.Allowed b ∧
      b' = c.apply b
  | (e, out) => b.interact e = some (out, b')

/-- The kernel does not fail to allocate a net device after its setup, when the driver has put it in its list. -/
def EmuEvent.SetUp : EmuEvent w → Prop
  | .op (.hweAddDevice .net env) => env.create.allocNetdev ≠ .failsAfter
  | .op (.ifaceAddStore .net _ env) => env.create.allocNetdev ≠ .failsAfter
  | _ => True

/-- What the bench asks of its users and of the kernel: a tty that is used was opened, and there is memory
for the frames. -/
def EmuEvent.Served (b : Bench w) : EmuEvent w → Prop
  | .tick jiff free env => free .net = true → ∀ index dev, b.devs .net index = some dev →
      ∀ l ∈ dev.dueLines jiff, (env .net index l.index).skb = true
  | .ttyClose tty => (b.ttys tty).isSome = true
  | .ttyWrite tty _ _ _ => (b.ttys tty).isSome = true
  | .ttyWriteRoom tty => (b.ttys tty).isSome = true
  | .netXmit index frame _ env => ∀ dev l, b.devs .net index = some dev → dev.answer frame = some l →
      (env .net index l.index).skb = true
  | _ => True

end Hwemu
