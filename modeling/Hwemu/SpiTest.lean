import Hwemu.Hwectl
import Hwemu.RandomIni
import Hwemu.Emulator
import Hwemu.Lib.Machine

/-!
# The test of the spi buses

`tests/spi_test.py` when it is not asked for asynchronous data: it loads a file, makes each request of each
section for a bus, and compares what it reads with the response in the file. Others may use the emulator in the
meantime. A message is one transfer, which spidev hands to the driver of the bus.
-/

namespace Hwemu

namespace Hwectl

/-- `bytes.fromhex(s)`; blanks may stand between the bytes, and `none` is `ValueError`. -/
def bytesFromHex : Str → Option (List UInt8)
  | [] => some []
  | [c] => if c ∈ " \t\n\x0b\x0c\r".toList then some [] else none
  | c :: d :: s =>
      if c ∈ " \t\n\x0b\x0c\r".toList then bytesFromHex (d :: s)
      else if isHexStr [c, d] then (bytesFromHex s).map fun bs =>
        UInt8.ofNat (16 * (hexChars.idxOf c.toLower) + hexChars.idxOf d.toLower) :: bs
      else none

def isAsyncPair (py : Python) (pair : Str) : Except PyError Bool :=
  match pair.splitOn '=' with
  | [key, _] => do
      let (ok, _) ← checkAsyncKey py key
      return ok
  | _ => .ok false

end Hwectl

namespace SpiTest

open Hwectl

variable {w : Nat}

/-- What the script finds on the system: where a link leads, which strings are digits, and the number of the
bus that a device file belongs to. `others` is what everybody else does before a transfer. -/
structure Env (w : Nat) where
  readlink : Str → Option Str
  isdigit : Str → Bool
  spidev : Str → Option Nat
  others : Nat → List (EmuEvent w)
  isdigit_ascii : ∀ s : Str, s ≠ [] → (∀ c ∈ s, c.isDigit = true) → isdigit s = true

/-- What the script prints, but for the words around it. -/
inductive Printed where
  | dev (name : Str)
  | query (written expected read : List UInt8)
  deriving DecidableEq

structure State (w : Nat) where
  emu : Emulator w
  transfers : Nat
  printed : List Printed
  exitcode : Nat

/-- `writing(byte_sequence)`. -/
def writing (bytes : List UInt8) : SpiTransfer where
  txBuf := some bytes
  rxBuf := false
  len := UInt32.ofNat bytes.length
  len_le tx heq := by
    obtain rfl := Option.some.inj heq
    exact Nat.mod_le _ _

/-- `reading(byte_count)`. -/
def reading (count : Nat) : SpiTransfer where
  txBuf := none
  rxBuf := true
  len := UInt32.ofNat count
  len_le _ heq := absurd heq.symm (Option.some_ne_none _)

variable (HZ : Nat) (env : Env w)

/-- `SPIDevice.transaction` with one transfer. A bus that is gone shuts its device file down. -/
def transaction (bus : Nat) (t : SpiTransfer) (s : State w) : Except PyError (Option (List UInt8) × State w) :=
  match Machine.execAll (Emulator.exec HZ) (env.others s.transfers) s.emu with
  | .error f => .error (.fault f)
  | .ok (_, emu) =>
      match emu.exec HZ (.spiTransfer bus t) with
      | .error f => .error (.fault f)
      | .ok (.spi rx, emu) => .ok (rx, { s with emu := emu, transfers := s.transfers + 1 })
      | .ok _ => .error (.osError 108)

/-- The file that `SPIDevice(chip_select, bus)` opens. -/
def spidevFile (bus cs : Int) : Str := "/dev/spidev".toList ++ intStr bus ++ '.' :: intStr cs

def spiCheckQuery (bus cs : Int) (request expectedResponse : List UInt8) (s : State w) :
    Except PyError (Bool × State w) :=
  match env.spidev (spidevFile bus cs) with
  | none => .error .fileNotFound
  | some spi => do
      let (_, s) ← transaction HZ env spi (writing request) s
      let (lst, s) ← transaction HZ env spi (reading expectedResponse.length) s
      match lst with
      | none => .error (.raised "list index out of range".toList)
      | some data =>
          return (expectedResponse == data,
            { s with printed := s.printed ++ [.query request expectedResponse data] })

def error {α : Type} (filename msg : Str) : Except PyError α :=
  .error (.raised (msg ++ ".\nMake sure the file \"".toList ++ filename ++
    "\" has been loaded by using hwectl".toList))

/-- The bus and the chip select that the link of a device leads to. -/
def busNumbers (py : Python) (filename lnk : Str) : Except PyError (Int × Int) :=
  match env.readlink lnk with
  | none => error filename ("File not found: ".toList ++ lnk)
  | some tgt =>
      let wrong : Str := "Wrong link: ".toList ++ lnk ++ " -> ".toList ++ tgt
      if !startsWith "/dev/spidev".toList tgt then error filename wrong
      else
        match (tgt.drop "/dev/spidev".toList.length).splitOn '.' with
        | [bus, cs] =>
            if !env.isdigit bus || !env.isdigit cs then error filename wrong
            else
              match pyInt py bus, pyInt py cs with
              | some bus, some cs => .ok (bus, cs)
              | _, _ => .error .valueError
        | _ => error filename wrong

/-- The bytes of the request and of the response of a pair. -/
def pairBytes (pair : Str) : Except PyError (List UInt8 × List UInt8) :=
  match pair.splitOn '=' with
  | request :: response :: _ =>
      match bytesFromHex request, bytesFromHex response with
      | some request, some response => .ok (request, response)
      | _, _ => .error .valueError
  | [request] =>
      if (bytesFromHex request).isNone then .error .valueError
      else .error (.raised "list index out of range".toList)
  | [] => .error (.raised "list index out of range".toList)

def onPair (py : Python) (filename : Str) (cfg : Config) (iface : HweIface) (devName : Str) (_pairNum : Int)
    (pair : Str) (s : State w) : Except PyError (State w) :=
  if iface ≠ .spi then .ok s
  else do
    if ← isAsyncPair py pair then return s
    match (cfg.get? iface).bind fun devs => devs.get? devName with
    | none => .error .keyError
    | some dev =>
        match dev.get? (.name "_extern_dev_name".toList) with
        | none => .error (.raised "can only concatenate str (not \"NoneType\") to str".toList)
        | some d => do
            let (bus, cs) ← busNumbers env py filename ("/dev/".toList ++ d)
            let (request, response) ← pairBytes pair
            let (ok, s) ← spiCheckQuery HZ env bus cs request response { s with printed := s.printed ++ [.dev d] }
            return if ok then s else { s with exitcode := 1 }

/-- The script on a file, with the emulator that it finds. -/
def main (py : Python) (filename : Str) (file : Option (List UInt8)) (emu : Emulator w) :
    Except PyError (State w) := do
  let cfg ← loadFromIni py filename file
  traverseConfig py (fun _ _ s => .ok s) (onPair HZ env py filename cfg) cfg
    { emu := emu, transfers := 0, printed := [], exitcode := 0 }

end SpiTest

end Hwemu
