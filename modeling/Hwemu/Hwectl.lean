import Hwemu.ConfigParser
import Hwemu.ConfigSysfs

/-!
# The control utility

`load_from_ini` of `control/hwectl.py` and the checks of `tests/config_sysfs.py` that it uses.
-/

namespace Hwemu

namespace Hwectl

/-! ### Checks -/

def hexChars : Str := "0123456789abcdefABCDEF".toList

def isHexStr (s : Str) : Bool := s.all fun c => hexChars.contains c

def hexChar (n : Nat) : Char := hexChars.getD n '0'

/-- `'%02x' % x` for each of the bytes. -/
def bytesToHexStr (b : List UInt8) : Str :=
  b.flatMap fun x => [hexChar (x.toNat / 16), hexChar (x.toNat % 16)]

/-- The digits of the groups of `timer:(\d+h)?(\d+m)?(\d+s)?(\d+ms)?`. -/
structure TimerGroups where
  h : Option Str
  m : Option Str
  s : Option Str
  ms : Option Str
  deriving DecidableEq

/-- `(\d+unit)?` in front of the rest of a pattern. No unit begins with a digit, so that `\d+` has
nothing to give back to it. -/
def optGroup {α : Type} (py : Python) (unit : Str) (rest : Option Str → Str → Option α) (s : Str) : Option α :=
  let digits := s.takeWhile fun c => (py.decimal c).isSome
  let tail := s.drop digits.length
  if digits ≠ [] ∧ startsWith unit tail then
    (rest (some digits) (tail.drop unit.length)).or (rest none s)
  else rest none s

def timerGroups (py : Python) (string : Str) : Option TimerGroups :=
  if startsWith "timer:".toList string then
    optGroup py ['h'] (fun h => optGroup py ['m'] fun m => optGroup py ['s'] fun s =>
      optGroup py ['m', 's'] fun ms rest => if rest = [] then some ⟨h, m, s, ms⟩ else none)
      (string.drop 6)
  else none

/-- `g and int(g[:-1]) or 0`. -/
def groupInt (py : Python) (g : Option Str) : Except PyError Int :=
  match g with
  | none => .ok 0
  | some digits =>
      match pyInt py digits with
      | none => .error .valueError
      | some n => .ok n

def inKey (msg : String) (string : Str) : Str := msg.toList ++ '"' :: string ++ ['"']

/-- The body of `check_async_key`, with the time that it computes. -/
def asyncKeyTime (py : Python) (string : Str) : Except PyError (Except Str Int) :=
  match timerGroups py string with
  | none => .ok (.error (inKey "Invalid key: " string))
  | some g => do
      let h ← groupInt py g.h
      if h > 1193 then return .error (inKey "Invalid hour in key " string)
      let m ← groupInt py g.m
      if m > 59 then return .error (inKey "Invalid minute in key " string)
      let s ← groupInt py g.s
      if s > 59 then return .error (inKey "Invalid second in key " string)
      let ms ← groupInt py g.ms
      if ms > 999 then return .error (inKey "Invalid millisecond in key " string)
      let t := h * 60 * 60 * 1000 + m * 60 * 1000 + s * 1000 + ms
      if t = 0 ∨ t > 0xffffffff then return .error (inKey "Invalid time in key " string)
      return .ok t

def checkAsyncKey (py : Python) (string : Str) : Except PyError (Bool × Option Str) := do
  match ← asyncKeyTime py string with
  | .error err => return (false, some err)
  | .ok _ => return (true, none)

/-- `EXTERN_DEV_NAME_PREFIXES`. -/
def externDevNamePrefixes : List (HweIface × Str) :=
  [(.i2c, "i2c-".toList), (.tty, "ttyUSB".toList), (.net, "eth".toList), (.spi, "spi-".toList)]

def externDevNameToIface (s : Str) : Option HweIface :=
  (externDevNamePrefixes.find? fun item => startsWith item.2 s).map Prod.fst

/-! ### Loading a configuration -/

def isQuoted (s : Str) : Bool := startsWith ['"'] s && endsWith ['"'] s

/-- `s[1: -1]`. -/
def unquote (s : Str) : Str := (s.drop 1).dropLast

def convertQuoted (s : Str) : Str := if isQuoted s then bytesToHexStr (utf8 (unquote s)) else s

section

variable (py : Python) (filename : Str)

def error {α : Type} (msg : String) (arg : Str) : Except PyError α :=
  .error (.raised ("In file ".toList ++ filename ++ ": ".toList ++ msg.toList ++ arg))

/-- The checks of the key of a pair. A quoted string is looked up in the keys of a section that is
named by a variable that does not exist. -/
def checkKey (k : Str) : Except PyError Unit :=
  let k2 := convertQuoted k
  if isHexStr k2 then
    if k2.length > hweMaxRequest * 2 then error filename "Request string too long: " k
    else if k2.length % 2 ≠ 0 then error filename "Odd number of characters in request string: " k
    else if isQuoted k then .error .nameError
    else .ok ()
  else do
    let (ok, err) ← checkAsyncKey py k2
    if ok then return () else error filename "" (err.getD [])

/-- The checks of the value of a pair. -/
def checkValue (k v : Str) : Except PyError Unit :=
  let v2 := convertQuoted v
  if v2.length < 1 then error filename "Empty response string for request: " k
  else if !isHexStr v2 then error filename "Invalid character in response: " v
  else if v2.length > hweMaxResponse * 2 then error filename "Response string too long: " v
  else if v2.length % 2 ≠ 0 then error filename "Odd number of characters in response string: " v
  else .ok ()

/-- The body of the loop over the items of a section. -/
def loadPair (k v : Str) : Except PyError Str := do
  checkKey py filename k
  checkValue filename k v
  return convertQuoted k ++ '=' :: convertQuoted v

/-- The configuration, and `dev_counts`. -/
abbrev LoadState := Config × (HweIface → Nat)

/-- The body of the loop over the sections. -/
def loadSection (ini : Ini) (st : LoadState) (item : Str × Dict Str Str) : Except PyError LoadState :=
  let (cfg, devCounts) := st
  let (sect, options) := item
  match externDevNameToIface sect with
  | none => error filename "Invalid device name: " sect
  | some ifc =>
      let cfg := if ifc ∈ cfg.keys then cfg else cfg.set ifc .empty
      let pairs : DevDict := Dict.empty.set (.name "_extern_dev_name".toList) sect
      if devCounts ifc = hweMaxDevices then error filename "Too many " (ifaceName ifc ++ " devices".toList)
      else do
        let (pairs, _) ← (ini.options options).foldlM (fun (st : DevDict × Nat) k => do
          let (pairs, i) := st
          let v ← ini.getItem py options k
          let pair ← loadPair py filename k v
          return (pairs.set (.num i) pair, i + 1)) (pairs, 0)
        let devs := (cfg.get? ifc).getD .empty
        return (cfg.set ifc (devs.set (ifaceName ifc ++ natStr (devCounts ifc)) pairs),
          Function.update devCounts ifc (devCounts ifc + 1))

/-- `load_from_ini`; there are no contents when the file cannot be opened. -/
def loadFromIni (file : Option (List UInt8)) : Except PyError Config :=
  match file with
  | none => .error (.raised (filename ++ ": File not found".toList))
  | some data => do
      let ini ← readIni py data
      let (cfg, _) ← ini.sections.items.foldlM (loadSection py filename ini) (Dict.empty, fun _ => 0)
      return cfg

end

end Hwectl

end Hwemu
