import Hwemu.KernelUtils

/-!
# Request-response pairs and their text form

The pair record and the functions of `hwe_utils.c`. A pair is filled in where it was allocated, so
the parser takes the uninitialised record and returns it with the fields it sets; `w` is the number
of bits of `unsigned long` and `HZ` the tick rate.
-/

namespace Hwemu

variable {w : Nat}

/-- `struct hwe_pair`. `req` and `resp` hold the first `req_size` and `resp_size` bytes of their
arrays; `addr` is the address of the record and `dev` the address of the owning device. -/
structure Pair (w : Nat) where
  addr : Nat
  req : List UInt8
  resp : List UInt8
  dev : Nat
  index : Nat
  filename : List UInt8
  asyncRx : Bool
  periodMs : Nat
  period : BitVec w
  time : BitVec w
  deriving DecidableEq, Repr

/-- The largest timeout the kernel lets a number of milliseconds stand for. -/
def maxJiffyOffset (w : Nat) : BitVec w := BitVec.ofNat w (2 ^ (w - 2) - 2)

/-- `msecs_to_jiffies(m)`: rounded up, and `MAX_JIFFY_OFFSET` when `m` is negative as an `int`. -/
def msecsToJiffies (w HZ m : Nat) : BitVec w :=
  if 2 ^ 31 ≤ m then maxJiffyOffset w else BitVec.ofNat w ((m * HZ + 999) / 1000)

/-! ### Time strings -/

/-- A row of the unit table. -/
structure Pattern where
  unit : List UInt8
  max : Nat
  mult : Nat

/-- The unit table without its terminating row. -/
def pattern : List Pattern :=
  [⟨bytes "h", intMax, 60 * 60 * 1000⟩, ⟨bytes "m", 59, 60 * 1000⟩, ⟨bytes "s", 59, 1 * 1000⟩,
    ⟨bytes "ms", 999, 1⟩]

/-- `IS_SEP`: a null, a comma or an equals sign. -/
def isSep (c : UInt8) : Bool := c == 0 || c == 44 || c == 61

/-- The condition of the unit search: the unit stands at `ep` and no letter follows it. -/
def unitAt (unit ep : List UInt8) : Except Fault Bool := do
  if ← hasPrefix unit ep then
    let next ← deref (ep.drop unit.length)
    return !isAlpha next
  else
    return false

/-- What the scanning loop leaves behind: `ret`, `ep` and `s`. -/
structure TimeScan where
  ret : Nat
  ep : List UInt8
  s : List UInt8
  deriving DecidableEq

/-- The loop of `hwe_str_to_time` from the unit search on. `s` is the start of the current item, `n`
and `ep` what `simple_strtoull` made of it, and the list is the unit table from `p` on, so both
`p++` (in the search and at the end of the body) are one step down the list. -/
def scanUnits (str : List UInt8) :
    List Pattern → List UInt8 → Nat → List UInt8 → Nat → Except Fault TimeScan
  | [], s, _, _, _ => .ok ⟨0, s, s⟩
  | p :: ps, s, n, ep, ret => do
      if !(← unitAt p.unit ep) then scanUnits str ps s n ep ret
      else if p.max < n then return ⟨0, s, s⟩
      else
        let ret := (ret + n * p.mult) % 2 ^ 64
        if uintMax < ret then return ⟨0, str, s⟩
        else
          let s := ep.drop p.unit.length
          if ps.isEmpty || isSep (← deref s) then return ⟨ret, s, s⟩
          else
            let (n, ep) ← simpleStrtoull s
            if ep = s then return ⟨0, ep, s⟩ else scanUnits str ps s n ep ret

/-- Parses a time in the format `1h2m3s4ms` and returns it in milliseconds (0 on error), with the
place where the parse ended. -/
def hweStrToTime (str : List UInt8) : Except Fault (Nat × List UInt8) := do
  let (n, ep) ← simpleStrtoull str
  let scan ← (if ep = str then .ok ⟨0, ep, str⟩ else scanUnits str pattern str n ep 0)
  let ret := if isSep (← deref scan.s) then scan.ret else 0
  return (ret, scan.ep)

/-- The `1h2m3s4ms` representation of a time, printed into `size` bytes. -/
def hweTimeToStr (size t : Nat) : List UInt8 :=
  let ms := t % 1000
  let t := t / 1000
  let h := t / 3600
  let m := (t - 3600 * h) / 60
  let s := t - 3600 * h - m * 60
  let out := if h ≠ 0 then scnprintf size (decimal h ++ bytes "h") else []
  let out := if m ≠ 0 ∨ (h ≠ 0 ∧ (s ≠ 0 ∨ ms ≠ 0)) then
    out ++ scnprintf (size - out.length) (decimal m ++ bytes "m") else out
  let out := if s ≠ 0 ∨ ((h ≠ 0 ∨ m ≠ 0) ∧ ms ≠ 0) then
    out ++ scnprintf (size - out.length) (decimal s ++ bytes "s") else out
  if ms ≠ 0 then out ++ scnprintf (size - out.length) (decimal ms ++ bytes "ms") else out

/-! ### Key-value strings -/

/-- `is_hex_str(str, size)`. -/
def isHexStr : List UInt8 → Nat → Except Fault Bool
  | _, 0 => .ok true
  | [], _ + 1 => .error .outOfBounds
  | c :: str, size + 1 => if isXDigit c then isHexStr str size else .ok false

/-- The part of `str_to_pair` that reads the request, `sz` characters long, or the timer in its
place. -/
def strToKey (HZ : Nat) (str : List UInt8) (sz : Int) (pair : Pair w) :
    Except Fault (Except String (Pair w)) := do
  if ← isHexStr str (toSizeT sz) then
    if sz > hweMaxRequest * 2 then return .error "request string too long"
    else if sz % 2 = 1 then return .error "odd number of characters in request string"
    else
      match ← hex2bin hweMaxRequest str (toSizeT (sz.tdiv 2)) with
      | none => return .error "invalid character in request string"
      | some req => return .ok { pair with req := req, asyncRx := false }
  else
    let s := if ← hasPrefix (bytes "timer:") str then str.drop 6 else str
    let (t, e) ← hweStrToTime s
    if t = 0 then return .error "invalid data definition"
    else if (← deref e) ≠ 61 then return .error "invalid data definition"
    else return .ok { pair with
      req := []
      asyncRx := true
      periodMs := t
      period := msecsToJiffies w HZ t
      time := 0 }

/-- The part of `str_to_pair` that reads the response from `sz` characters, which may have a
terminating newline character. -/
def strToResp (s : List UInt8) (sz : Int) (pair : Pair w) :
    Except Fault (Except String (Pair w)) := do
  let e ← strnchr s (toSizeT sz) 10
  let sz := (e.map fun n : Nat => toInt n).getD sz
  if sz = 0 then return .error "empty response"
  else if sz > hweMaxResponse * 2 then return .error "response string too long"
  else if sz % 2 = 1 then return .error "odd number of characters in response string"
  else
    match ← hex2bin hweMaxResponse s (toSizeT (sz.tdiv 2)) with
    | none => return .error "invalid character in response string"
    | some resp => return .ok { pair with resp := resp }

/-- Key-value string parser: fills `pair` in from the buffer `str`, whose size is the length of the
list, or says what is wrong with it. -/
def strToPair (HZ : Nat) (str : List UInt8) (pair : Pair w) :
    Except Fault (Except String (Pair w)) := do
  if str.length = 0 then return .error "empty string"
  else
    match ← strnchr str str.length 61 with
    | none => return .error "missing '='"
    | some e =>
        let sz := toInt e
        if sz = 0 then return .error "empty request"
        else
          match ← strToKey HZ str sz pair with
          | .error err => return .error err
          | .ok pair => strToResp (str.drop (e + 1)) (toInt (str.length - (sz + 1))) pair

/-- Key-value string maker: the contents of the static buffer, or an error text in its place. -/
def pairToStr (pair : Pair w) : List UInt8 :=
  if !pair.asyncRx && (pair.req.length < 1 || hweMaxRequest < pair.req.length) then
    bytes "error: request size out of valid range"
  else if pair.resp.length < 1 || hweMaxResponse < pair.resp.length then
    bytes "error: response size out of valid range"
  else
    let key :=
      if pair.asyncRx then
        bytes "timer:" ++ hweTimeToStr (hweMaxPairStr + 1 - (bytes "timer:").length) pair.periodMs
      else bin2hex pair.req
    key ++ [61] ++ bin2hex pair.resp

/-! ### Searching the pair list -/

/-- The synchronous pair with the given request; pairs used in asynchronous data exchange are
skipped. -/
def findPair (list : List (Pair w)) (request : List UInt8) (reqSize : Nat) : Option (Pair w) :=
  list.find? fun p => !p.asyncRx && p.req.length == reqSize && p.req == request.take reqSize

def getPairAtIndex (list : List (Pair w)) (index : Nat) : Option (Pair w) :=
  list.find? fun p => index == p.index

end Hwemu
