import Hwemu.I2c
import Hwemu.Lib.Registers

/-!
# The chip behind the i2c driver

`do_smbus_xfer` reads and writes the bytes of a virtual chip, which the timer overwrites from its
start. Seen from outside the chip is a file of 256 registers with a position.
-/

namespace Hwemu

variable {w : Nat}

def i2cSmbusBlockMax : Nat := 32

def i2cSmbusWrite : UInt8 := 0

/-- Two bytes of memory as a number. The machine is taken to be little-endian: the low byte comes first. -/
def leWord (low high : UInt8) : UInt16 := UInt16.ofNat (low.toNat + 256 * high.toNat)

def lowByte (word : UInt16) : UInt8 := UInt8.ofNat word.toNat

def highByte (word : UInt16) : UInt8 := UInt8.ofNat (word.toNat / 256)

/-- `union i2c_smbus_data`, as the bytes of its largest member `block`. -/
structure SmbusData where
  block : List UInt8
  length_block : block.length = i2cSmbusBlockMax + 2

namespace SmbusData

def get (i : Nat) (data : SmbusData) : UInt8 := data.block.getD i 0

def set (i : Nat) (b : UInt8) (data : SmbusData) : SmbusData :=
  { block := data.block.set i b
    length_block := by rw [List.length_set, data.length_block] }

/-- The member `byte`. -/
def byte (data : SmbusData) : UInt8 := data.get 0

def setByte (b : UInt8) (data : SmbusData) : SmbusData := data.set 0 b

/-- The member `word`. -/
def word (data : SmbusData) : UInt16 := leWord (data.get 0) (data.get 1)

def setWord (word : UInt16) (data : SmbusData) : SmbusData :=
  (data.set 0 (lowByte word)).set 1 (highByte word)

end SmbusData

/-- `chip->dat[i]`. -/
def I2cChip.get (i : Nat) (chip : I2cChip) : Except Fault UInt8 :=
  match chip.dat[i]? with
  | some b => .ok b
  | none => .error .outOfBounds

/-- `chip->dat[i] = b`. -/
def I2cChip.set (i : Nat) (b : UInt8) (chip : I2cChip) : Except Fault I2cChip :=
  if i < i2cChipSize then
    .ok { chip with
      dat := chip.dat.set i b
      length_dat := by rw [List.length_set, chip.length_dat] }
  else .error .outOfBounds

/-- The values of `size` that the driver knows. -/
inductive SmbusSize where
  | quick
  | byte
  | byteData
  | wordData
  | blockData
  | other
  deriving DecidableEq, Repr

/-- The `switch` on `size`; the two kinds of block transfers are one case. -/
def SmbusSize.ofCode (size : Int) : SmbusSize :=
  if size = 0 then quick
  else if size = 1 then byte
  else if size = 2 then byteData
  else if size = 3 then wordData
  else if size = 8 ∨ size = 5 then blockData
  else other

/-- The arguments of `do_smbus_xfer` that count. -/
structure SmbusCall where
  readWrite : UInt8
  command : UInt8
  size : Int
  data : SmbusData

/-- `read_write == I2C_SMBUS_WRITE`. -/
def SmbusCall.IsWrite (call : SmbusCall) : Prop := call.readWrite = i2cSmbusWrite

instance (call : SmbusCall) : Decidable call.IsWrite := inferInstanceAs (Decidable (_ = _))

/-- The loop of a block write, from `i` on. -/
def writeBlock (data : SmbusData) (command : Nat) : Nat → Nat → I2cChip → Except Fault I2cChip
  | 0, _, chip => .ok chip
  | len + 1, i, chip => do
      let chip ← chip.set (command + i) (data.get (1 + i))
      writeBlock data command len (i + 1) chip

/-- The loop of a block read, from `i` on. -/
def readBlock (chip : I2cChip) (command : Nat) : Nat → Nat → SmbusData → Except Fault SmbusData
  | 0, _, data => .ok data
  | len + 1, i, data => do
      let b ← chip.get (command + i)
      readBlock chip command len (i + 1) (data.set (1 + i) b)

def doSmbusXfer (call : SmbusCall) (chip : I2cChip) : Except Fault (Int × SmbusData × I2cChip) :=
  let command := call.command
  let data := call.data
  match SmbusSize.ofCode call.size with
  | .quick => return (0, data, chip)
  | .byte =>
      if call.IsWrite then return (0, data, { chip with pos := command })
      else do
        let b ← chip.get chip.pos.toNat
        return (0, data.setByte b, { chip with pos := chip.pos + 1 })
  | .byteData =>
      if call.IsWrite then do
        let chip ← chip.set command.toNat data.byte
        return (0, data, { chip with pos := command + 1 })
      else do
        let b ← chip.get command.toNat
        return (0, data.setByte b, { chip with pos := command + 1 })
  | .wordData =>
      if call.IsWrite then
        if command < 0xFF then do
          let chip ← chip.set command.toNat (lowByte data.word)
          let chip ← chip.set (command.toNat + 1) (highByte data.word)
          return (0, data, chip)
        else do
          let chip ← chip.set command.toNat (lowByte data.word)
          return (0, data, chip)
      else
        if command < 0xFF then do
          let low ← chip.get command.toNat
          let high ← chip.get (command.toNat + 1)
          return (0, data.setWord (leWord low high), chip)
        else do
          let low ← chip.get command.toNat
          return (0, data.setWord (leWord low 0), chip)
  | .blockData =>
      let data := if (data.get 0).toNat > i2cSmbusBlockMax
        then data.set 0 (UInt8.ofNat i2cSmbusBlockMax) else data
      let data := if (data.get 0).toNat > i2cChipSize - command.toNat
        then data.set 0 (UInt8.ofNat (i2cChipSize - command.toNat)) else data
      let len := (data.get 0).toNat
      if call.IsWrite then do
        let chip ← writeBlock data command.toNat len 0 chip
        return (0, data, chip)
      else do
        let data ← readBlock chip command.toNat len 0 data
        return (0, data, chip)
  | .other => return (-eopnotsupp, data, chip)

/-! ### The chip as registers -/

def I2cChip.byte (chip : I2cChip) (a : Nat) : UInt8 := chip.dat.getD a 0

theorem lowByte_leWord (low high : UInt8) : lowByte (leWord low high) = low := by
  apply UInt8.toNat_inj.mp
  have hlow := low.toNat_lt
  have hhigh := high.toNat_lt
  simp only [lowByte, leWord, UInt8.toNat_ofNat', UInt16.toNat_ofNat']
  omega

theorem highByte_leWord (low high : UInt8) : highByte (leWord low high) = high := by
  apply UInt8.toNat_inj.mp
  have hlow := low.toNat_lt
  have hhigh := high.toNat_lt
  simp only [highByte, leWord, UInt8.toNat_ofNat', UInt16.toNat_ofNat']
  omega

theorem SmbusData.get_set {i : Nat} (hi : i < i2cSmbusBlockMax + 2) (b : UInt8) (data : SmbusData)
    (j : Nat) : (data.set i b).get j = if j = i then b else data.get j := by
  have hlen := data.length_block
  unfold SmbusData.get SmbusData.set
  by_cases hj : j = i
  · subst hj
    rw [if_pos rfl, List.getD_eq_getElem?_getD, List.getElem?_set_self (by omega)]
    rfl
  · rw [if_neg hj, List.getD_eq_getElem?_getD, List.getD_eq_getElem?_getD,
      List.getElem?_set_ne (Ne.symm hj)]

namespace I2cChip

variable {chip : I2cChip} {i : Nat}

theorem get_eq (hi : i < i2cChipSize) : chip.get i = .ok (chip.byte i) := by
  have hlen := chip.length_dat
  unfold I2cChip.get I2cChip.byte
  rw [List.getD_eq_getElem?_getD, List.getElem?_eq_getElem (by omega)]
  rfl

theorem set_eq (hi : i < i2cChipSize) (b : UInt8) :
    ∃ chip', chip.set i b = .ok chip' ∧ chip'.pos = chip.pos ∧
      chip'.byte = Function.update chip.byte i b := by
  have hlen := chip.length_dat
  unfold I2cChip.set
  rw [if_pos hi]
  refine ⟨_, rfl, rfl, ?_⟩
  funext a
  unfold I2cChip.byte
  by_cases ha : a = i
  · subst ha
    rw [Function.update_self, List.getD_eq_getElem?_getD, List.getElem?_set_self (by omega)]
    rfl
  · rw [Function.update_of_ne ha, List.getD_eq_getElem?_getD, List.getD_eq_getElem?_getD,
      List.getElem?_set_ne (Ne.symm ha)]

theorem byte_zeroed : I2cChip.zeroed.byte = fun _ => 0 := by
  funext a
  unfold I2cChip.byte I2cChip.zeroed
  rw [List.getD_eq_getElem?_getD, List.getElem?_replicate]
  split
  · rfl
  · rfl

end I2cChip

/-- **The loop of a block write.** -/
theorem writeBlock_eq (data : SmbusData) (command : Nat) {len i : Nat} {chip : I2cChip}
    (hfit : command + i + len ≤ i2cChipSize) :
    ∃ chip', writeBlock data command len i chip = .ok chip' ∧ chip'.pos = chip.pos ∧
      chip'.byte = Registers.store chip.byte
        ((List.range len).map fun j => (command + i + j, data.get (1 + (i + j)))) := by
  induction len generalizing i chip with
  | zero => exact ⟨chip, rfl, rfl, rfl⟩
  | succ len ih =>
      obtain ⟨chip₁, hset, hpos₁, hbyte₁⟩ := @I2cChip.set_eq chip (command + i) (by omega) (data.get (1 + i))
      obtain ⟨chip₂, hloop, hpos₂, hbyte₂⟩ := @ih (i + 1) chip₁ (by omega)
      refine ⟨chip₂, ?_, hpos₂.trans hpos₁, ?_⟩
      · rw [writeBlock, hset]
        exact hloop
      · rw [hbyte₂, hbyte₁, List.range_succ_eq_map, List.map_cons, Registers.store_cons, List.map_map]
        congr 1
        apply List.map_congr_left
        intro j _
        simp only [Function.comp_apply, Prod.mk.injEq]
        constructor
        · omega
        · congr 2
          omega

/-- **The loop of a block read.** -/
theorem readBlock_eq (chip : I2cChip) (command : Nat) {len i : Nat} {data : SmbusData}
    (hfit : command + i + len ≤ i2cChipSize) (hlen : i + len ≤ i2cSmbusBlockMax) :
    ∃ data', readBlock chip command len i data = .ok data' ∧ ∀ j,
      data'.get j = if 1 + i ≤ j ∧ j < 1 + i + len then chip.byte (command + (j - 1)) else data.get j := by
  induction len generalizing i data with
  | zero =>
      refine ⟨data, rfl, ?_⟩
      intro j
      rw [if_neg (by omega)]
  | succ len ih =>
      obtain ⟨data', hloop, hget⟩ := @ih (i + 1) (data.set (1 + i) (chip.byte (command + i)))
        (by omega) (by omega)
      refine ⟨data', ?_, ?_⟩
      · rw [readBlock, I2cChip.get_eq (by omega)]
        exact hloop
      · intro j
        rw [hget, SmbusData.get_set (by omega)]
        by_cases hj : j = 1 + i
        · subst hj
          rw [if_neg (by omega), if_pos rfl, if_pos (by omega), Nat.add_sub_cancel_left]
        · rw [if_neg hj]
          by_cases hin : 1 + (i + 1) ≤ j ∧ j < 1 + (i + 1) + len
          · rw [if_pos hin, if_pos (by omega)]
          · rw [if_neg hin, if_neg (by omega)]

/-! ### One transfer -/

namespace SmbusCall

def kind (call : SmbusCall) : SmbusSize := SmbusSize.ofCode call.size

/-- How many registers a transfer covers, from `command` on. -/
def width (call : SmbusCall) : Nat :=
  match call.kind with
  | .byteData => 1
  | .wordData => if call.command < 0xFF then 2 else 1
  | .blockData => min (min (call.data.get 0).toNat i2cSmbusBlockMax) (i2cChipSize - call.command.toNat)
  | _ => 0

/-- The byte of the data for the register `i` of the transfer. -/
def payload (call : SmbusCall) (data : SmbusData) (i : Nat) : UInt8 :=
  match call.kind with
  | .blockData => data.get (1 + i)
  | _ => data.get i

/-- What the transfer stores. -/
def stores (call : SmbusCall) : List (Nat × UInt8) :=
  if call.IsWrite then
    (List.range call.width).map fun i => (call.command.toNat + i, call.payload call.data i)
  else []

/-- The position after the transfer. -/
def position (call : SmbusCall) (pos : UInt8) : UInt8 :=
  match call.kind with
  | .byte => if call.IsWrite then call.command else pos + 1
  | .byteData => call.command + 1
  | _ => pos

/-- The data of the caller after the transfer, when the registers hold `held`. -/
def Returns (call : SmbusCall) (held : Nat → UInt8) (pos : UInt8) (data : SmbusData) : Prop :=
  match call.kind with
  | .byte => data = if call.IsWrite then call.data else call.data.setByte (held pos.toNat)
  | .byteData =>
      data = if call.IsWrite then call.data else call.data.setByte (held call.command.toNat)
  | .wordData =>
      if call.IsWrite then data = call.data
      else data.word.toNat = (held call.command.toNat).toNat + 256 *
        (if call.command < 0xFF then (held (call.command.toNat + 1)).toNat else 0)
  | .blockData =>
      (data.get 0).toNat = call.width ∧
        ∀ i < call.width, data.get (1 + i) =
          if call.IsWrite then call.data.get (1 + i) else held (call.command.toNat + i)
  | _ => data = call.data

end SmbusCall

theorem leWord_toNat (low high : UInt8) : (leWord low high).toNat = low.toNat + 256 * high.toNat := by
  have hlow := low.toNat_lt
  have hhigh := high.toNat_lt
  simp only [leWord, UInt16.toNat_ofNat']
  omega

theorem SmbusData.word_setWord (low high : UInt8) (data : SmbusData) :
    (data.setWord (leWord low high)).word = leWord low high := by
  unfold SmbusData.word SmbusData.setWord
  rw [SmbusData.get_set (by decide), SmbusData.get_set (by decide), SmbusData.get_set (by decide),
    lowByte_leWord, highByte_leWord]
  rfl

theorem lt_ff_iff (command : UInt8) : command < 0xFF ↔ command.toNat + 1 < i2cChipSize := by
  have hlt := command.toNat_lt
  rw [UInt8.lt_iff_toNat_lt]
  unfold i2cChipSize
  change command.toNat < 255 ↔ _
  omega

/-- The block length as the two clamps leave it. -/
theorem clamped (data : SmbusData) (command : UInt8) :
    ∃ data', (let data := if (data.get 0).toNat > i2cSmbusBlockMax
          then data.set 0 (UInt8.ofNat i2cSmbusBlockMax) else data
        if (data.get 0).toNat > i2cChipSize - command.toNat
          then data.set 0 (UInt8.ofNat (i2cChipSize - command.toNat)) else data) = data' ∧
      (data'.get 0).toNat =
        min (min (data.get 0).toNat i2cSmbusBlockMax) (i2cChipSize - command.toNat) ∧
      ∀ j ≠ 0, data'.get j = data.get j := by
  have hcommand := command.toNat_lt
  have hmax : ∀ b : UInt8, ((data.set 0 b).get 0) = b := by
    intro b
    rw [SmbusData.get_set (by decide), if_pos rfl]
  have hfull : (UInt8.ofNat 32).toNat = 32 := rfl
  refine ⟨_, rfl, ?_, ?_⟩
  · dsimp only
    unfold i2cSmbusBlockMax i2cChipSize at *
    split
    · rw [hmax]
      split
      · rw [SmbusData.get_set (by decide), if_pos rfl, UInt8.toNat_ofNat']
        omega
      · rw [hmax, UInt8.toNat_ofNat']
        omega
    · split
      · rw [SmbusData.get_set (by decide), if_pos rfl, UInt8.toNat_ofNat']
        have hle := (data.get 0).toNat_lt
        omega
      · omega
  · intro j hj
    dsimp only
    split
    · split
      · rw [SmbusData.get_set (by decide), if_neg hj, SmbusData.get_set (by decide), if_neg hj]
      · rw [SmbusData.get_set (by decide), if_neg hj]
    · split
      · rw [SmbusData.get_set (by decide), if_neg hj]
      · rfl

/-- What `do_smbus_xfer` has done when it returns. -/
structure SmbusCall.Done (call : SmbusCall) (chip : I2cChip) (ret : Int) (data : SmbusData)
    (chip' : I2cChip) : Prop where
  ret : ret = if call.kind = .other then -eopnotsupp else 0
  pos : chip'.pos = call.position chip.pos
  bytes : chip'.byte = Registers.store chip.byte call.stores
  returns : call.Returns chip.byte chip.pos data

/-- A transfer that leaves the chip and the data as they are. -/
theorem SmbusCall.Done.same {call : SmbusCall} {chip : I2cChip} (hwidth : call.width = 0)
    (hpos : call.position chip.pos = chip.pos) (hreturns : call.Returns chip.byte chip.pos call.data) :
    call.Done chip (if call.kind = .other then -eopnotsupp else 0) call.data chip := by
  refine ⟨rfl, hpos.symm, ?_, hreturns⟩
  unfold SmbusCall.stores
  rw [hwidth]
  split
  · rfl
  · rfl

/-- A transfer that returns, and has done what its arguments say. -/
def SmbusCall.Runs (call : SmbusCall) (chip : I2cChip) : Prop :=
  ∃ ret data chip', doSmbusXfer call chip = .ok (ret, data, chip') ∧ call.Done chip ret data chip'

section

variable {call : SmbusCall} (chip : I2cChip)

theorem command_lt (call : SmbusCall) : call.command.toNat < i2cChipSize := call.command.toNat_lt

theorem runs_byte (hkind : call.kind = .byte) : call.Runs chip := by
  have hpos : chip.pos.toNat < i2cChipSize := chip.pos.toNat_lt
  have hstores : call.stores = [] := by simp [SmbusCall.stores, SmbusCall.width, hkind]
  unfold SmbusCall.Runs doSmbusXfer
  rw [show SmbusSize.ofCode call.size = .byte from hkind]
  dsimp only
  by_cases hwrite : call.IsWrite
  · refine ⟨0, call.data, { chip with pos := call.command }, if_pos hwrite, ?_, ?_, ?_, ?_⟩
    · simp [hkind]
    · simp [SmbusCall.position, hkind, hwrite]
    · rw [hstores]
      rfl
    · simp [SmbusCall.Returns, hkind, hwrite]
  · refine ⟨0, call.data.setByte (chip.byte chip.pos.toNat), { chip with pos := chip.pos + 1 },
      ?_, ?_, ?_, ?_, ?_⟩
    · rw [if_neg hwrite, I2cChip.get_eq hpos]
      rfl
    · simp [hkind]
    · simp [SmbusCall.position, hkind, hwrite]
    · rw [hstores]
      rfl
    · simp [SmbusCall.Returns, hkind, hwrite]

theorem runs_byteData (hkind : call.kind = .byteData) : call.Runs chip := by
  have hcommand := command_lt call
  unfold SmbusCall.Runs doSmbusXfer
  rw [show SmbusSize.ofCode call.size = .byteData from hkind]
  dsimp only
  by_cases hwrite : call.IsWrite
  · obtain ⟨chip₁, hset, hpos₁, hbyte₁⟩ := @I2cChip.set_eq chip _ hcommand call.data.byte
    refine ⟨0, call.data, { chip₁ with pos := call.command + 1 }, ?_, ?_, ?_, ?_, ?_⟩
    · rw [if_pos hwrite, hset]
      rfl
    · simp [hkind]
    · simp [SmbusCall.position, hkind]
    · have hstores : call.stores = [(call.command.toNat, call.data.byte)] := by
        simp [SmbusCall.stores, SmbusCall.width, SmbusCall.payload, hkind, hwrite, SmbusData.byte]
      rw [hstores]
      exact hbyte₁
    · simp [SmbusCall.Returns, hkind, hwrite]
  · refine ⟨0, call.data.setByte (chip.byte call.command.toNat),
      { chip with pos := call.command + 1 }, ?_, ?_, ?_, ?_, ?_⟩
    · rw [if_neg hwrite, I2cChip.get_eq hcommand]
      rfl
    · simp [hkind]
    · simp [SmbusCall.position, hkind]
    · simp only [SmbusCall.stores, if_neg hwrite]
      rfl
    · simp [SmbusCall.Returns, hkind, hwrite]

theorem runs_wordData (hkind : call.kind = .wordData) : call.Runs chip := by
  have hcommand := command_lt call
  have hlt := lt_ff_iff call.command
  unfold SmbusCall.Runs doSmbusXfer
  rw [show SmbusSize.ofCode call.size = .wordData from hkind]
  dsimp only
  by_cases hwrite : call.IsWrite
  · rw [if_pos hwrite]
    have hlow : lowByte call.data.word = call.data.get 0 := lowByte_leWord _ _
    have hhigh : highByte call.data.word = call.data.get 1 := highByte_leWord _ _
    obtain ⟨chip₁, hset₁, hpos₁, hbyte₁⟩ := @I2cChip.set_eq chip _ hcommand (call.data.get 0)
    rw [hlow, hhigh, hset₁]
    by_cases hroom : call.command < 0xFF
    · obtain ⟨chip₂, hset₂, hpos₂, hbyte₂⟩ :=
        @I2cChip.set_eq chip₁ _ (hlt.mp hroom) (call.data.get 1)
      refine ⟨0, call.data, chip₂, ?_, ?_, ?_, ?_, ?_⟩
      · rw [if_pos hroom, Except.ok_bind, hset₂]
        rfl
      · simp [hkind]
      · simp [SmbusCall.position, hkind, hpos₂, hpos₁]
      · have hstores : call.stores = [(call.command.toNat, call.data.get 0),
            (call.command.toNat + 1, call.data.get 1)] := by
          simp [SmbusCall.stores, SmbusCall.width, SmbusCall.payload, hkind, hwrite, hroom,
            List.range_succ]
        rw [hstores, hbyte₂, hbyte₁]
        rfl
      · simp [SmbusCall.Returns, hkind, hwrite]
    · refine ⟨0, call.data, chip₁, ?_, ?_, ?_, ?_, ?_⟩
      · rw [if_neg hroom]
        rfl
      · simp [hkind]
      · simp [SmbusCall.position, hkind, hpos₁]
      · have hstores : call.stores = [(call.command.toNat, call.data.get 0)] := by
          simp [SmbusCall.stores, SmbusCall.width, SmbusCall.payload, hkind, hwrite, hroom]
        rw [hstores, hbyte₁]
        rfl
      · simp [SmbusCall.Returns, hkind, hwrite]
  · rw [if_neg hwrite, I2cChip.get_eq hcommand]
    have hstores : call.stores = [] := by simp [SmbusCall.stores, hwrite]
    by_cases hroom : call.command < 0xFF
    · refine ⟨0, call.data.setWord (leWord (chip.byte call.command.toNat)
        (chip.byte (call.command.toNat + 1))), chip, ?_, ?_, ?_, ?_, ?_⟩
      · rw [if_pos hroom, Except.ok_bind, I2cChip.get_eq (hlt.mp hroom)]
        rfl
      · simp [hkind]
      · simp [SmbusCall.position, hkind]
      · rw [hstores]
        rfl
      · simp [SmbusCall.Returns, hkind, hwrite, hroom, SmbusData.word_setWord, leWord_toNat]
    · refine ⟨0, call.data.setWord (leWord (chip.byte call.command.toNat) 0), chip,
        ?_, ?_, ?_, ?_, ?_⟩
      · rw [if_neg hroom]
        rfl
      · simp [hkind]
      · simp [SmbusCall.position, hkind]
      · rw [hstores]
        rfl
      · simp [SmbusCall.Returns, hkind, hwrite, hroom, SmbusData.word_setWord, leWord_toNat]

theorem runs_blockData (hkind : call.kind = .blockData) : call.Runs chip := by
  have hcommand := command_lt call
  obtain ⟨data, hclamp, hlen, hsame⟩ := clamped call.data call.command
  have hwidth : call.width = (data.get 0).toNat := by
    rw [hlen, SmbusCall.width, hkind]
  unfold SmbusCall.Runs doSmbusXfer
  rw [show SmbusSize.ofCode call.size = .blockData from hkind]
  dsimp only at hclamp ⊢
  rw [hclamp]
  have hfit : call.command.toNat + 0 + (data.get 0).toNat ≤ i2cChipSize := by omega
  by_cases hwrite : call.IsWrite
  · obtain ⟨chip', hloop, hpos', hbyte'⟩ := writeBlock_eq data call.command.toNat hfit
    refine ⟨0, data, chip', ?_, ?_, ?_, ?_, ?_⟩
    · rw [if_pos hwrite, hloop]
      rfl
    · simp [hkind]
    · simp [SmbusCall.position, hkind, hpos']
    · rw [hbyte']
      simp only [SmbusCall.stores, if_pos hwrite, hwidth, SmbusCall.payload, hkind]
      congr 1
      apply List.map_congr_left
      intro i _
      rw [hsame _ (by omega), Nat.zero_add, Nat.add_zero]
    · simp only [SmbusCall.Returns, hkind, if_pos hwrite]
      refine ⟨hwidth.symm, ?_⟩
      intro i _
      exact hsame _ (by omega)
  · obtain ⟨data', hloop, hget⟩ := @readBlock_eq chip call.command.toNat (data.get 0).toNat 0 data
      hfit (by omega)
    refine ⟨0, data', chip, ?_, ?_, ?_, ?_, ?_⟩
    · rw [if_neg hwrite, hloop]
      rfl
    · simp [hkind]
    · simp [SmbusCall.position, hkind]
    · simp only [SmbusCall.stores, if_neg hwrite]
      rfl
    · simp only [SmbusCall.Returns, hkind, if_neg hwrite]
      constructor
      · rw [hget, if_neg (by omega), hwidth]
      · intro i hi
        rw [hget, if_pos (by omega), Nat.add_sub_cancel_left]

/-- **Every transfer** returns without leaving the chip, and does what its arguments say. -/
theorem doSmbusXfer_runs (call : SmbusCall) : call.Runs chip := by
  cases hkind : call.kind with
  | quick =>
      have hdone := @SmbusCall.Done.same call chip (by simp only [SmbusCall.width, hkind])
        (by simp only [SmbusCall.position, hkind]) (by simp only [SmbusCall.Returns, hkind])
      unfold SmbusCall.Runs doSmbusXfer
      rw [show SmbusSize.ofCode call.size = .quick from hkind]
      exact ⟨_, _, _, rfl, by simpa [hkind] using hdone⟩
  | byte => exact runs_byte chip hkind
  | byteData => exact runs_byteData chip hkind
  | wordData => exact runs_wordData chip hkind
  | blockData => exact runs_blockData chip hkind
  | other =>
      have hdone := @SmbusCall.Done.same call chip (by simp only [SmbusCall.width, hkind])
        (by simp only [SmbusCall.position, hkind]) (by simp only [SmbusCall.Returns, hkind])
      unfold SmbusCall.Runs doSmbusXfer
      rw [show SmbusSize.ofCode call.size = .other from hkind]
      exact ⟨_, _, _, rfl, by simpa [hkind] using hdone⟩

end

/-! ### Runs of one chip -/

inductive ChipEvent (w : Nat) where
  | xfer (call : SmbusCall) (ret : Int) (data : SmbusData)
  | asyncRx (pair : Pair w) (acts : List RespAct)

namespace ChipEvent

def stores : ChipEvent w → List (Nat × UInt8)
  | xfer call _ _ => call.stores
  | asyncRx pair _ =>
      (List.range (min pair.resp.length i2cChipSize)).map fun i => (0 + i, pair.resp.getD i 0)

def position (pos : UInt8) : ChipEvent w → UInt8
  | xfer call _ _ => call.position pos
  | asyncRx _ _ => pos

/-- The position that a byte command or a byte-data transfer sets. -/
def sets : ChipEvent w → Option UInt8
  | xfer call _ _ =>
      match call.kind with
      | .byte => if call.IsWrite then some call.command else none
      | .byteData => some (call.command + 1)
      | _ => none
  | asyncRx _ _ => none

/-- A byte read, which moves the position on. -/
def moves : ChipEvent w → Bool
  | xfer call _ _ => call.kind = .byte ∧ ¬call.IsWrite
  | asyncRx _ _ => false

end ChipEvent

/-- The transfers and deliveries of a device in use. -/
def ChipStep (dev : I2cPriv) : ChipEvent w → I2cPriv → Prop
  | .xfer call ret data, dev' =>
      ∃ chip, doSmbusXfer call dev.chip = .ok (ret, data, chip) ∧ dev' = { dev with chip := chip }
  | .asyncRx pair acts, dev' => hweI2cAsyncRx pair dev = .ok (acts, dev')

section

variable {dev dev' : I2cPriv} {e : ChipEvent w} {es : List (ChipEvent w)}

/-- The chip holds what was last stored, and stands where the transfers left it. -/
structure ChipInv (dev : I2cPriv) (es : List (ChipEvent w)) : Prop where
  inUse : dev.inUse = true
  bytes : dev.chip.byte = Registers.lastStored 0 (es.flatMap ChipEvent.stores)
  pos : dev.chip.pos = es.foldl ChipEvent.position 0

theorem I2cChip.byte_put (chip : I2cChip) (resp : List UInt8) :
    (chip.put resp).byte = Registers.store chip.byte
      ((List.range (min resp.length i2cChipSize)).map fun i => (0 + i, resp.getD i 0)) := by
  have hlen := chip.length_dat
  funext a
  rw [Registers.store_range]
  unfold I2cChip.byte I2cChip.put
  simp only [List.getD_eq_getElem?_getD, List.getElem?_append, List.length_take, Nat.zero_add,
    Nat.sub_zero]
  by_cases ha : a < min resp.length i2cChipSize
  · rw [if_pos (by omega), if_pos (by omega), List.getElem?_take_of_lt (by omega)]
  · rw [if_neg (by omega), if_neg (by omega), List.getElem?_drop]
    by_cases hshort : resp.length ≤ i2cChipSize
    · congr 2
      omega
    · rw [List.getElem?_eq_none (by omega), List.getElem?_eq_none (by omega)]

/-- What a delivery does to a device in use. -/
theorem hweI2cAsyncRx_chip {pair : Pair w} {acts : List RespAct} (huse : dev.inUse = true)
    (hrun : hweI2cAsyncRx pair dev = .ok (acts, dev')) :
    dev'.inUse = true ∧ dev'.chip = dev.chip.put pair.resp := by
  unfold hweI2cAsyncRx at hrun
  rw [if_neg (by simp [huse])] at hrun
  dsimp only at hrun
  split at hrun
  · obtain ⟨_, rfl⟩ := Prod.mk.inj (Except.ok.inj hrun)
    exact ⟨huse, rfl⟩
  · obtain ⟨buffer, _, hrun⟩ := Except.bind_eq_ok_iff.mp hrun
    obtain ⟨_, rfl⟩ := Prod.mk.inj (Except.ok.inj hrun)
    exact ⟨huse, rfl⟩

/-- **Every event keeps the invariant.** -/
theorem ChipInv.step (h : ChipInv dev es) (hstep : ChipStep dev e dev') : ChipInv dev' (es ++ [e]) := by
  have hlog : (es ++ [e]).flatMap ChipEvent.stores = es.flatMap ChipEvent.stores ++ e.stores := by
    rw [List.flatMap_append, List.flatMap_singleton]
  have hfold : (es ++ [e]).foldl ChipEvent.position 0 = e.position dev.chip.pos := by
    rw [List.foldl_append, h.pos]
    rfl
  cases e with
  | xfer call ret data =>
      obtain ⟨chip, hrun, rfl⟩ := hstep
      obtain ⟨ret₁, data₁, chip₁, hrun₁, hdone⟩ := doSmbusXfer_runs dev.chip call
      have heq := Except.ok.inj (hrun₁.symm.trans hrun)
      simp only [Prod.mk.injEq] at heq
      obtain ⟨rfl, rfl, rfl⟩ := heq
      refine ⟨h.inUse, ?_, ?_⟩
      · rw [hlog, Registers.lastStored_append, ← h.bytes]
        exact hdone.bytes
      · rw [hfold]
        exact hdone.pos
  | asyncRx pair acts =>
      obtain ⟨huse, hchip⟩ := hweI2cAsyncRx_chip h.inUse hstep
      refine ⟨huse, ?_, ?_⟩
      · rw [hlog, Registers.lastStored_append, ← h.bytes, hchip]
        exact dev.chip.byte_put pair.resp
      · rw [hfold, hchip]
        rfl

theorem ChipInv.of_run {es' : List (ChipEvent w)} (h : ChipInv dev es) (hrun : Run ChipStep dev es' dev') :
    ChipInv dev' (es ++ es') := by
  induction hrun generalizing es with
  | nil =>
      rw [List.append_nil]
      exact h
  | cons hstep _ ih =>
      rw [List.append_cons]
      exact ih (h.step hstep)

/-- Only a byte read moves the position that nothing sets. -/
theorem ChipEvent.position_eq (hnone : e.sets = none) (pos : UInt8) :
    e.position pos = if e.moves then pos + 1 else pos := by
  cases e with
  | asyncRx pair acts => rfl
  | xfer call ret data =>
      cases hkind : call.kind with
      | byte =>
          by_cases hwrite : call.IsWrite
          · simp [ChipEvent.sets, hkind, hwrite] at hnone
          · simp [ChipEvent.position, SmbusCall.position, ChipEvent.moves, hkind, hwrite]
      | byteData => simp [ChipEvent.sets, hkind] at hnone
      | _ => simp [ChipEvent.position, SmbusCall.position, ChipEvent.moves, hkind]

/-- **The walk.** While nothing sets the position, byte reads move it on one by one, round the chip. -/
theorem position_walk {mid : List (ChipEvent w)} (hmid : ∀ e ∈ mid, e.sets = none) (pos : UInt8) :
    (mid.foldl ChipEvent.position pos).toNat = (pos.toNat + mid.countP ChipEvent.moves) % i2cChipSize := by
  induction mid generalizing pos with
  | nil => exact (Nat.mod_eq_of_lt pos.toNat_lt).symm
  | cons e mid ih =>
      have hnone := hmid e List.mem_cons_self
      have hrest := ih (fun e he => hmid e (List.mem_cons_of_mem _ he)) (e.position pos)
      rw [List.foldl_cons, hrest, ChipEvent.position_eq hnone, List.countP_cons]
      cases e.moves with
      | false => rfl
      | true =>
          have hnext : (pos + 1).toNat = (pos.toNat + 1) % i2cChipSize := UInt8.toNat_add pos 1
          rw [if_pos rfl, if_pos rfl, hnext, Nat.mod_add_mod]
          congr 1
          omega

theorem ChipEvent.position_of_sets {q : UInt8} (hsets : e.sets = some q) (pos : UInt8) :
    e.position pos = q := by
  cases e with
  | asyncRx pair acts => exact absurd hsets (Option.some_ne_none q).symm
  | xfer call ret data =>
      cases hkind : call.kind with
      | byte =>
          by_cases hwrite : call.IsWrite
          · simpa [ChipEvent.sets, ChipEvent.position, SmbusCall.position, hkind, hwrite] using hsets
          · simp [ChipEvent.sets, hkind, hwrite] at hsets
      | byteData =>
          simpa [ChipEvent.sets, ChipEvent.position, SmbusCall.position, hkind] using hsets
      | _ => simp [ChipEvent.sets, hkind] at hsets

theorem ChipInv.init (hwedev index : Nat) (dev : I2cPriv) :
    ChipInv (dev.initDev hwedev index) ([] : List (ChipEvent w)) :=
  ⟨rfl, I2cChip.byte_zeroed, rfl⟩

/-- **The chip is a file of 256 registers.** In every run from `init_dev` on, no access leaves the
chip; a transfer returns what was last stored in the registers it reads and stores into the ones it
writes and into no others, a delivery overwrites the chip from its start, and byte reads walk round
the chip from the position set last. -/
theorem chip_registers {hwedev index : Nat} (hrun : Run ChipStep (dev.initDev hwedev index) es dev') :
    let held := Registers.lastStored 0 (es.flatMap ChipEvent.stores)
    let pos := es.foldl ChipEvent.position 0
    (∀ call : SmbusCall, ∃ ret data chip, doSmbusXfer call dev'.chip = .ok (ret, data, chip) ∧
      ret = (if call.kind = .other then -eopnotsupp else 0) ∧ call.Returns held pos data ∧
      ∀ a, chip.byte a =
        if call.IsWrite ∧ call.command.toNat ≤ a ∧ a < call.command.toNat + call.width
          then call.payload call.data (a - call.command.toNat) else held a) ∧
    (∀ (pair : Pair w) acts dev'', hweI2cAsyncRx pair dev' = .ok (acts, dev'') → ∀ a, dev''.chip.byte a =
      if a < min pair.resp.length i2cChipSize then pair.resp.getD a 0 else held a) ∧
    ∀ pre e mid q, es = pre ++ e :: mid → e.sets = some q → (∀ e' ∈ mid, e'.sets = none) →
      pos.toNat = (q.toNat + mid.countP ChipEvent.moves) % i2cChipSize := by
  have hinv := (ChipInv.init hwedev index dev).of_run hrun
  rw [List.nil_append] at hinv
  intro held pos
  have hheld : dev'.chip.byte = held := hinv.bytes
  have hpos : dev'.chip.pos = pos := hinv.pos
  refine ⟨?_, ?_, ?_⟩
  · intro call
    obtain ⟨ret, data, chip, hxfer, hdone⟩ := doSmbusXfer_runs dev'.chip call
    refine ⟨ret, data, chip, hxfer, hdone.ret, ?_, ?_⟩
    · rw [← hheld, ← hpos]
      exact hdone.returns
    · intro a
      rw [hdone.bytes, hheld, SmbusCall.stores]
      by_cases hwrite : call.IsWrite
      · simp only [hwrite, if_true, true_and]
        exact Registers.store_range held _ _ _ a
      · simp only [hwrite, if_false, false_and]
        rfl
  · intro pair acts dev'' hrx a
    obtain ⟨_, hchip⟩ := hweI2cAsyncRx_chip hinv.inUse hrx
    rw [hchip, I2cChip.byte_put, hheld, Registers.store_range]
    simp only [Nat.zero_le, true_and, Nat.zero_add, Nat.sub_zero]
  · intro pre e mid q heq hsets hmid
    change (es.foldl ChipEvent.position 0).toNat = _
    rw [heq, List.foldl_append, List.foldl_cons, ChipEvent.position_of_sets hsets]
    exact position_walk hmid q

end

/-- A block of 32 bytes, all of them 0x2a, written six registers before the end of the chip; then the
position set to the last register and a byte read there. -/
theorem chip_registers_applies : ∃ (es : List (ChipEvent 64)) (dev' : I2cPriv),
    Run ChipStep (I2cPriv.zeroed.initDev 1 0) es dev' ∧
      Registers.lastStored 0 (es.flatMap ChipEvent.stores) 249 = 0 ∧
      Registers.lastStored 0 (es.flatMap ChipEvent.stores) 255 = 0x2a ∧
      (es.foldl ChipEvent.position 0).toNat = 0 := by
  let data : SmbusData := ⟨32 :: List.replicate 33 0x2a, rfl⟩
  let block : SmbusCall := ⟨0, 250, 8, data⟩
  let seek : SmbusCall := ⟨0, 255, 1, data⟩
  let read : SmbusCall := ⟨1, 0, 1, data⟩
  obtain ⟨ret₁, data₁, chip₁, hblock, _⟩ := doSmbusXfer_runs (I2cPriv.zeroed.initDev 1 0).chip block
  obtain ⟨ret₂, data₂, chip₂, hseek, _⟩ := doSmbusXfer_runs chip₁ seek
  obtain ⟨ret₃, data₃, chip₃, hread, _⟩ := doSmbusXfer_runs chip₂ read
  have hrun : Run (@ChipStep 64) (I2cPriv.zeroed.initDev 1 0)
      [.xfer block ret₁ data₁, .xfer seek ret₂ data₂, .xfer read ret₃ data₃] _ :=
    .cons ⟨chip₁, hblock, rfl⟩ (.cons ⟨chip₂, hseek, rfl⟩ (Run.single ⟨chip₃, hread, rfl⟩))
  have hwalk := (chip_registers hrun).2.2 [.xfer block ret₁ data₁] (.xfer seek ret₂ data₂)
    [.xfer read ret₃ data₃] 255 rfl rfl (by
      intro e he
      rw [List.mem_singleton.mp he]
      rfl)
  have hmoved : [ChipEvent.xfer (w := 64) read ret₃ data₃].countP ChipEvent.moves = 1 := rfl
  rw [hmoved] at hwalk
  exact ⟨_, _, hrun, rfl, rfl, hwalk⟩

end Hwemu
