import Hwemu.Operations
import Hwemu.Python
import Hwemu.Show
import Hwemu.Lib.Dict

/-!
# Configuring through sysfs

The routines of `tests/config_sysfs.py` that write a configuration to the files of the module, read
it back and erase it. A directory is listed in any order. What the kernel services return to a write,
and what a new block of memory holds, is decided by the environment.
-/

namespace Hwemu

variable {w : Nat}

/-! ### Configurations -/

/-- `IFACES`. -/
def ifacesOrder : List HweIface := [.i2c, .tty, .net, .spi]

def ifaceName : HweIface → Str
  | .tty => "tty".toList
  | .i2c => "i2c".toList
  | .net => "net".toList
  | .spi => "spi".toList

/-- A key of the dictionary of a device: the number of a pair, or a name. -/
inductive DevKey where
  | num (n : Int)
  | name (s : Str)
  deriving DecidableEq

def DevKey.num? : DevKey → Option Int
  | num n => some n
  | name _ => none

abbrev DevDict := Dict DevKey Str

/-- A dictionary of interfaces, of dictionaries of devices. -/
abbrev Config := Dict HweIface (Dict Str DevDict)

/-- The number appended to the name of an interface. -/
def devNumber (py : Python) (iface : HweIface) (devName : Str) : Except PyError Int :=
  match pyInt py (devName.drop (ifaceName iface).length) with
  | none => .error .valueError
  | some n => .ok n

/-- The body of the loop over the interfaces. -/
def traverseDevs {σ : Type} (py : Python) (onDev : HweIface → Str → σ → Except PyError σ)
    (onPair : HweIface → Str → Int → Str → σ → Except PyError σ) (iface : HweIface) (devs : Dict Str DevDict) (s : σ) :
    Except PyError σ := do
  let devNames ← sortedByKey (devNumber py iface) devs.keys
  devNames.foldlM (fun s devName => do
    if startsWith ['_'] devName then return s
    else
      let s ← onDev iface devName s
      match devs.get? devName with
      | none => .error .keyError
      | some dev =>
          let pairNums := (dev.keys.filterMap DevKey.num?).insertionSort fun m n => m ≤ n
          pairNums.foldlM (fun s pairNum =>
            match dev.get? (.num pairNum) with
            | none => .error .keyError
            | some pair => onPair iface devName pairNum pair s) s) s

def traverseConfig {σ : Type} (py : Python) (onDev : HweIface → Str → σ → Except PyError σ)
    (onPair : HweIface → Str → Int → Str → σ → Except PyError σ) (config : Config) (s : σ) :
    Except PyError σ :=
  config.items.foldlM (fun s (iface, devs) => traverseDevs py onDev onPair iface devs s) s

/-! ### The files -/

/-- What the kernel does for a write, besides what its handler does. -/
structure SysfsEnv (w : Nat) where
  newDev : Kernel w → NewDevEnv
  addPair : Kernel w → AddPairEnv w

/-- All kernel services succeed, and a new block holds whatever `mem` says of its address. -/
def SysfsEnv.succeeds (mem : Nat → Pair w) : SysfsEnv w where
  newDev _ := .succeeds
  addPair k := { kmalloc := some (mem k.heap.next), sysfsCreateFile := none }

/-- The order in which a directory is listed. -/
structure DirOrder where
  list : List (List UInt8) → List (List UInt8)
  perm : ∀ names, (list names).Perm names

/-- The pieces in which sysfs takes what is written to a file: a page each. -/
def pages (data : List UInt8) : List (List UInt8) :=
  if data = [] then [] else data.take 4096 :: pages (data.drop 4096)
  termination_by data.length
  decreasing_by
    rename_i hne
    have hpos := List.length_pos_iff.mpr hne
    rw [List.length_drop]
    omega

/-- `write_file` on the file whose handler is `store`. -/
def writeFile {σ : Type} (store : List UInt8 → σ → Except Fault (Int × σ)) (data : Str) (s : σ) :
    Except PyError σ :=
  (pages (utf8 data)).foldlM (fun s page =>
    match store page s with
    | .error f => .error (.fault f)
    | .ok (ret, s) => if ret < 0 then .error (.osError (-ret)) else .ok s) s

/-- `get_dir_names` of the directory of an interface. -/
def devDirs (order : DirOrder) (iface : HweIface) (k : Kernel w) : Except PyError (List Str) :=
  (order.list ((k.ifaces iface).devList.map (·.name))).mapM decodeUtf8

/-- `get_file_names` of the directory `pairs` of a device. -/
def pairFiles (order : DirOrder) (iface : HweIface) (devName : Str) (k : Kernel w) :
    Except PyError (List Str) :=
  match findDevice iface (utf8 devName) k with
  | none => .error .fileNotFound
  | some d => (order.list (d.pairList.map (·.filename))).mapM decodeUtf8

def readPairFile (iface : HweIface) (devName fname : Str) (k : Kernel w) :
    Except PyError (Str × Kernel w) :=
  match pairShow (ifaceToStr iface) (utf8 devName) (utf8 fname) k with
  | .error f => .error (.fault f)
  | .ok (text, k) => do
      let text ← decodeUtf8 text
      return (universalNewlines text, k)

/-! ### Writing, reading and erasing -/

/-- `on_dev` of `write_config`. -/
def writeDev (env : SysfsEnv w) (iface : HweIface) (k : Kernel w) : Except PyError (Kernel w) :=
  writeFile (fun buf k => ifaceAddStore iface buf (env.newDev k) k) ['1'] k

/-- `on_pair` of `write_config`. -/
def writePair (HZ : Nat) (env : SysfsEnv w) (iface : HweIface) (devName pair : Str) (k : Kernel w) :
    Except PyError (Kernel w) :=
  match findDevice iface (utf8 devName) k with
  | none => .error .fileNotFound
  | some d => writeFile (fun buf k => devAddStore HZ d.addr buf (env.addPair k) k) pair k

def writeConfig (py : Python) (HZ : Nat) (env : SysfsEnv w) (config : Config) (k : Kernel w) :
    Except PyError (Kernel w) :=
  traverseConfig py (fun iface _ k => writeDev env iface k)
    (fun iface devName _ pair k => writePair HZ env iface devName pair k) config k

def readPairs (py : Python) (order : DirOrder) (iface : HweIface) (devName : Str) (k : Kernel w) :
    Except PyError (DevDict × Kernel w) := do
  let files ← pairFiles order iface devName k
  files.foldlM (fun (ret, k) fname => do
    let (text, k) ← readPairFile iface devName fname k
    match pyInt py fname with
    | none => .error .valueError
    | some n => return (ret.set (.num n) text, k)) (Dict.empty, k)

/-- The body of the loop of `read_config`. -/
def readIface (py : Python) (order : DirOrder) (iface : HweIface) (k : Kernel w) :
    Except PyError (Dict Str DevDict × Kernel w) := do
  let devNames ← devDirs order iface k
  devNames.foldlM (fun (devs, k) devName => do
    let (lst, k) ← readPairs py order iface devName k
    return (devs.set devName lst, k)) (Dict.empty, k)

def readConfig (py : Python) (order : DirOrder) (k : Kernel w) : Except PyError (Config × Kernel w) :=
  ifacesOrder.foldlM (fun (ret, k) iface => do
    let (devs, k) ← readIface py order iface k
    return (ret.set iface devs, k)) (Dict.empty, k)

/-- The body of the loop of `erase_config`. -/
def eraseIface (order : DirOrder) (k : Kernel w) (iface : HweIface) : Except PyError (Kernel w) := do
  let devNames ← devDirs order iface k
  devNames.foldlM (fun k devName => writeFile (ifaceUninstallStore iface) devName k) k

def eraseConfig (order : DirOrder) (k : Kernel w) : Except PyError (Kernel w) :=
  ifacesOrder.foldlM (eraseIface order) k

end Hwemu
