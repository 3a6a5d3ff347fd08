import Hwemu.Accounts
import Hwemu.ModuleLoad

/-!
# Loading and unloading, statement by statement

`hwemu_init` and `hwemu_exit` are lists of statements, and the timer may run between any two of them. So may
operations: as long as the files of an interface are in sysfs, an operation can take its semaphore and be at
work on it, whatever is left of the load or of the unload.
-/

namespace Hwemu

variable {w : Nat} {HZ : Nat}

/-! ### Statements -/

/-- The statements of `shutdown_dev` with those of `pair_delete` that concern the store. -/
inductive ShutdownStmt (w : Nat) where
  | destroy
  | clearBit (pair : Pair w)
  | listDelPair (pair : Pair w)
  | kfreePair (pair : Pair w)
  | listDel
  | putDevIndex
  | kobjectPut

def ShutdownStmt.exec (dev : Dev w) : ShutdownStmt w → Kernel w → Kernel w
  | destroy, k => destroyIfCreated dev k
  | clearBit pair, k => k.modifyDev pair.dev fun d =>
      { d with pairsIndexes := Bitmap.clearBit pair.index d.pairsIndexes }
  | listDelPair pair, k => k.modifyDev dev.addr fun d =>
      { d with pairList := d.pairList.filter fun p => p.addr ≠ pair.addr }
  | kfreePair pair, k => k.kfree pair.addr
  | listDel, k => unlinkDev dev k
  | putDevIndex, k => Hwemu.putDevIndex dev.iface dev.index k
  -- the last reference is dropped, and `dev_release` frees the record
  | kobjectPut, k => k.kfree dev.addr

def pairDeleteStmts (pair : Pair w) : List (ShutdownStmt w) := [.clearBit pair, .listDelPair pair, .kfreePair pair]

def shutdownStmts (dev : Dev w) : List (ShutdownStmt w) :=
  .destroy :: (dev.pairList.flatMap pairDeleteStmts ++ [.listDel, .putDevIndex, .kobjectPut])

/-- The statements of `hwemu_init` and `hwemu_exit`. The unit `async` consists of starting and stopping the
timer; of the drivers and of `ioctl` nothing concerns the store. -/
inductive LoadStmt (w : Nat) where
  | initUnit (unit : HweUnit)
  | addTimer
  | ksetCreateAndAdd
  | initListHead (iface : HweIface)
  | bitmapZero (iface : HweIface)
  | semaInit (iface : HweIface)
  | kobjectInitAndAdd (iface : HweIface)
  | cleanupUnit (unit : HweUnit)
  | delTimerSync
  -- the loop of `cleanup_iface`
  | cleanupIface (iface : HweIface)
  | shutdown (dev : Dev w) (stmt : ShutdownStmt w)
  | kobjectPutIface (iface : HweIface)
  | ksetUnregister

def initIfaceStmts (iface : HweIface) : List (LoadStmt w) :=
  [.initListHead iface, .bitmapZero iface, .semaInit iface, .kobjectInitAndAdd iface]

def initStmts : HweUnit → List (LoadStmt w)
  | .async => [.addTimer]
  | .sysfs => .ksetCreateAndAdd :: HweIface.all.flatMap initIfaceStmts
  | unit => [.initUnit unit]

def cleanupStmts : HweUnit → List (LoadStmt w)
  | .async => [.delTimerSync]
  | .sysfs => HweIface.all.reverse.map .cleanupIface ++ [.ksetUnregister]
  | unit => [.cleanupUnit unit]

def hwemuInitStmts : List (LoadStmt w) := HweUnit.all.flatMap initStmts

def hwemuExitStmts : List (LoadStmt w) := HweUnit.all.reverse.flatMap cleanupStmts

/-- The cleanup functions of the units before this one, the last of them first. -/
def cleanupBefore (unit : HweUnit) : List (LoadStmt w) :=
  (HweUnit.all.takeWhile (· ≠ unit)).reverse.flatMap cleanupStmts

/-- What is left to do when the statement fails, if it can. -/
def LoadStmt.rollback : LoadStmt w → Option (List (LoadStmt w))
  | initUnit .i2c => none
  | initUnit .net => none
  | initUnit unit => some (cleanupBefore unit)
  | ksetCreateAndAdd => some (cleanupBefore .sysfs)
  | kobjectInitAndAdd iface =>
      some ((HweIface.all.takeWhile (· ≠ iface)).reverse.map .cleanupIface ++ cleanupBefore .sysfs)
  | _ => none

/-! ### States -/

/-- The module between two statements. `k` is the store as the operations that are over have left it;
`working` is what an operation that holds the semaphore of an interface has made of its record so far.
`listHead` says for which interfaces `INIT_LIST_HEAD` has run, `files` for which of them the files are in
sysfs, `timer` whether the timer is pending, `up` whether `hwemu_init` was the last to be called and has not
failed, and `todo` is what is left of it, of its rollback or of `hwemu_exit`. -/
structure TimedModule (w : Nat) where
  k : Kernel w
  listHead : HweIface → Bool
  files : HweIface → Bool
  timer : Bool
  working : HweIface → Option (Iface w)
  up : Bool
  todo : List (LoadStmt w)

namespace TimedModule

/-- The store as `timer_func` finds it. -/
def store (s : TimedModule w) : Kernel w :=
  { s.k with
    ifaces := fun iface => (s.working iface).getD (s.k.ifaces iface)
    sems := fun iface => if (s.working iface).isSome then s.k.sems iface - 1 else s.k.sems iface }

/-- The static data as the module is put into memory. The addresses go on, with a new log of what is
freed. -/
def zeroed (next : Nat) : TimedModule w :=
  { k := { ifaces := fun _ => { devList := [], devIndexes := 0 }, sems := fun _ => 0, heap := { next := next, freed := [] } }
    listHead := fun _ => false
    files := fun _ => false
    timer := false
    working := fun _ => none
    up := false
    todo := [] }

def isWorking (s : TimedModule w) (iface : HweIface) : Bool := (s.working iface).isSome

def setWorking (iface : HweIface) (ifc : Option (Iface w)) (s : TimedModule w) : TimedModule w :=
  { s with working := Function.update s.working iface ifc }

end TimedModule

def LoadStmt.exec (s : TimedModule w) : LoadStmt w → TimedModule w
  | addTimer => { s with timer := true }
  | initListHead iface =>
      { s with
        k := s.k.setIface iface { s.k.ifaces iface with devList := [] }
        listHead := Function.update s.listHead iface true }
  | bitmapZero iface => { s with k := s.k.setIface iface { s.k.ifaces iface with devIndexes := 0 } }
  | semaInit iface => { s with k := s.k.setSem iface 1 }
  | kobjectInitAndAdd iface => { s with files := Function.update s.files iface true }
  | delTimerSync => { s with timer := false }
  | cleanupIface iface =>
      match (s.k.ifaces iface).devList with
      | [] => { s with todo := kobjectPutIface iface :: s.todo }
      | dev :: _ => { s with todo := (shutdownStmts dev).map (shutdown dev) ++ cleanupIface iface :: s.todo }
  | shutdown dev stmt => { s with k := stmt.exec dev s.k }
  -- a device that is left holds a reference, and the files stay
  | kobjectPutIface iface => { s with files := Function.update s.files iface !(s.k.ifaces iface).devList.isEmpty }
  | _ => s

/-- `kobject_put` waits for the operation on a file it removes. -/
def LoadStmt.waits (s : TimedModule w) : LoadStmt w → Bool
  | kobjectPutIface iface => s.isWorking iface
  | _ => false

/-- What an operation works on that holds the semaphore of an interface. -/
def Kernel.only (iface : HweIface) (k : Kernel w) : Kernel w :=
  { k with
    ifaces := fun j => if j = iface then k.ifaces j else { devList := [], devIndexes := 0 }
    sems := fun j => if j = iface then k.sems j else 0 }

/-- What such an operation leaves behind. -/
def Kernel.put (iface : HweIface) (k done : Kernel w) : Kernel w :=
  { k with
    ifaces := Function.update k.ifaces iface (done.ifaces iface)
    heap := done.heap }

/-- `insmod` and `rmmod` begin a load and an unload, `stmt` is the next statement of either and `fails` its
failure. An operation takes a semaphore, works on the record of the interface, and releases the semaphore
when it has done what it does or left everything as it was. -/
inductive TimedEvent (w : Nat) where
  | insmod
  | rmmod
  | stmt
  | fails
  | lock (iface : HweIface)
  | work (iface : HweIface) (ifc : Iface w)
  | finish (iface : HweIface) (op : Op w)
  | unlock (iface : HweIface)
  | tick (jiff : BitVec w)

namespace TimedModule

/-- `timer_func`, which leaves what it cannot enter. -/
def tick (jiff : BitVec w) (s : TimedModule w) : TimedModule w :=
  let k := (timerFunc jiff s.store).1
  { s with
    k := { s.k with
      ifaces := fun iface => if s.isWorking iface then s.k.ifaces iface else k.ifaces iface } }

def next (HZ : Nat) (s : TimedModule w) : TimedEvent w → Option (TimedModule w)
  | .insmod =>
      if s.up || !s.todo.isEmpty || HweIface.all.any s.isWorking then none
      else some { zeroed s.k.heap.next with up := true, todo := hwemuInitStmts }
  | .rmmod =>
      if !s.up || !s.todo.isEmpty then none
      else some { s with up := false, todo := hwemuExitStmts }
  | .stmt =>
      match s.todo with
      | [] => none
      | stmt :: todo => if stmt.waits s then none else some (stmt.exec { s with todo := todo })
  | .fails =>
      match s.todo with
      | [] => none
      | stmt :: _ => stmt.rollback.map fun back => { s with up := false, todo := back }
  | .lock iface =>
      if !s.files iface || s.store.sems iface = 0 then none
      else some (s.setWorking iface (some (s.k.ifaces iface)))
  | .work iface ifc => if s.isWorking iface then some (s.setWorking iface (some ifc)) else none
  | .finish iface op =>
      if !s.isWorking iface then none
      else match exec HZ op (s.k.only iface) with
        | .error _ => none
        | .ok (_, done) => some ({ s with k := s.k.put iface done }.setWorking iface none)
  | .unlock iface => if s.isWorking iface then some (s.setWorking iface none) else none
  | .tick jiff =>
      if s.timer then some (s.tick jiff) else none

/-- Before the module is loaded for the first time. -/
def initial (w : Nat) : TimedModule w := zeroed 1

end TimedModule

/-! ### The statements together -/

theorem pairDeleteStmts_exec {dev : Dev w} {pair : Pair w} {k k' : Kernel w}
    (h : pairDelete dev.addr pair k = .ok k') :
    (pairDeleteStmts pair).foldl (fun k stmt => stmt.exec dev k) k = k' := by
  obtain ⟨owner, hderef, hret⟩ := Except.bind_eq_ok_iff.mp h
  obtain ⟨_, haddr⟩ := deref_eq_ok hderef
  rw [← Except.ok.inj hret, haddr]
  rfl

theorem clearPairsStmts_exec {dev : Dev w} {pairs : List (Pair w)} {k k' : Kernel w}
    (h : pairs.foldlM (fun k pair => pairDelete dev.addr pair k) k = .ok k') :
    (pairs.flatMap pairDeleteStmts).foldl (fun k stmt => stmt.exec dev k) k = k' := by
  induction pairs generalizing k with
  | nil => exact Except.ok.inj h
  | cons pair pairs ih =>
      rw [List.foldlM_cons] at h
      obtain ⟨k₁, hfirst, hrest⟩ := Except.bind_eq_ok_iff.mp h
      rw [List.flatMap_cons, List.foldl_append, pairDeleteStmts_exec hfirst]
      exact ih hrest

/-- With nothing in between, the statements do what `shutdown_dev` does. -/
theorem shutdownStmts_exec {dev : Dev w} {k k' : Kernel w} (h : shutdownDev dev k = .ok k') :
    (shutdownStmts dev).foldl (fun k stmt => stmt.exec dev k) k = k' := by
  obtain ⟨k₁, hclear, hret⟩ := Except.bind_eq_ok_iff.mp h
  rw [shutdownStmts, List.foldl_cons, List.foldl_append]
  change List.foldl _ (List.foldl _ (destroyIfCreated dev k) _) _ = k'
  rw [clearPairsStmts_exec hclear, ← Except.ok.inj hret]
  rfl

end Hwemu
