import Hwemu.Locking
import Mathlib.Data.Finset.Prod

/-!
# The files of devices and pairs

Any number of threads in the sysfs callbacks and the ioctl commands, one statement at a time. An
operation creates and removes the files of devices and pairs while it holds the semaphore of their
interface. Removing a file waits for the callbacks that run on it, and none starts after that.
-/

namespace Hwemu

variable {w : Nat} {HZ : Nat} {ι : Type} [DecidableEq ι]

/-! ### Files -/

inductive DevAttr where
  | count
  | add
  | delete
  | clear
  deriving DecidableEq

/-- A file in the directory of an interface: a file of the device of an index, or of one of its pairs. -/
inductive DevFile where
  | attr (index : Nat) (name : DevAttr)
  | pair (index pairIndex : Nat)
  deriving DecidableEq

structure SysfsFile where
  iface : HweIface
  path : DevFile
  deriving DecidableEq

inductive FileAct where
  | create (f : DevFile)
  | remove (f : DevFile)

def devDefaultAttrs (index : Nat) : List DevFile :=
  [.attr index .count, .attr index .add, .attr index .delete, .attr index .clear]

/-! ### What the operations do to the files -/

def clearPairsFiles (d : Dev w) : List FileAct := d.pairList.map fun p => .remove (.pair d.index p.index)

/-- The files of the pairs go first, those of the device with the last reference to its kobject. -/
def shutdownDevFiles (d : Dev w) : List FileAct :=
  clearPairsFiles d ++ (devDefaultAttrs d.index).map .remove

/-- A device whose directory of pairs cannot be created loses the files it has just got. -/
def newDevFiles (env : NewDevEnv) (iface : HweIface) (k : Kernel w) : List FileAct :=
  match findFreeDevIndex iface k with
  | none => []
  | some idx =>
      if !env.kzalloc || !env.create || env.kobjectInitAndAdd.isSome then []
      else (devDefaultAttrs idx).map .create ++
        if env.kobjectCreateAndAdd then [] else (devDefaultAttrs idx).map .remove

def addPairFiles (HZ : Nat) (env : AddPairEnv w) (str : List UInt8) (d : Dev w) (k : Kernel w) :
    List FileAct :=
  match addPair HZ env str (some d) k with
  | .ok (.added idx, _) => [.create (.pair d.index idx)]
  | _ => []

def Change.files (k : Kernel w) : Change w → List FileAct
  | removeDev d => shutdownDevFiles d
  | removePair dev p =>
      match k.deref dev with
      | .error _ => []
      | .ok d => [.remove (.pair d.index p.index)]
  | clearPairs dev =>
      match k.deref dev with
      | .error _ => []
      | .ok d => clearPairsFiles d
  | _ => []

/-! ### Calls -/

/-- A callback of a file or an ioctl command. A file of a device is known by the interface and the
index. -/
inductive SysfsCall (w : Nat) where
  | pairShow (iface : HweIface) (index pairIndex : Nat)
  | devCountShow (iface : HweIface) (index : Nat)
  | devAddStore (iface : HweIface) (index : Nat) (buf : List UInt8) (env : AddPairEnv w)
  | devDeleteStore (iface : HweIface) (index : Nat) (buf : List UInt8)
  | devClearStore (iface : HweIface) (index : Nat) (buf : List UInt8)
  | ifaceAddStore (iface : HweIface) (buf : List UInt8) (env : NewDevEnv)
  | ifaceUninstallStore (iface : HweIface) (buf : List UInt8)
  | hwemuIoctl (cmd arg : Nat) (hp : HweioctlPair) (env : IoctlEnv w)

namespace SysfsCall

/-- The file that the callback runs on, if it is one that is ever removed. -/
def file : SysfsCall w → Option SysfsFile
  | pairShow iface index pairIndex => some ⟨iface, .pair index pairIndex⟩
  | devCountShow iface index => some ⟨iface, .attr index .count⟩
  | devAddStore iface index _ _ => some ⟨iface, .attr index .add⟩
  | devDeleteStore iface index _ => some ⟨iface, .attr index .delete⟩
  | devClearStore iface index _ => some ⟨iface, .attr index .clear⟩
  | _ => none

/-- The interface whose semaphore a command takes; none when it gives up before that. -/
def ioctlSem (cmd arg : Nat) (hp : HweioctlPair) (env : IoctlEnv w) : Option HweIface :=
  let devid := (parseDevid (toSizeT hp.deviceId.toInt)).map (·.1)
  match IoctlCmd.ofCode cmd with
  | .addDevice => HweIface.ofNat? arg
  | .uninstallDevice => (parseDevid arg).map (·.1)
  | .pairCount => (parseDevid arg).map (·.1)
  | .readPair => if env.getDeviceId && env.getPairIndex && env.kmalloc then devid else none
  | .writePair => if env.getDeviceId && env.kmalloc && env.copyFromUser then devid else none
  | .deletePair => if env.getDeviceId && env.getPairIndex then devid else none
  | .clearPairs => (parseDevid arg).map (·.1)
  | .other => none

def sem : SysfsCall w → Option HweIface
  | pairShow iface _ _ => some iface
  | devCountShow iface _ => some iface
  | devAddStore iface _ _ _ => some iface
  | devDeleteStore iface _ _ => some iface
  | devClearStore iface _ buf => if buf.length = 0 then none else some iface
  | ifaceAddStore iface buf _ => if buf.length = 0 then none else some iface
  | ifaceUninstallStore iface buf =>
      if buf.length = 0 ∨ (copyWord buf 16).length = 0 then none else some iface
  | hwemuIoctl cmd arg hp env => ioctlSem cmd arg hp env

def ioctlFiles (HZ : Nat) (k : Kernel w) (iface : HweIface) (cmd arg : Nat) (hp : HweioctlPair)
    (env : IoctlEnv w) : List FileAct :=
  match IoctlCmd.ofCode cmd with
  | .addDevice => newDevFiles env.newDev iface k
  | .writePair =>
      match parseDevid (toSizeT hp.deviceId.toInt) with
      | none => []
      | some (_, devIdx) =>
          match findDeviceByIndex iface devIdx k with
          | none => []
          | some d => addPairFiles HZ env.addPair (cstr (hp.pair.take hweMaxPairStr ++ [0])) d k.alloc.2
  | _ => (hwemuIoctlRemoval cmd arg hp env k).files k

/-- What the call does to the files of the interface while it holds the semaphore, in order. -/
def files (HZ : Nat) (k : Kernel w) (iface : HweIface) : SysfsCall w → List FileAct
  | pairShow _ _ _ => []
  | devCountShow _ _ => []
  | devAddStore _ index buf env =>
      match findDeviceByIndex iface index k with
      | none => []
      | some d => addPairFiles HZ env buf d k
  | devDeleteStore _ index buf =>
      match findDeviceByIndex iface index k with
      | none => []
      | some d => (devDeleteStoreRemoval d buf).files k
  | devClearStore _ index _ =>
      match findDeviceByIndex iface index k with
      | none => []
      | some d => clearPairsFiles d
  | ifaceAddStore _ _ env => newDevFiles env iface k
  | ifaceUninstallStore _ buf => (ifaceUninstallStoreRemoval iface buf k).files k
  | hwemuIoctl cmd arg hp env => ioctlFiles HZ k iface cmd arg hp env

/-- The operation on the store; none for the read handlers. -/
def op (k : Kernel w) : SysfsCall w → Option (Op w)
  | pairShow _ _ _ => none
  | devCountShow _ _ => none
  | devAddStore iface index buf env =>
      (findDeviceByIndex iface index k).map fun d => .devAddStore d.addr buf env
  | devDeleteStore iface index buf =>
      (findDeviceByIndex iface index k).map fun d => .devDeleteStore d.addr buf
  | devClearStore iface index buf =>
      (findDeviceByIndex iface index k).map fun d => .devClearStore d.addr buf
  | ifaceAddStore iface buf env => some (.ifaceAddStore iface buf env)
  | ifaceUninstallStore iface buf => some (.ifaceUninstallStore iface buf)
  | hwemuIoctl cmd arg hp env => some (.hwemuIoctl cmd arg hp env)

def effect (HZ : Nat) (k : Kernel w) (c : SysfsCall w) : Option (Kernel w) :=
  match c.op k with
  | none => some k
  | some op =>
      match exec HZ op k with
      | .error _ => none
      | .ok (_, k) => some k

end SysfsCall

/-! ### Threads -/

/-- What the threads share. `live` are the files that callbacks can start on, `busy` the callbacks that
have not returned. -/
structure SysfsShared (ι : Type) (w : Nat) where
  k : Kernel w
  live : Finset SysfsFile
  busy : Finset (ι × SysfsFile)

/-- Where a thread is. `acting` carries what is still to be done to the files, `draining` the file that
is being removed. -/
inductive SysfsPc (w : Nat) where
  | idle
  | entered (c : SysfsCall w)
  | locked (c : SysfsCall w) (iface : HweIface)
  | acting (c : SysfsCall w) (iface : HweIface) (acts : List FileAct)
  | draining (c : SysfsCall w) (iface : HweIface) (f : DevFile) (acts : List FileAct)
  | returning (c : SysfsCall w)

namespace SysfsPc

def holds : SysfsPc w → Option HweIface
  | locked _ iface => some iface
  | acting _ iface _ => some iface
  | draining _ iface _ _ => some iface
  | _ => none

def isIdle : SysfsPc w → Bool
  | idle => true
  | _ => false

/-- The next statement of the thread `i`; none when there is none or it has to wait. The store as the
operation leaves it becomes visible when the semaphore is released. -/
def stmt (HZ : Nat) (i : ι) (s : SysfsShared ι w) :
    SysfsPc w → Option (SysfsShared ι w × SysfsPc w)
  | idle => none
  | entered c =>
      match c.sem with
      | none => (c.effect HZ s.k).map fun k => ({ s with k := k }, returning c)
      | some iface =>
          match lockIfaceDevs iface s.k with
          | .error _ => none
          | .ok k => some ({ s with k := k }, locked c iface)
  | locked c iface => some (s, acting c iface (c.files HZ s.k iface))
  | acting c iface acts =>
      match acts with
      | [] => (c.effect HZ (unlockIfaceDevs iface s.k)).map fun k => ({ s with k := k }, returning c)
      | .create f :: acts => some ({ s with live := insert ⟨iface, f⟩ s.live }, acting c iface acts)
      | .remove f :: acts => some ({ s with live := s.live.erase ⟨iface, f⟩ }, draining c iface f acts)
  | draining c iface f acts =>
      if (s.busy.filter fun call => call.2 = ⟨iface, f⟩) = ∅ then some (s, acting c iface acts) else none
  | returning _ => some ({ s with busy := s.busy.filter fun call => call.1 ≠ i }, idle)

end SysfsPc

abbrev SysfsThreads (ι : Type) (w : Nat) := Threads ι (SysfsShared ι w) (SysfsPc w)

inductive SysfsEvent (ι : Type) (w : Nat) where
  | call (i : ι) (c : SysfsCall w)
  | stmt (i : ι)

def SysfsThreads.next (HZ : Nat) (s : SysfsThreads ι w) : SysfsEvent ι w → Option (SysfsThreads ι w)
  | .call i c =>
      if (s.thread i).isIdle then
        match c.file with
        | none => some (s.move i (s.shared, .entered c))
        | some f =>
            if f ∈ s.shared.live then
              some (s.move i ({ s.shared with busy := insert (i, f) s.shared.busy }, .entered c))
            else none
      else none
  | .stmt i => ((s.thread i).stmt HZ i s.shared).map fun out => s.move i out

/-! ### One statement -/

theorem SysfsCall.effect_orderly {k k' : Kernel w} {c : SysfsCall w} (h : StoreInv k)
    (heffect : c.effect HZ k = some k') : Orderly k k' := by
  unfold effect at heffect
  split at heffect
  · obtain rfl := Option.some.inj heffect
    exact (Tidy.refl h).orderly
  · split at heffect
    · simp at heffect
    · rename_i hexec
      obtain rfl := Option.some.inj heffect
      exact exec_orderly h hexec

theorem SysfsPc.stmt_store {i : ι} {s s' : SysfsShared ι w} {pc pc' : SysfsPc w} (h : StoreInv s.k)
    (hstmt : pc.stmt HZ i s = some (s', pc')) :
    StoreInv s'.k ∧ SemStep s.k.sems pc.holds s'.k.sems pc'.holds := by
  cases pc with
  | idle => simp [stmt] at hstmt
  | entered c =>
      simp only [stmt] at hstmt
      split at hstmt
      · obtain ⟨k, heffect, hout⟩ := Option.map_eq_some_iff.mp hstmt
        obtain ⟨rfl, rfl⟩ := Prod.mk.inj hout
        have ho := SysfsCall.effect_orderly h heffect
        refine ⟨ho.inv, ?_⟩
        dsimp only
        rw [ho.sems]
        exact .rest none
      · rename_i iface _
        split at hstmt
        · simp at hstmt
        · rename_i k hlock
          obtain ⟨rfl, rfl⟩ := Prod.mk.inj (Option.some.inj hstmt)
          obtain ⟨hsem, rfl⟩ := lockIfaceDevs_eq_ok.mp hlock
          exact ⟨h.setSem _ _, .down iface hsem⟩
  | locked c iface =>
      obtain ⟨rfl, rfl⟩ := Prod.mk.inj (Option.some.inj hstmt)
      exact ⟨h, .rest _⟩
  | acting c iface acts =>
      simp only [stmt] at hstmt
      split at hstmt
      · obtain ⟨k, heffect, hout⟩ := Option.map_eq_some_iff.mp hstmt
        obtain ⟨rfl, rfl⟩ := Prod.mk.inj hout
        have ho := SysfsCall.effect_orderly (h.setSem iface (s.k.sems iface + 1)) heffect
        refine ⟨ho.inv, ?_⟩
        dsimp only
        rw [ho.sems]
        exact .up iface
      · obtain ⟨rfl, rfl⟩ := Prod.mk.inj (Option.some.inj hstmt)
        exact ⟨h, .rest _⟩
      · obtain ⟨rfl, rfl⟩ := Prod.mk.inj (Option.some.inj hstmt)
        exact ⟨h, .rest _⟩
  | draining c iface f acts =>
      simp only [stmt] at hstmt
      split at hstmt
      · obtain ⟨rfl, rfl⟩ := Prod.mk.inj (Option.some.inj hstmt)
        exact ⟨h, .rest _⟩
      · simp at hstmt
  | returning c =>
      obtain ⟨rfl, rfl⟩ := Prod.mk.inj (Option.some.inj hstmt)
      exact ⟨h, .rest none⟩

/-- A statement that leaves the files and the callbacks as they were. -/
structure SysfsPc.Passes (s : SysfsShared ι w) (pc : SysfsPc w) (s' : SysfsShared ι w)
    (pc' : SysfsPc w) : Prop where
  live : s'.live = s.live
  busy : s'.busy = s.busy
  notRemoving : ∀ c iface f acts, pc ≠ acting c iface (.remove f :: acts)
  notEntered : ∀ c, pc' ≠ entered c
  notDraining : ∀ c iface f acts, pc' ≠ draining c iface f acts

/-- The statements that concern files, the return of a callback, and the others. -/
theorem SysfsPc.stmt_cases {i : ι} {s s' : SysfsShared ι w} {pc pc' : SysfsPc w}
    (h : pc.stmt HZ i s = some (s', pc')) :
    (∃ c iface f acts, pc = acting c iface (.create f :: acts) ∧ pc' = acting c iface acts ∧
      s' = { s with live := insert ⟨iface, f⟩ s.live }) ∨
    (∃ c iface f acts, pc = acting c iface (.remove f :: acts) ∧ pc' = draining c iface f acts ∧
      s' = { s with live := s.live.erase ⟨iface, f⟩ }) ∨
    (∃ c, pc = returning c ∧ pc' = idle ∧
      s' = { s with busy := s.busy.filter fun call => call.1 ≠ i }) ∨
    Passes s pc s' pc' := by
  cases pc with
  | idle => simp [stmt] at h
  | entered c =>
      refine Or.inr (Or.inr (Or.inr ?_))
      simp only [stmt] at h
      split at h
      · obtain ⟨k, _, hout⟩ := Option.map_eq_some_iff.mp h
        obtain ⟨rfl, rfl⟩ := Prod.mk.inj hout
        exact ⟨rfl, rfl, by simp, by simp, by simp⟩
      · split at h
        · simp at h
        · obtain ⟨rfl, rfl⟩ := Prod.mk.inj (Option.some.inj h)
          exact ⟨rfl, rfl, by simp, by simp, by simp⟩
  | locked c iface =>
      obtain ⟨rfl, rfl⟩ := Prod.mk.inj (Option.some.inj h)
      exact Or.inr (Or.inr (Or.inr ⟨rfl, rfl, by simp, by simp, by simp⟩))
  | acting c iface acts =>
      simp only [stmt] at h
      split at h
      · obtain ⟨k, _, hout⟩ := Option.map_eq_some_iff.mp h
        obtain ⟨rfl, rfl⟩ := Prod.mk.inj hout
        exact Or.inr (Or.inr (Or.inr ⟨rfl, rfl, by simp, by simp, by simp⟩))
      · obtain ⟨rfl, rfl⟩ := Prod.mk.inj (Option.some.inj h)
        exact Or.inl ⟨_, _, _, _, rfl, rfl, rfl⟩
      · obtain ⟨rfl, rfl⟩ := Prod.mk.inj (Option.some.inj h)
        exact Or.inr (Or.inl ⟨_, _, _, _, rfl, rfl, rfl⟩)
  | draining c iface f acts =>
      simp only [stmt] at h
      split at h
      · obtain ⟨rfl, rfl⟩ := Prod.mk.inj (Option.some.inj h)
        exact Or.inr (Or.inr (Or.inr ⟨rfl, rfl, by simp, by simp, by simp⟩))
      · simp at h
  | returning c =>
      obtain ⟨rfl, rfl⟩ := Prod.mk.inj (Option.some.inj h)
      exact Or.inr (Or.inr (Or.inl ⟨c, rfl, rfl, rfl⟩))

/-! ### Waiting for each other -/

/-- A callback waits for the semaphore that a thread holds, and that thread, removing the file of the
callback, waits for the callback. -/
def SysfsThreads.Blocked (s : SysfsThreads ι w) : Prop :=
  ∃ i j c c' iface f acts, s.thread i = .entered c ∧ c.sem = some iface ∧ c.file = some ⟨iface, f⟩ ∧
    (i, ⟨iface, f⟩) ∈ s.shared.busy ∧ s.thread j = .draining c' iface f acts

/-- No thread starts to remove a file while a callback on it is on its way to the semaphore that the
thread holds. -/
def SysfsThreads.Careful (s : SysfsThreads ι w) : SysfsEvent ι w → Prop
  | .stmt j => ∀ c' iface f acts, s.thread j = .acting c' iface (.remove f :: acts) →
      ∀ i c, s.thread i = .entered c → c.file = some ⟨iface, f⟩ → c.sem ≠ some iface
  | _ => True

structure SysfsInv (s : SysfsThreads ι w) : Prop where
  guarded : Guarded (fun i => (s.thread i).holds) s.shared.k
  entered : ∀ i c f, s.thread i = .entered c → c.file = some f → (i, f) ∈ s.shared.busy
  drained : ∀ j c iface f acts, s.thread j = .draining c iface f acts → ⟨iface, f⟩ ∉ s.shared.live

theorem SysfsInv.stmt {s : SysfsThreads ι w} (h : SysfsInv s) {i : ι} {s' : SysfsShared ι w}
    {pc : SysfsPc w} (hstmt : (s.thread i).stmt HZ i s.shared = some (s', pc)) :
    SysfsInv (s.move i (s', pc)) := by
  obtain ⟨hstore, hsems⟩ := SysfsPc.stmt_store h.guarded.store hstmt
  refine ⟨⟨hstore, h.guarded.excl.move hsems⟩, ?_, ?_⟩
  · intro j c f hentered hfile
    by_cases hj : j = i
    · subst hj
      rw [Threads.thread_move_self] at hentered
      subst hentered
      rcases SysfsPc.stmt_cases hstmt with ⟨_, _, _, _, _, hpc, _⟩ | ⟨_, _, _, _, _, hpc, _⟩ |
        ⟨_, _, hpc, _⟩ | hpass
      · simp at hpc
      · simp at hpc
      · simp at hpc
      · exact absurd rfl (hpass.notEntered c)
    · rw [Threads.thread_move_of_ne hj] at hentered
      have hbusy := h.entered j c f hentered hfile
      rw [Threads.shared_move]
      rcases SysfsPc.stmt_cases hstmt with ⟨_, _, _, _, _, _, rfl⟩ | ⟨_, _, _, _, _, _, rfl⟩ |
        ⟨_, _, _, rfl⟩ | hpass
      · exact hbusy
      · exact hbusy
      · exact Finset.mem_filter.mpr ⟨hbusy, hj⟩
      · rw [hpass.busy]
        exact hbusy
  · intro j c iface f acts hdraining
    by_cases hj : j = i
    · subst hj
      rw [Threads.thread_move_self] at hdraining
      subst hdraining
      rw [Threads.shared_move]
      rcases SysfsPc.stmt_cases hstmt with ⟨_, _, _, _, _, hpc, _⟩ | ⟨_, _, _, _, _, hpc, rfl⟩ |
        ⟨_, _, hpc, _⟩ | hpass
      · simp at hpc
      · injection hpc with _ hiface hf
        rw [hiface, hf]
        exact Finset.notMem_erase _ _
      · simp at hpc
      · exact absurd rfl (hpass.notDraining c iface f acts)
    · rw [Threads.thread_move_of_ne hj] at hdraining
      have hgone := h.drained j c iface f acts hdraining
      rw [Threads.shared_move]
      rcases SysfsPc.stmt_cases hstmt with ⟨c', iface', f', acts', hpc, _, rfl⟩ | ⟨_, _, _, _, _, _, rfl⟩ |
        ⟨_, _, _, rfl⟩ | hpass
      · intro hlive
        rcases Finset.mem_insert.mp hlive with hsame | hold
        · -- the thread that creates a file holds the semaphore of another interface
          injection hsame with hiface
          subst hiface
          refine hj (h.guarded.excl.unique j i iface ?_ ?_)
          · rw [hdraining]
            rfl
          · rw [hpc]
            rfl
        · exact hgone hold
      · exact fun hlive => hgone (Finset.mem_of_mem_erase hlive)
      · exact hgone
      · rw [hpass.live]
        exact hgone

theorem SysfsPc.of_isIdle {pc : SysfsPc w} (h : pc.isIdle = true) : pc = idle := by
  cases pc with
  | idle => rfl
  | _ => simp [isIdle] at h

/-- A call that starts, on a file that is live if it is a callback. -/
theorem SysfsThreads.next_call {s s' : SysfsThreads ι w} {i : ι} {c : SysfsCall w}
    (hstep : SysfsThreads.next HZ s (.call i c) = some s') :
    s.thread i = .idle ∧ ∃ busy, s' = s.move i ({ s.shared with busy := busy }, .entered c) ∧
      s.shared.busy ⊆ busy ∧ ∀ f, c.file = some f → (i, f) ∈ busy ∧ f ∈ s.shared.live := by
  simp only [SysfsThreads.next] at hstep
  split at hstep
  · rename_i hidle
    refine ⟨SysfsPc.of_isIdle hidle, ?_⟩
    split at hstep
    · rename_i hfile
      obtain rfl := Option.some.inj hstep
      refine ⟨s.shared.busy, rfl, subset_rfl, ?_⟩
      intro f hf
      rw [hfile] at hf
      simp at hf
    · rename_i f hfile
      split at hstep
      · rename_i hlive
        obtain rfl := Option.some.inj hstep
        refine ⟨insert (i, f) s.shared.busy, rfl, Finset.subset_insert _ _, ?_⟩
        intro f' hf'
        obtain rfl := Option.some.inj (hfile.symm.trans hf')
        exact ⟨Finset.mem_insert_self _ _, hlive⟩
      · simp at hstep
  · simp at hstep

theorem SysfsInv.call {s s' : SysfsThreads ι w} (h : SysfsInv s) {i : ι} {c : SysfsCall w}
    (hstep : SysfsThreads.next HZ s (.call i c) = some s') : SysfsInv s' := by
  obtain ⟨hidle, busy, rfl, hsub, hfile⟩ := SysfsThreads.next_call hstep
  refine ⟨h.guarded.move ?_, ?_, ?_⟩
  · rw [hidle]
    exact .rest h.guarded.store
  · intro j c' f hentered hf
    by_cases hj : j = i
    · subst hj
      rw [Threads.thread_move_self] at hentered
      injection hentered with hc
      subst hc
      exact (hfile f hf).1
    · rw [Threads.thread_move_of_ne hj] at hentered
      exact hsub (h.entered j c' f hentered hf)
  · intro j c' iface f acts hdraining
    by_cases hj : j = i
    · subst hj
      rw [Threads.thread_move_self] at hdraining
      simp at hdraining
    · rw [Threads.thread_move_of_ne hj] at hdraining
      exact h.drained j c' iface f acts hdraining

theorem SysfsInv.step {s s' : SysfsThreads ι w} {e : SysfsEvent ι w} (h : SysfsInv s)
    (hstep : SysfsThreads.next HZ s e = some s') : SysfsInv s' := by
  cases e with
  | call i c => exact h.call hstep
  | stmt i =>
      obtain ⟨out, hstmt, rfl⟩ := Option.map_eq_some_iff.mp hstep
      exact h.stmt hstmt

theorem SysfsInv.blocked_of_move {s : SysfsThreads ι w} (h : SysfsInv s) {i : ι}
    {out : SysfsShared ι w × SysfsPc w} (hblocked : SysfsThreads.Blocked (s.move i out))
    (hentered : ∀ c, out.2 ≠ .entered c) (hdraining : ∀ c iface f acts, out.2 ≠ .draining c iface f acts) :
    s.Blocked := by
  obtain ⟨i', j', c, c', iface, f, acts, hi, hsem, hfile, _, hj⟩ := hblocked
  have hne : i' ≠ i := by
    rintro rfl
    rw [Threads.thread_move_self] at hi
    exact hentered c hi
  have hne' : j' ≠ i := by
    rintro rfl
    rw [Threads.thread_move_self] at hj
    exact hdraining c' iface f acts hj
  rw [Threads.thread_move_of_ne hne] at hi
  rw [Threads.thread_move_of_ne hne'] at hj
  exact ⟨i', j', c, c', iface, f, acts, hi, hsem, hfile, h.entered i' c _ hi hfile, hj⟩

theorem SysfsInv.blocked_stmt {s : SysfsThreads ι w} (h : SysfsInv s) (hfree : ¬s.Blocked) {i : ι}
    {s' : SysfsShared ι w} {pc : SysfsPc w} (hstmt : (s.thread i).stmt HZ i s.shared = some (s', pc)) :
    ¬SysfsThreads.Blocked (s.move i (s', pc)) ↔ s.Careful (.stmt i) := by
  rcases SysfsPc.stmt_cases hstmt with ⟨c, iface, f, acts, hpc, rfl, rfl⟩ |
    ⟨c, iface, f, acts, hpc, rfl, rfl⟩ | ⟨c, hpc, rfl, rfl⟩ | hpass
  · refine iff_of_true (fun hb => hfree (h.blocked_of_move hb (by simp) (by simp))) ?_
    simp [SysfsThreads.Careful, hpc]
  · constructor
    · intro hnone c' iface' f' acts' hpc' i' c'' hentered hfile hsem
      rw [hpc] at hpc'
      injection hpc' with _ hiface hacts
      injection hacts with hact
      injection hact with hf
      subst hiface hf
      have hne : i' ≠ i := by
        rintro rfl
        rw [hpc] at hentered
        simp at hentered
      refine hnone ⟨i', i, c'', c, iface, f, acts, ?_, hsem, hfile, h.entered i' c'' _ hentered hfile,
        Threads.thread_move_self⟩
      rw [Threads.thread_move_of_ne hne]
      exact hentered
    · intro hcareful hb
      have hb' := hb
      obtain ⟨i', j', c₁, c₂, iface', f', acts', hi, hsem, hfile, _, hj⟩ := hb
      have hne : i' ≠ i := by
        rintro rfl
        rw [Threads.thread_move_self] at hi
        simp at hi
      rw [Threads.thread_move_of_ne hne] at hi
      by_cases hji : j' = i
      · subst hji
        rw [Threads.thread_move_self] at hj
        injection hj with _ hiface hf
        subst hiface hf
        exact hcareful c iface f acts hpc i' c₁ hi hfile hsem
      · rw [Threads.thread_move_of_ne hji] at hj
        exact hfree ⟨i', j', c₁, c₂, iface', f', acts', hi, hsem, hfile, h.entered i' c₁ _ hi hfile, hj⟩
  · refine iff_of_true (fun hb => hfree (h.blocked_of_move hb (by simp) (by simp))) ?_
    simp [SysfsThreads.Careful, hpc]
  · refine iff_of_true (fun hb => hfree (h.blocked_of_move hb hpass.notEntered hpass.notDraining)) ?_
    intro c iface f acts hpc
    exact absurd hpc (hpass.notRemoving c iface f acts)

theorem SysfsInv.blocked_iff {s s' : SysfsThreads ι w} {e : SysfsEvent ι w} (h : SysfsInv s)
    (hfree : ¬s.Blocked) (hstep : SysfsThreads.next HZ s e = some s') : ¬s'.Blocked ↔ s.Careful e := by
  cases e with
  | stmt i =>
      obtain ⟨out, hstmt, rfl⟩ := Option.map_eq_some_iff.mp hstep
      exact h.blocked_stmt hfree hstmt
  | call i c =>
      refine iff_of_true ?_ trivial
      obtain ⟨hidle, busy, rfl, _, hlive⟩ := SysfsThreads.next_call hstep
      rintro ⟨i', j', c₁, c₂, iface, f, acts, hi, hsem, hfile, _, hj⟩
      have hne' : j' ≠ i := by
        rintro rfl
        rw [Threads.thread_move_self] at hj
        simp at hj
      rw [Threads.thread_move_of_ne hne'] at hj
      by_cases hii : i' = i
      · subst hii
        rw [Threads.thread_move_self] at hi
        injection hi with hc
        subst hc
        -- no callback starts on a file that is being removed
        exact h.drained j' c₂ iface f acts hj (hlive _ hfile).2
      · rw [Threads.thread_move_of_ne hii] at hi
        exact hfree ⟨i', j', c₁, c₂, iface, f, acts, hi, hsem, hfile, h.entered i' c₁ _ hi hfile, hj⟩

omit [DecidableEq ι] in
theorem SysfsInv.start {s : SysfsThreads ι w} (hreach : SysReachable HZ s.shared.k)
    (hidle : ∀ i, s.thread i = .idle) : SysfsInv s := by
  refine ⟨.init hreach fun i => ?_, ?_, ?_⟩
  · rw [hidle i]
    rfl
  · intro i c f hentered
    rw [hidle i] at hentered
    simp at hentered
  · intro j c iface f acts hdraining
    rw [hidle j] at hdraining
    simp at hdraining

/-- **The semaphores and the files.** No thread that holds a semaphore ever waits for a callback that
waits for that semaphore, in just the runs in which no thread starts to remove a file while a callback
on it is on its way to the semaphore. -/
theorem locks_and_files {s₀ s : SysfsThreads ι w} {es : List (SysfsEvent ι w)}
    (hreach : SysReachable HZ s₀.shared.k) (hidle : ∀ i, s₀.thread i = .idle)
    (hrun : Run (fun s e s' => SysfsThreads.next HZ s e = some s') s₀ es s) :
    (∀ es' t, es' <+: es → Run (fun s e s' => SysfsThreads.next HZ s e = some s') s₀ es' t →
        ¬t.Blocked) ↔
      Run (fun s e s' => SysfsThreads.next HZ s e = some s' ∧ s.Careful e) s₀ es s := by
  refine hrun.all_good_iff (I := SysfsInv) (G := fun s => ¬s.Blocked) (fun _ _ _ h => h.step) ?_
    (.start hreach hidle) ?_
  · exact fun _ _ _ h hfree hstep => h.blocked_iff hfree hstep
  · rintro ⟨i, j, c, c', iface, f, acts, hi, _⟩
    rw [hidle i] at hi
    simp at hi

/-- The module has been loaded: there are no devices, and no thread is in one of the functions. -/
def SysfsThreads.loaded : SysfsThreads Nat 64 where
  shared := { k := Kernel.loaded 64, live := ∅, busy := ∅ }
  thread := fun _ => .idle

theorem SysfsThreads.loaded_start : SysReachable 250 loaded.shared.k ∧ ∀ i, loaded.thread i = .idle :=
  ⟨⟨[], .nil _⟩, fun _ => rfl⟩

/-- Thread 1 adds a tty device and a pair, and thread 0 starts to read the file of the pair. -/
def pairRead : List (SysfsEvent Nat 64) :=
  [.call 1 (.ifaceAddStore .tty (bytes "1") .succeeds)] ++ List.replicate 8 (.stmt 1) ++
  [.call 1 (.devAddStore .tty 0 (bytes "01=02") (.succeeds 64))] ++ List.replicate 5 (.stmt 1) ++
  [.call 0 (.pairShow .tty 0 0)]

/-- The callback that is on its way to a semaphore: the semaphore and the file. -/
def SysfsPc.waits : SysfsPc w → Option (Option HweIface × Option SysfsFile)
  | entered c => some (c.sem, c.file)
  | _ => none

/-- The file that the thread waits to remove. -/
def SysfsPc.removes : SysfsPc w → Option SysfsFile
  | draining _ iface f _ => some ⟨iface, f⟩
  | _ => none

theorem SysfsPc.waits_some {pc : SysfsPc w} {sem : Option HweIface} {file : Option SysfsFile}
    (h : pc.waits = some (sem, file)) : ∃ c, pc = entered c ∧ c.sem = sem ∧ c.file = file := by
  cases pc with
  | entered c =>
      obtain ⟨hsem, hfile⟩ := Prod.mk.inj (Option.some.inj h)
      exact ⟨c, rfl, hsem, hfile⟩
  | _ => simp [waits] at h

theorem SysfsPc.removes_some {pc : SysfsPc w} {iface : HweIface} {f : DevFile}
    (h : pc.removes = some ⟨iface, f⟩) : ∃ c acts, pc = draining c iface f acts := by
  cases pc with
  | draining c iface' f' acts =>
      injection h with h
      injection h with hiface hf
      subst hiface hf
      exact ⟨c, acts, rfl⟩
  | _ => simp [removes] at h

/-- The file that the thread is to remove next. -/
def SysfsPc.toRemove : SysfsPc w → Option SysfsFile
  | acting _ iface (.remove f :: _) => some ⟨iface, f⟩
  | _ => none

/-- No thread starts to remove a file that is in use. -/
def SysfsThreads.Unused (s : SysfsThreads ι w) : SysfsEvent ι w → Prop
  | .stmt j => ∀ f ∈ (s.thread j).toRemove, ∀ use ∈ s.shared.busy, use.2 ≠ f
  | .call _ _ => True

instance (s : SysfsThreads ι w) : (e : SysfsEvent ι w) → Decidable (s.Unused e)
  | .stmt j => inferInstanceAs (Decidable (∀ f ∈ (s.thread j).toRemove, ∀ use ∈ s.shared.busy, use.2 ≠ f))
  | .call _ _ => inferInstanceAs (Decidable True)

omit [DecidableEq ι] in
theorem SysfsInv.careful {s : SysfsThreads ι w} {e : SysfsEvent ι w} (h : SysfsInv s) (hunused : s.Unused e) :
    s.Careful e := by
  cases e with
  | call i c => trivial
  | stmt j =>
      intro c' iface f acts hacting i c hentered hfile
      have hremove : (s.thread j).toRemove = some ⟨iface, f⟩ := by
        rw [hacting]
        rfl
      exact absurd rfl (hunused _ hremove _ (h.entered i c _ hentered hfile))

/-- Thread 0 reads the pair and returns, and then thread 1 deletes it. -/
def deleteAfterRead : List (SysfsEvent Nat 64) :=
  pairRead ++ List.replicate 4 (.stmt 0) ++ [.call 1 (.devDeleteStore .tty 0 (bytes "0"))] ++
    List.replicate 6 (.stmt 1)

theorem locks_and_files_applies : ∃ s : SysfsThreads Nat 64,
    Run (fun s e s' => SysfsThreads.next 250 s e = some s') SysfsThreads.loaded deleteAfterRead s ∧
      ∀ es' t, es' <+: deleteAfterRead → Run (fun s e s' => SysfsThreads.next 250 s e = some s')
        SysfsThreads.loaded es' t → ¬t.Blocked := by
  have hsome : (deleteAfterRead.foldlM (fun (s : SysfsThreads Nat 64) e => if s.Unused e then SysfsThreads.next 250 s e else none)
      SysfsThreads.loaded).isSome = true := by
    decide +kernel
  obtain ⟨s, hs⟩ := Option.isSome_iff_exists.mp hsome
  obtain ⟨hreach, hidle⟩ := SysfsThreads.loaded_start
  have hrun := Run.of_foldlM_guard hs
  have hcareful : Run (fun s e s' => SysfsThreads.next 250 s e = some s' ∧ s.Careful e) SysfsThreads.loaded
      deleteAfterRead s :=
    Run.restrict (I := SysfsInv) (P := fun _ => True)
      (fun _ _ _ h _ hstep => ⟨⟨hstep.1, h.careful hstep.2⟩, h.step hstep.1⟩) hrun (fun _ _ => trivial)
      (.start hreach hidle)
  have hplain := hrun.mono fun _ _ _ hstep => hstep.1
  exact ⟨s, hplain, (locks_and_files hreach hidle hplain).mpr hcareful⟩

/-- Thread 0 has started to read the file of a pair when thread 1 deletes the pair: thread 1 holds the
semaphore and waits for thread 0 to leave the file, and thread 0 waits for the semaphore. -/
theorem delete_blocks_reader : ∃ (s : SysfsThreads Nat 64) (es : List (SysfsEvent Nat 64)),
    Run (fun s e s' => SysfsThreads.next 250 s e = some s') SysfsThreads.loaded es s ∧ s.Blocked ∧
    (s.thread 0).stmt 250 0 s.shared = none ∧ (s.thread 1).stmt 250 1 s.shared = none := by
  let es : List (SysfsEvent Nat 64) :=
    pairRead ++ [.call 1 (.devDeleteStore .tty 0 (bytes "0"))] ++ List.replicate 3 (.stmt 1)
  have hplace : (es.foldlM (SysfsThreads.next 250) SysfsThreads.loaded).map (fun s =>
      ((s.thread 0).waits, (s.thread 1).removes, decide ((0, ⟨.tty, .pair 0 0⟩) ∈ s.shared.busy),
        ((s.thread 0).stmt 250 0 s.shared).isNone, ((s.thread 1).stmt 250 1 s.shared).isNone)) =
      some (some (some .tty, some ⟨.tty, .pair 0 0⟩), some ⟨.tty, .pair 0 0⟩, true, true, true) := by
    decide +kernel
  obtain ⟨s, hrun, hs⟩ := Option.map_eq_some_iff.mp hplace
  simp only [Prod.mk.injEq, decide_eq_true_eq, Option.isNone_iff_eq_none] at hs
  obtain ⟨hwaits, hremoves, hbusy, hstuck, hstuck'⟩ := hs
  obtain ⟨c, hentered, hsem, hfile⟩ := SysfsPc.waits_some hwaits
  obtain ⟨c', acts, hdraining⟩ := SysfsPc.removes_some hremoves
  exact ⟨s, es, .of_foldlM hrun,
    ⟨0, 1, c, c', .tty, .pair 0 0, acts, hentered, hsem, hfile, hbusy, hdraining⟩, hstuck, hstuck'⟩

end Hwemu
