import Hwemu.Locking
import Hwemu.Smbus
import Mathlib.Data.Finset.Basic

/-!
# Transfers and the removal of an i2c device

Any number of threads in `hwei2c_master_xfer` and `hwei2c_smbus_xfer` of one adapter, and threads that
remove its device, one statement at a time. The i2c core counts the transfers in progress:
`i2c_del_adapter` returns when there are none, and no transfer starts after that.
-/

namespace Hwemu

variable {w : Nat} {HZ : Nat} {ι : Type} [DecidableEq ι]

/-- A call of one of the two transfer functions. -/
inductive XferCall where
  | master (msgs : List I2cMsg)
  | smbus (call : SmbusCall)

/-- `do_master_xfer` or `do_smbus_xfer`: the result, and the private device as it is left. -/
def XferCall.body (k : Kernel w) (dev : I2cPriv) : XferCall → Except Fault (Int × I2cPriv)
  | master msgs => do
      let (err, _, _, dev) ← doMasterXfer k msgs msgs.length dev
      return (err, dev)
  | smbus call => do
      let (err, _, chip) ← doSmbusXfer call dev.chip
      return (err, { dev with chip := chip })

/-- What the threads share. `busy` are the threads that the i2c core has let into the adapter. -/
structure AdapterShared (ι : Type) (w : Nat) where
  k : Kernel w
  priv : I2cPriv
  registered : Bool
  busy : Finset ι

/-- Where a thread is: the statements of a transfer, and those of a removal. -/
inductive AdapterPc (w : Nat) where
  | idle
  | called (c : XferCall)
  | tested (c : XferCall)
  | running (c : XferCall)
  | ran (err : Int)
  | left (err : Int)
  | removing
  | marking (dev : Dev w)
  | deleting (dev : Dev w)
  | deleted (dev : Dev w)
  | shutDown

namespace AdapterPc

def holds : AdapterPc w → Option HweIface
  | running _ => some .i2c
  | ran _ => some .i2c
  | marking _ => some .i2c
  | deleting _ => some .i2c
  | deleted _ => some .i2c
  | shutDown => some .i2c
  | _ => none

/-- The thread is in a transfer. -/
def inXfer : AdapterPc w → Bool
  | called _ => true
  | tested _ => true
  | running _ => true
  | ran _ => true
  | left _ => true
  | _ => false

/-- The next statement of the thread `i`; none when there is none or it has to wait. -/
def stmt (i : ι) (s : AdapterShared ι w) : AdapterPc w → Option (AdapterShared ι w × AdapterPc w)
  | idle => none
  | called c => if s.priv.inUse then some (s, tested c) else some (s, left (-enodev))
  | tested c =>
      match lockIfaceDevs .i2c s.k with
      | .error _ => none
      | .ok k => some ({ s with k := k }, running c)
  | running c =>
      match c.body s.k s.priv with
      | .error _ => none
      | .ok (err, priv) => some ({ s with priv := priv }, ran err)
  | ran err => some ({ s with k := unlockIfaceDevs .i2c s.k }, left err)
  | left _ => some ({ s with busy := s.busy.erase i }, idle)
  | removing =>
      match lockIfaceDevs .i2c s.k with
      | .error _ => none
      | .ok k =>
          match (k.ifaces .i2c).devList.find? fun d => d.addr == s.priv.hwedev with
          | none => some ({ s with k := k }, shutDown)
          | some dev => some ({ s with k := k }, marking dev)
  | marking dev => some ({ s with priv := hweDestroyI2cDevice s.priv }, deleting dev)
  | deleting dev => if s.busy = ∅ then some ({ s with registered := false }, deleted dev) else none
  | deleted dev =>
      match shutdownDev dev s.k with
      | .error _ => none
      | .ok k => some ({ s with k := k }, shutDown)
  | shutDown => some ({ s with k := unlockIfaceDevs .i2c s.k }, idle)

end AdapterPc

abbrev Adapter (ι : Type) (w : Nat) := Threads ι (AdapterShared ι w) (AdapterPc w)

inductive AdapterEvent (ι : Type) (w : Nat) where
  | xfer (i : ι) (c : XferCall)
  | remove (i : ι)
  | stmt (i : ι)
  | store (op : Op w)

def AdapterPc.isIdle : AdapterPc w → Bool
  | idle => true
  | _ => false

/-- The other operations on the store leave the device to the threads that remove it. -/
def Adapter.next (HZ : Nat) (s : Adapter ι w) : AdapterEvent ι w → Option (Adapter ι w)
  | .xfer i c =>
      if (s.thread i).isIdle && s.shared.registered then
        some (s.move i ({ s.shared with busy := insert i s.shared.busy }, .called c))
      else none
  | .remove i => if (s.thread i).isIdle then some (s.move i (s.shared, .removing)) else none
  | .stmt i => ((s.thread i).stmt i s.shared).map fun out => s.move i out
  | .store op =>
      match exec HZ op s.shared.k with
      | .error _ => none
      | .ok (_, k) =>
          let isOwner (d : Dev w) : Bool := d.addr == s.shared.priv.hwedev
          if (s.shared.k.ifaces .i2c).devList.any isOwner && !(k.ifaces .i2c).devList.any isOwner then none
          else some { s with shared := { s.shared with k := k } }

/-! ### One statement -/

/-- A thread that is about to work on a device of the store still finds it there. -/
def AdapterPc.Listed (k : Kernel w) : AdapterPc w → Prop
  | marking dev => dev ∈ (k.ifaces .i2c).devList
  | deleting dev => dev ∈ (k.ifaces .i2c).devList
  | deleted dev => dev ∈ (k.ifaces .i2c).devList
  | _ => True

theorem AdapterPc.Listed.congr {k k' : Kernel w} {pc : AdapterPc w} (h : pc.Listed k)
    (hifaces : k'.ifaces .i2c = k.ifaces .i2c) : pc.Listed k' := by
  cases pc with
  | marking dev | deleting dev | deleted dev =>
      simp only [Listed, hifaces] at h ⊢
      exact h
  | _ => trivial

theorem AdapterPc.stmt_worked {i : ι} {s s' : AdapterShared ι w} {pc pc' : AdapterPc w}
    (h : StoreInv s.k) (hlisted : pc.Listed s.k) (hstmt : pc.stmt i s = some (s', pc')) :
    Worked pc.holds s.k pc'.holds s'.k ∧ pc'.Listed s'.k := by
  cases pc with
  | idle => simp [stmt] at hstmt
  | called c =>
      simp only [stmt] at hstmt
      split at hstmt
      all_goals
        obtain ⟨rfl, rfl⟩ := Prod.mk.inj (Option.some.inj hstmt)
        exact ⟨.rest h, trivial⟩
  | tested c =>
      simp only [stmt] at hstmt
      split at hstmt
      · simp at hstmt
      · rename_i k hlock
        obtain ⟨rfl, rfl⟩ := Prod.mk.inj (Option.some.inj hstmt)
        exact ⟨.lock h hlock, trivial⟩
  | running c =>
      simp only [stmt] at hstmt
      split at hstmt
      · simp at hstmt
      · obtain ⟨rfl, rfl⟩ := Prod.mk.inj (Option.some.inj hstmt)
        exact ⟨.rest h, trivial⟩
  | ran err =>
      obtain ⟨rfl, rfl⟩ := Prod.mk.inj (Option.some.inj hstmt)
      exact ⟨.unlock h, trivial⟩
  | left err =>
      obtain ⟨rfl, rfl⟩ := Prod.mk.inj (Option.some.inj hstmt)
      exact ⟨.rest h, trivial⟩
  | removing =>
      simp only [stmt] at hstmt
      split at hstmt
      · simp at hstmt
      · rename_i k hlock
        split at hstmt
        · obtain ⟨rfl, rfl⟩ := Prod.mk.inj (Option.some.inj hstmt)
          exact ⟨.lock h hlock, trivial⟩
        · rename_i dev hfind
          obtain ⟨rfl, rfl⟩ := Prod.mk.inj (Option.some.inj hstmt)
          exact ⟨.lock h hlock, List.mem_of_find?_eq_some hfind⟩
  | marking dev =>
      obtain ⟨rfl, rfl⟩ := Prod.mk.inj (Option.some.inj hstmt)
      exact ⟨.rest h, hlisted⟩
  | deleting dev =>
      simp only [stmt] at hstmt
      split at hstmt
      · obtain ⟨rfl, rfl⟩ := Prod.mk.inj (Option.some.inj hstmt)
        exact ⟨.rest h, hlisted⟩
      · simp at hstmt
  | deleted dev =>
      simp only [stmt] at hstmt
      split at hstmt
      · simp at hstmt
      · rename_i k hshut
        obtain ⟨rfl, rfl⟩ := Prod.mk.inj (Option.some.inj hstmt)
        have hiface := h.iface .i2c dev hlisted
        have htidy := Accounted.shutdownDev h (Kernel.mem_devs_of_mem hlisted) () () k (by rw [hshut]; rfl)
        rw [hiface] at htidy
        exact ⟨.work htidy, trivial⟩
  | shutDown =>
      obtain ⟨rfl, rfl⟩ := Prod.mk.inj (Option.some.inj hstmt)
      exact ⟨.unlock h, trivial⟩

theorem xferMsg_inUse {k : Kernel w} {dev dev' : I2cPriv} {m m' : I2cMsg} {act : RespAct}
    (h : xferMsg k m dev = .ok (m', act, dev')) : dev'.inUse = dev.inUse := by
  unfold xferMsg at h
  split at h
  · split at h
    · obtain ⟨bytes, _, hret⟩ := Except.bind_eq_ok_iff.mp h
      obtain rfl := congrArg (·.2.2) (Except.ok.inj hret)
      rfl
    · obtain rfl := congrArg (·.2.2) (Except.ok.inj h)
      rfl
  · obtain ⟨hwedev, _, h⟩ := Except.bind_eq_ok_iff.mp h
    split at h
    · obtain ⟨buffer, _, hret⟩ := Except.bind_eq_ok_iff.mp h
      obtain rfl := congrArg (·.2.2) (Except.ok.inj hret)
      rfl
    · obtain rfl := congrArg (·.2.2) (Except.ok.inj h)
      rfl

theorem doMasterXfer_inUse {k : Kernel w} {msgs : List I2cMsg} {err : Int} {dev dev' : I2cPriv}
    {err' : Int} {msgs' : List I2cMsg} {acts : List RespAct}
    (h : doMasterXfer k msgs err dev = .ok (err', msgs', acts, dev')) : dev'.inUse = dev.inUse := by
  induction msgs generalizing err dev err' msgs' acts with
  | nil =>
      obtain rfl := congrArg (·.2.2.2) (Except.ok.inj h)
      rfl
  | cons m msgs ih =>
      obtain ⟨⟨m', act, dev₁⟩, hfirst, h⟩ := Except.bind_eq_ok_iff.mp h
      obtain ⟨⟨err₂, msgs₂, acts₂, dev₂⟩, hrest, hret⟩ := Except.bind_eq_ok_iff.mp h
      obtain rfl := congrArg (·.2.2.2) (Except.ok.inj hret)
      exact (ih hrest).trans (xferMsg_inUse hfirst)

/-- A transfer leaves the flag alone. -/
theorem XferCall.body_inUse {k : Kernel w} {dev dev' : I2cPriv} {c : XferCall} {err : Int}
    (h : c.body k dev = .ok (err, dev')) : dev'.inUse = dev.inUse := by
  cases c with
  | master msgs =>
      obtain ⟨⟨err', msgs', acts, dev₁⟩, hxfer, hret⟩ := Except.bind_eq_ok_iff.mp h
      obtain ⟨_, rfl⟩ := Prod.mk.inj (Except.ok.inj hret)
      exact doMasterXfer_inUse hxfer
  | smbus call =>
      obtain ⟨⟨err', data, chip⟩, _, hret⟩ := Except.bind_eq_ok_iff.mp h
      obtain ⟨_, rfl⟩ := Prod.mk.inj (Except.ok.inj hret)
      rfl

/-- A statement that leaves what the i2c core knows, and the flag, as they were. -/
structure AdapterPc.Passes (s : AdapterShared ι w) (pc : AdapterPc w) (s' : AdapterShared ι w)
    (pc' : AdapterPc w) : Prop where
  busy : s'.busy = s.busy
  registered : s'.registered = s.registered
  inUse : s'.priv.inUse = s.priv.inUse
  inXfer : pc'.inXfer = pc.inXfer
  notMarking : ∀ dev, pc ≠ marking dev
  notDeleting : ∀ dev, pc ≠ deleting dev ∧ pc' ≠ deleting dev
  toTested : ∀ c, pc' = tested c → s.priv.inUse = true
  toRunning : ∀ c, pc' = running c → pc = tested c

/-- The statements of a removal that concern the transfers, the end of a transfer, and the others. -/
theorem AdapterPc.stmt_cases {i : ι} {s s' : AdapterShared ι w} {pc pc' : AdapterPc w}
    (h : pc.stmt i s = some (s', pc')) :
    (∃ dev, pc = marking dev ∧ pc' = deleting dev ∧ s' = { s with priv := hweDestroyI2cDevice s.priv }) ∨
    (∃ dev, pc = deleting dev ∧ pc' = deleted dev ∧ s.busy = ∅ ∧ s' = { s with registered := false }) ∨
    (∃ err, pc = left err ∧ pc' = idle ∧ s' = { s with busy := s.busy.erase i }) ∨
    Passes s pc s' pc' := by
  cases pc with
  | idle => simp [stmt] at h
  | marking dev =>
      obtain ⟨rfl, rfl⟩ := Prod.mk.inj (Option.some.inj h)
      exact Or.inl ⟨dev, rfl, rfl, rfl⟩
  | deleting dev =>
      simp only [stmt] at h
      split at h
      · rename_i hbusy
        obtain ⟨rfl, rfl⟩ := Prod.mk.inj (Option.some.inj h)
        exact Or.inr (Or.inl ⟨dev, rfl, rfl, hbusy, rfl⟩)
      · simp at h
  | left err =>
      obtain ⟨rfl, rfl⟩ := Prod.mk.inj (Option.some.inj h)
      exact Or.inr (Or.inr (Or.inl ⟨err, rfl, rfl, rfl⟩))
  | called c =>
      refine Or.inr (Or.inr (Or.inr ?_))
      simp only [stmt] at h
      split at h
      · rename_i huse
        obtain ⟨rfl, rfl⟩ := Prod.mk.inj (Option.some.inj h)
        exact ⟨rfl, rfl, rfl, rfl, by simp, by simp, fun _ _ => huse, by simp⟩
      · obtain ⟨rfl, rfl⟩ := Prod.mk.inj (Option.some.inj h)
        exact ⟨rfl, rfl, rfl, rfl, by simp, by simp, by simp, by simp⟩
  | tested c =>
      refine Or.inr (Or.inr (Or.inr ?_))
      simp only [stmt] at h
      split at h
      · simp at h
      · obtain ⟨rfl, rfl⟩ := Prod.mk.inj (Option.some.inj h)
        exact ⟨rfl, rfl, rfl, rfl, by simp, by simp, by simp, by simp⟩
  | running c =>
      refine Or.inr (Or.inr (Or.inr ?_))
      simp only [stmt] at h
      split at h
      · simp at h
      · rename_i hbody
        obtain ⟨rfl, rfl⟩ := Prod.mk.inj (Option.some.inj h)
        exact ⟨rfl, rfl, XferCall.body_inUse hbody, rfl, by simp, by simp, by simp, by simp⟩
  | ran err =>
      obtain ⟨rfl, rfl⟩ := Prod.mk.inj (Option.some.inj h)
      exact Or.inr (Or.inr (Or.inr ⟨rfl, rfl, rfl, rfl, by simp, by simp, by simp, by simp⟩))
  | removing =>
      refine Or.inr (Or.inr (Or.inr ?_))
      simp only [stmt] at h
      split at h
      · simp at h
      · split at h
        all_goals
          obtain ⟨rfl, rfl⟩ := Prod.mk.inj (Option.some.inj h)
          exact ⟨rfl, rfl, rfl, rfl, by simp, by simp, by simp, by simp⟩
  | deleted dev =>
      refine Or.inr (Or.inr (Or.inr ?_))
      simp only [stmt] at h
      split at h
      · simp at h
      · obtain ⟨rfl, rfl⟩ := Prod.mk.inj (Option.some.inj h)
        exact ⟨rfl, rfl, rfl, rfl, by simp, by simp, by simp, by simp⟩
  | shutDown =>
      obtain ⟨rfl, rfl⟩ := Prod.mk.inj (Option.some.inj h)
      exact Or.inr (Or.inr (Or.inr ⟨rfl, rfl, rfl, rfl, by simp, by simp, by simp, by simp⟩))

/-! ### What holds of the device and its threads -/

/-- A thread in a transfer is counted; one that waits for the transfers to end has cleared the flag;
one whose transfer runs does so on a device in use. -/
structure AdapterPc.Fits (i : ι) (s : AdapterShared ι w) (pc : AdapterPc w) : Prop where
  busy : i ∈ s.busy ↔ pc.inXfer = true
  listed : pc.Listed s.k
  cleared : ∀ dev, pc = deleting dev → s.priv.inUse = false
  running : ∀ c, pc = running c → s.priv.inUse = true

structure AdapterInv (s : Adapter ι w) : Prop where
  guarded : Guarded (fun i => (s.thread i).holds) s.shared.k
  fits : ∀ i, (s.thread i).Fits i s.shared
  gone : s.shared.registered = false → s.shared.busy = ∅
  unused : s.shared.priv.inUse = false → s.shared.registered = false ∨ ∃ i dev, s.thread i = .deleting dev

/-- Where a removal starts: the device is in use and no thread is in one of the functions. -/
structure AdapterStart (HZ : Nat) (s : Adapter ι w) : Prop where
  reach : SysReachable HZ s.shared.k
  idle : ∀ i, s.thread i = .idle
  inUse : s.shared.priv.inUse = true
  registered : s.shared.registered = true
  busy : s.shared.busy = ∅

omit [DecidableEq ι] in
theorem AdapterStart.inv {s : Adapter ι w} (h : AdapterStart HZ s) : AdapterInv s := by
  refine ⟨.init h.reach fun i => ?_, fun i => ?_, fun hreg => ?_, fun huse => ?_⟩
  · rw [h.idle i]
    rfl
  · rw [h.idle i]
    refine ⟨?_, trivial, by simp, by simp⟩
    rw [h.busy]
    simp [AdapterPc.inXfer]
  · exact absurd (hreg.symm.trans h.registered) (by simp)
  · exact absurd (huse.symm.trans h.inUse) (by simp)

omit [DecidableEq ι] in
/-- A thread that holds no semaphore needs nothing of the store. -/
theorem AdapterPc.listed_of_holds {k k' : Kernel w} {pc : AdapterPc w} (h : pc.Listed k)
    (hifaces : pc.holds = some .i2c → k'.ifaces .i2c = k.ifaces .i2c) : pc.Listed k' := by
  cases pc with
  | marking dev | deleting dev | deleted dev => exact h.congr (hifaces rfl)
  | _ => trivial

omit [DecidableEq ι] in
theorem AdapterInv.store {s : Adapter ι w} (h : AdapterInv s) {k : Kernel w} (ho : Orderly s.shared.k k) :
    AdapterInv { s with shared := { s.shared with k := k } } := by
  refine ⟨h.guarded.orderly ho, fun i => ?_, h.gone, h.unused⟩
  obtain ⟨hbusy, hlisted, hcleared, hrunning⟩ := h.fits i
  refine ⟨hbusy, AdapterPc.listed_of_holds hlisted ?_, hcleared, hrunning⟩
  exact h.guarded.frame_orderly ho

/-- The statement leaves the other threads what they need. -/
theorem AdapterInv.fits_others {s : Adapter ι w} (h : AdapterInv s) {i : ι} {s' : AdapterShared ι w}
    {pc : AdapterPc w} (hstmt : (s.thread i).stmt i s.shared = some (s', pc)) {j : ι} (hj : j ≠ i) :
    (s.thread j).Fits j s' := by
  obtain ⟨hbusy, hlisted, hcleared, hrunning⟩ := h.fits j
  have hwork := (AdapterPc.stmt_worked h.guarded.store (h.fits i).listed hstmt).1
  have hlisted' : (s.thread j).Listed s'.k :=
    AdapterPc.listed_of_holds hlisted fun hholds => h.guarded.frame hwork hholds hj
  rcases AdapterPc.stmt_cases hstmt with ⟨dev, hpc, _, rfl⟩ | ⟨dev, _, _, _, rfl⟩ | ⟨err, _, _, rfl⟩ | hpass
  · refine ⟨hbusy, hlisted', fun _ _ => rfl, ?_⟩
    -- the thread that clears the flag holds the semaphore, so no transfer runs
    intro c hpcj
    refine absurd (h.guarded.excl.unique j i .i2c ?_ ?_) hj
    · rw [hpcj]
      rfl
    · rw [hpc]
      rfl
  · exact ⟨hbusy, hlisted', hcleared, hrunning⟩
  · refine ⟨?_, hlisted', hcleared, hrunning⟩
    rw [← hbusy]
    exact Finset.mem_erase.trans (and_iff_right hj)
  · refine ⟨?_, hlisted', ?_, ?_⟩
    · rw [hpass.busy]
      exact hbusy
    · rw [hpass.inUse]
      exact hcleared
    · rw [hpass.inUse]
      exact hrunning

omit [DecidableEq ι] in
/-- While a transfer has been let in and the semaphore is not held by a removal, the device is in use. -/
theorem AdapterInv.inUse_of_busy {s : Adapter ι w} (h : AdapterInv s) {i : ι}
    (hbusy : (s.thread i).inXfer = true) (hnone : ∀ j dev, s.thread j ≠ .deleting dev) :
    s.shared.priv.inUse = true := by
  by_contra hunused
  rcases h.unused (by simpa using hunused) with hgone | ⟨j, dev, hdeleting⟩
  · have hmem := (h.fits i).busy.mpr hbusy
    rw [h.gone hgone] at hmem
    exact absurd hmem (Finset.notMem_empty i)
  · exact hnone j dev hdeleting

theorem AdapterInv.stmt {s : Adapter ι w} (h : AdapterInv s) {i : ι} {s' : AdapterShared ι w}
    {pc : AdapterPc w} (hstmt : (s.thread i).stmt i s.shared = some (s', pc)) :
    AdapterInv (s.move i (s', pc)) := by
  obtain ⟨hwork, hlisted'⟩ := AdapterPc.stmt_worked h.guarded.store (h.fits i).listed hstmt
  obtain ⟨hbusy, hlisted, hcleared, hrunning⟩ := h.fits i
  have hothers : ∀ j, j ≠ i → (s.thread j).Fits j s' := fun j hj => h.fits_others hstmt hj
  have hkept : ∀ {j dev}, s.thread j = .deleting dev → (∀ dev', s.thread i ≠ .deleting dev') →
      (s.move i (s', pc)).thread j = .deleting dev := by
    intro j dev hj hne
    rw [Threads.thread_move_of_ne]
    · exact hj
    · rintro rfl
      exact hne dev hj
  refine ⟨h.guarded.move hwork,
    Threads.forall_move (A := fun j (s : AdapterShared ι w) (pc : AdapterPc w) => pc.Fits j s) ?_ hothers, ?_, ?_⟩
  · rcases AdapterPc.stmt_cases hstmt with ⟨dev, hpc, rfl, rfl⟩ | ⟨dev, hpc, rfl, _, rfl⟩ |
      ⟨err, hpc, rfl, rfl⟩ | hpass
    · rw [hpc] at hbusy
      exact ⟨hbusy, hlisted', fun _ _ => rfl, by simp⟩
    · rw [hpc] at hbusy
      exact ⟨hbusy, hlisted', by simp, by simp⟩
    · refine ⟨?_, trivial, by simp, by simp⟩
      simp [AdapterPc.inXfer]
    · refine ⟨?_, hlisted', ?_, ?_⟩
      · dsimp only
        rw [hpass.busy, hpass.inXfer]
        exact hbusy
      · intro dev hpc'
        exact absurd hpc' (hpass.notDeleting dev).2
      · intro c hpc'
        dsimp only at hpc'
        have hpc := hpass.toRunning c hpc'
        dsimp only
        rw [hpass.inUse]
        refine h.inUse_of_busy (i := i) ?_ ?_
        · rw [hpc]
          rfl
        · intro j dev hj
          -- the semaphore was free, so no removal holds it
          have htaken := h.guarded.excl.taken j .i2c (by rw [hj]; rfl)
          subst hpc'
          rw [hpc] at hstmt
          simp [AdapterPc.stmt, lockIfaceDevs, htaken] at hstmt
  · rcases AdapterPc.stmt_cases hstmt with ⟨dev, _, _, rfl⟩ | ⟨dev, _, _, hempty, rfl⟩ |
      ⟨err, _, _, rfl⟩ | hpass
    · exact h.gone
    · exact fun _ => hempty
    · intro hgone
      rw [Threads.shared_move]
      dsimp only
      rw [h.gone hgone, Finset.erase_empty]
    · rw [Threads.shared_move, hpass.registered, hpass.busy]
      exact h.gone
  · rcases AdapterPc.stmt_cases hstmt with ⟨dev, _, rfl, rfl⟩ | ⟨dev, _, _, _, rfl⟩ |
      ⟨err, hpc, _, rfl⟩ | hpass
    · exact fun _ => Or.inr ⟨i, dev, Threads.thread_move_self⟩
    · exact fun _ => Or.inl rfl
    · intro hunused
      rcases h.unused hunused with hgone | ⟨j, dev, hj⟩
      · exact Or.inl hgone
      · refine Or.inr ⟨j, dev, hkept hj ?_⟩
        simp [hpc]
    · rw [Threads.shared_move, hpass.inUse, hpass.registered]
      intro hunused
      rcases h.unused hunused with hgone | ⟨j, dev, hj⟩
      · exact Or.inl hgone
      · exact Or.inr ⟨j, dev, hkept hj fun dev' => (hpass.notDeleting dev').1⟩

theorem AdapterPc.of_isIdle {pc : AdapterPc w} (h : pc.isIdle = true) : pc = idle := by
  cases pc with
  | idle => rfl
  | _ => simp [isIdle] at h

/-- A thread that enters one of the functions. -/
theorem AdapterInv.enter {s : Adapter ι w} (h : AdapterInv s) {i : ι} (hidle : s.thread i = .idle)
    {busy : Finset ι} {pc : AdapterPc w} (hholds : pc.holds = none) (hlisted : pc.Listed s.shared.k)
    (hrun : ∀ c, pc ≠ .running c) (hdelete : ∀ dev, pc ≠ .deleting dev) (hself : i ∈ busy ↔ pc.inXfer = true)
    (hothers : ∀ j, j ≠ i → (j ∈ busy ↔ j ∈ s.shared.busy))
    (hgone : s.shared.registered = false → busy = ∅) :
    AdapterInv (s.move i ({ s.shared with busy := busy }, pc)) := by
  have hstore := h.guarded.store
  refine ⟨h.guarded.move ?_,
    Threads.forall_move (A := fun j (s : AdapterShared ι w) (pc : AdapterPc w) => pc.Fits j s) ?_ ?_, hgone, ?_⟩
  · dsimp only
    rw [hidle, hholds]
    exact .rest hstore
  · exact ⟨hself, hlisted, fun dev hpc => absurd hpc (hdelete dev), fun c hpc => absurd hpc (hrun c)⟩
  · intro j hj
    obtain ⟨hbusy, hlisted, hcleared, hrunning⟩ := h.fits j
    exact ⟨(hothers j hj).trans hbusy, hlisted, hcleared, hrunning⟩
  · intro hunused
    rcases h.unused hunused with hgone | ⟨j, dev, hj⟩
    · exact Or.inl hgone
    · refine Or.inr ⟨j, dev, ?_⟩
      rw [Threads.thread_move_of_ne]
      · exact hj
      · rintro rfl
        rw [hidle] at hj
        simp at hj

theorem AdapterInv.step {s s' : Adapter ι w} {e : AdapterEvent ι w} (h : AdapterInv s)
    (hstep : Adapter.next HZ s e = some s') : AdapterInv s' := by
  cases e with
  | xfer i c =>
      simp only [Adapter.next] at hstep
      split at hstep
      · rename_i hmay
        obtain ⟨hidle, hregistered⟩ := Bool.and_eq_true_iff.mp hmay
        obtain rfl := Option.some.inj hstep
        refine h.enter (AdapterPc.of_isIdle hidle) rfl trivial (by simp) (by simp) ?_ ?_ ?_
        · exact iff_of_true (Finset.mem_insert_self ..) rfl
        · intro j hj
          exact Finset.mem_insert.trans (or_iff_right hj)
        · intro hgone
          exact absurd (hregistered.symm.trans hgone) (by simp)
      · simp at hstep
  | remove i =>
      simp only [Adapter.next] at hstep
      split at hstep
      · rename_i hmay
        have hidle := AdapterPc.of_isIdle hmay
        obtain rfl := Option.some.inj hstep
        refine h.enter hidle rfl trivial (by simp) (by simp) ?_ (fun _ _ => Iff.rfl) h.gone
        have hbusy := (h.fits i).busy
        rwa [hidle] at hbusy
      · simp at hstep
  | stmt i =>
      obtain ⟨out, hstmt, rfl⟩ := Option.map_eq_some_iff.mp hstep
      exact h.stmt hstmt
  | store op =>
      simp only [Adapter.next] at hstep
      split at hstep
      · simp at hstep
      · rename_i ret k hexec
        split at hstep
        · simp at hstep
        · obtain rfl := Option.some.inj hstep
          exact h.store (exec_orderly h.guarded.store hexec)

/-! ### Waiting for each other -/

/-- A transfer waits for the semaphore that a removal holds, and the removal waits for the transfer. -/
def Adapter.Blocked (s : Adapter ι w) : Prop :=
  ∃ i j c dev, s.thread i = .tested c ∧ s.thread j = .deleting dev

/-- No removal clears the flag while a transfer is between its test and the semaphore. -/
def Adapter.Careful (s : Adapter ι w) : AdapterEvent ι w → Prop
  | .stmt i => ∀ dev, s.thread i = .marking dev → ∀ j c, s.thread j ≠ .tested c
  | _ => True

theorem Adapter.Blocked.of_move {s : Adapter ι w} {i : ι} {out : AdapterShared ι w × AdapterPc w}
    (h : Adapter.Blocked (s.move i out)) (htested : ∀ c, out.2 ≠ .tested c) (hdeleting : ∀ dev, out.2 ≠ .deleting dev) :
    s.Blocked := by
  obtain ⟨i', j', c, dev, hi, hj⟩ := h
  refine ⟨i', j', c, dev, ?_, ?_⟩
  · rw [Threads.thread_move_of_ne] at hi
    · exact hi
    · rintro rfl
      rw [Threads.thread_move_self] at hi
      exact htested c hi
  · rw [Threads.thread_move_of_ne] at hj
    · exact hj
    · rintro rfl
      rw [Threads.thread_move_self] at hj
      exact hdeleting dev hj

theorem AdapterInv.blocked_stmt {s : Adapter ι w} {i : ι} {out : AdapterShared ι w × AdapterPc w}
    (h : AdapterInv s) (hfree : ¬s.Blocked) (hstmt : (s.thread i).stmt i s.shared = some out) :
    ¬Adapter.Blocked (s.move i out) ↔ s.Careful (.stmt i) := by
  obtain ⟨s', pc⟩ := out
  rcases AdapterPc.stmt_cases hstmt with ⟨dev, hpc, rfl, rfl⟩ | ⟨dev, hpc, rfl, _, rfl⟩ |
    ⟨err, hpc, rfl, rfl⟩ | hpass
  · constructor
    · intro hnone dev' _ j c hj
      refine hnone ⟨j, i, c, dev, ?_, Threads.thread_move_self⟩
      rw [Threads.thread_move_of_ne]
      · exact hj
      · rintro rfl
        exact absurd (hpc.symm.trans hj) (by simp)
    · rintro hcareful ⟨i', j', c, dev', hi, _⟩
      refine hcareful dev hpc i' c ?_
      rw [Threads.thread_move_of_ne] at hi
      · exact hi
      · rintro rfl
        rw [Threads.thread_move_self] at hi
        simp at hi
  · refine iff_of_true (fun hb => hfree (hb.of_move (by simp) (by simp))) ?_
    simp [Adapter.Careful, hpc]
  · refine iff_of_true (fun hb => hfree (hb.of_move (by simp) (by simp))) ?_
    simp [Adapter.Careful, hpc]
  · refine iff_of_true ?_ fun dev hpc => absurd hpc (hpass.notMarking dev)
    intro hb
    refine hfree (hb.of_move ?_ fun dev => (hpass.notDeleting dev).2)
    rintro c rfl
    -- the flag is still set, so nobody waits for the transfers to end
    obtain ⟨i', j, c', dev, _, hj⟩ := hb
    rw [Threads.thread_move_of_ne] at hj
    · have hunused := (h.fits j).cleared dev hj
      rw [hpass.toTested c rfl] at hunused
      simp at hunused
    · rintro rfl
      rw [Threads.thread_move_self] at hj
      simp at hj

theorem AdapterInv.blocked_iff {s s' : Adapter ι w} {e : AdapterEvent ι w} (h : AdapterInv s)
    (hfree : ¬s.Blocked) (hstep : Adapter.next HZ s e = some s') : ¬s'.Blocked ↔ s.Careful e := by
  cases e with
  | stmt i =>
      obtain ⟨out, hstmt, rfl⟩ := Option.map_eq_some_iff.mp hstep
      exact h.blocked_stmt hfree hstmt
  | xfer i c =>
      simp only [Adapter.next] at hstep
      split at hstep
      · obtain rfl := Option.some.inj hstep
        exact iff_of_true (fun hb => hfree (hb.of_move (by simp) (by simp))) trivial
      · simp at hstep
  | remove i =>
      simp only [Adapter.next] at hstep
      split at hstep
      · obtain rfl := Option.some.inj hstep
        exact iff_of_true (fun hb => hfree (hb.of_move (by simp) (by simp))) trivial
      · simp at hstep
  | store op =>
      simp only [Adapter.next] at hstep
      split at hstep
      · simp at hstep
      · split at hstep
        · simp at hstep
        · obtain rfl := Option.some.inj hstep
          exact iff_of_true hfree trivial

/-- **Transfers and removals.** A transfer only runs on a device in use. No transfer and no removal
ever wait for each other, in just the runs in which no removal clears the flag while a transfer is
between its test and the semaphore. -/
theorem transfers_and_removals {s₀ s : Adapter ι w} {es : List (AdapterEvent ι w)}
    (hstart : AdapterStart HZ s₀) (hrun : Run (fun s e s' => Adapter.next HZ s e = some s') s₀ es s) :
    (∀ i c, s.thread i = .running c → s.shared.priv.inUse = true) ∧
      ((∀ es' t, es' <+: es → Run (fun s e s' => Adapter.next HZ s e = some s') s₀ es' t → ¬t.Blocked) ↔
        Run (fun s e s' => Adapter.next HZ s e = some s' ∧ s.Careful e) s₀ es s) := by
  constructor
  · have hinv := hrun.invariant (I := AdapterInv) (fun _ _ _ h hstep => h.step hstep) hstart.inv
    exact fun i => (hinv.fits i).running
  · refine hrun.all_good_iff (I := AdapterInv) (G := fun s => ¬s.Blocked) (fun _ _ _ h => h.step) ?_
      hstart.inv ?_
    · exact fun _ _ _ h hfree hstep => h.blocked_iff hfree hstep
    · rintro ⟨i, j, c, dev, hi, _⟩
      rw [hstart.idle i] at hi
      simp at hi

/-- An i2c device in use, and no thread in one of the functions. -/
def oneAdapter : Option (Adapter Nat 64) :=
  match execAll 250 [.hweAddDevice .i2c .succeeds] (Kernel.loaded 64) with
  | .error _ => none
  | .ok k => some { shared := { k := k, priv := I2cPriv.zeroed.initDev 1 0, registered := true, busy := ∅ }
                    thread := fun _ => .idle }

theorem oneAdapter_start {s : Adapter Nat 64} (h : oneAdapter = some s) : AdapterStart 250 s := by
  unfold oneAdapter at h
  cases hrun : execAll 250 [.hweAddDevice .i2c .succeeds] (Kernel.loaded 64) with
  | error fault => simp [hrun] at h
  | ok k =>
      rw [hrun] at h
      obtain rfl := Option.some.inj h
      exact ⟨(Reachable.of_execAll hrun).sys, fun _ => rfl, rfl, rfl, rfl⟩

/-- Where a thread is, for a run that is computed. -/
def AdapterPc.place : AdapterPc w → String
  | tested _ => "tested"
  | running _ => "running"
  | deleting _ => "deleting"
  | _ => "elsewhere"

theorem AdapterPc.place_tested {pc : AdapterPc w} (h : pc.place = "tested") : ∃ c, pc = tested c := by
  cases pc with
  | tested c => exact ⟨c, rfl⟩
  | _ => simp [place] at h

theorem AdapterPc.place_deleting {pc : AdapterPc w} (h : pc.place = "deleting") : ∃ dev, pc = deleting dev := by
  cases pc with
  | deleting dev => exact ⟨dev, rfl⟩
  | _ => simp [place] at h

theorem AdapterPc.place_running {pc : AdapterPc w} (h : pc.place = "running") : ∃ c, pc = running c := by
  cases pc with
  | running c => exact ⟨c, rfl⟩
  | _ => simp [place] at h

/-- A transfer that runs, and another thread that has come to remove the device. -/
theorem transfers_and_removals_applies : ∃ (s₀ s : Adapter Nat 64) (es : List (AdapterEvent Nat 64))
    (c : XferCall), s.thread 0 = .running c ∧ s.shared.priv.inUse = true ∧
    Run (fun s e s' => Adapter.next 250 s e = some s') s₀ es s ∧
    ((∀ es' t, es' <+: es → Run (fun s e s' => Adapter.next 250 s e = some s') s₀ es' t → ¬t.Blocked) ↔
      Run (fun s e s' => Adapter.next 250 s e = some s' ∧ s.Careful e) s₀ es s) := by
  let es : List (AdapterEvent Nat 64) := [.xfer 0 (.master []), .remove 1, .stmt 0, .stmt 0]
  have hplace : (oneAdapter.bind fun s => es.foldlM (Adapter.next 250) s).map (fun s =>
      (s.thread 0).place) = some "running" := by
    decide +kernel
  obtain ⟨s, hrun, hs⟩ := Option.map_eq_some_iff.mp hplace
  obtain ⟨s₀, hstart, hrun⟩ := Option.bind_eq_some_iff.mp hrun
  obtain ⟨c, hrunning⟩ := AdapterPc.place_running hs
  have happlied := transfers_and_removals (oneAdapter_start hstart) (.of_foldlM hrun)
  exact ⟨s₀, s, es, c, hrunning, happlied.1 0 c hrunning, .of_foldlM hrun, happlied.2⟩

/-- A transfer tests the flag; then the device is removed under the semaphore: the transfer waits for
the semaphore and the removal for the transfer. -/
theorem removal_blocks_transfer : ∃ (s₀ s : Adapter Nat 64) (es : List (AdapterEvent Nat 64)),
    AdapterStart 250 s₀ ∧ Run (fun s e s' => Adapter.next 250 s e = some s') s₀ es s ∧ s.Blocked ∧
    (s.thread 0).stmt 0 s.shared = none ∧ (s.thread 1).stmt 1 s.shared = none := by
  let es : List (AdapterEvent Nat 64) :=
    [.xfer 0 (.master []), .stmt 0, .remove 1, .stmt 1, .stmt 1]
  have hplace : (oneAdapter.bind fun s => es.foldlM (Adapter.next 250) s).map (fun s =>
      ((s.thread 0).place, (s.thread 1).place, ((s.thread 0).stmt 0 s.shared).isNone,
        ((s.thread 1).stmt 1 s.shared).isNone)) = some ("tested", "deleting", true, true) := by
    decide +kernel
  obtain ⟨s, hrun, hs⟩ := Option.map_eq_some_iff.mp hplace
  obtain ⟨s₀, hstart, hrun⟩ := Option.bind_eq_some_iff.mp hrun
  simp only [Prod.mk.injEq, Option.isNone_iff_eq_none] at hs
  obtain ⟨htested, hdeleting, hstuck, hstuck'⟩ := hs
  obtain ⟨c, htested⟩ := AdapterPc.place_tested htested
  obtain ⟨dev, hdeleting⟩ := AdapterPc.place_deleting hdeleting
  exact ⟨s₀, s, es, oneAdapter_start hstart, .of_foldlM hrun, ⟨0, 1, c, dev, htested, hdeleting⟩, hstuck,
    hstuck'⟩

end Hwemu
