import Hwemu.StoreSteps

/-!
# The store operations, each in turn

What every operation does to the store and what its result says about it, and the invariant of all
states that a sequence of operations can reach from module load.
-/

namespace Hwemu

variable {w : Nat} {k k' k₁ k₂ : Kernel w} {d : Dev w} {c : Change w} {ret : Int}

/-! ### Locating devices and pairs -/

theorem findDeviceByIndex_some {iface : HweIface} {index : Int}
    (h : findDeviceByIndex iface index k = some d) : d ∈ k.devs ∧ (d.index : Int) = index :=
  ⟨Kernel.mem_devs_of_mem (List.mem_of_find?_eq_some h), by simpa using List.find?_some h⟩

theorem findDevice_some {iface : HweIface} {name : List UInt8} (h : findDevice iface name k = some d) :
    d ∈ k.devs :=
  Kernel.mem_devs_of_mem (List.mem_of_find?_eq_some h)

theorem StoreInv.findDeviceByIndex_eq (h : StoreInv k) (hd : d ∈ k.devs) :
    findDeviceByIndex d.iface d.index k = some d := by
  unfold findDeviceByIndex
  cases hfind : (k.ifaces d.iface).devList.find? fun d' => (d'.index : Int) == d.index with
  | none =>
      have hne := List.find?_eq_none.mp hfind d (h.mem_devs.mp hd)
      simp at hne
  | some d' =>
      have hindex : d'.index = d.index := by simpa using List.find?_some hfind
      rw [List.inj_on_of_nodup_map (h.indexes d.iface).nodup (List.mem_of_find?_eq_some hfind)
        (h.mem_devs.mp hd) hindex]

theorem getPairAtIndex_some {list : List (Pair w)} {index : Nat} {p : Pair w}
    (h : getPairAtIndex list index = some p) : p ∈ list ∧ p.index = index := by
  have hbeq := List.find?_some h
  exact ⟨List.mem_of_find?_eq_some h, (beq_iff_eq.mp hbeq).symm⟩

/-! ### What an operation removes -/

def removalOfDev : Option (Dev w) → Change w
  | none => .keep
  | some d => .removeDev d

def removalOfPair (d : Dev w) : Option (Pair w) → Change w
  | none => .keep
  | some p => .removePair d.addr p

def ifaceUninstallStoreRemoval (iface : HweIface) (buf : List UInt8) (k : Kernel w) : Change w :=
  if buf.length = 0 ∨ (copyWord buf 16).length = 0 then .keep
  else removalOfDev (findDevice iface (copyWord buf 16) k)

def hweDeleteDeviceRemoval (iface : HweIface) (devIndex : Int) (k : Kernel w) : Change w :=
  removalOfDev (findDeviceByIndex iface devIndex k)

def devDeleteStoreRemoval (d : Dev w) (buf : List UInt8) : Change w :=
  if buf.length = 0 then .keep else removalOfPair d ((kstrtouint buf).bind (getPairAtIndex d.pairList))

def hweDeletePairRemoval (iface : HweIface) (devIndex pairIndex : Int) (k : Kernel w) : Change w :=
  match findDeviceByIndex iface devIndex k with
  | none => .keep
  | some d => removalOfPair d (getPairAtIndex d.pairList (toSizeT pairIndex))

def devClearStoreRemoval (dev : Nat) (buf : List UInt8) : Change w :=
  if buf.length = 0 then .keep else .clearPairs dev

def hweClearPairsRemoval (iface : HweIface) (devIndex : Int) (k : Kernel w) : Change w :=
  match findDeviceByIndex iface devIndex k with
  | none => .keep
  | some d => .clearPairs d.addr

/-- Of the commands three remove something, if they get as far as that. -/
def hwemuIoctlRemoval (cmd arg : Nat) (hp : HweioctlPair) (env : IoctlEnv w) (k : Kernel w) : Change w :=
  match IoctlCmd.ofCode cmd with
  | .uninstallDevice =>
      match parseDevid arg with
      | none => .keep
      | some (ifc, idx) => hweDeleteDeviceRemoval ifc idx k
  | .deletePair =>
      if !env.getDeviceId then .keep
      else
        match parseDevid (toSizeT hp.deviceId.toInt) with
        | none => .keep
        | some (ifc, devIdx) =>
            if !env.getPairIndex then .keep else hweDeletePairRemoval ifc devIdx hp.pairIndex.toInt k
  | .clearPairs =>
      match parseDevid arg with
      | none => .keep
      | some (ifc, devIdx) => hweClearPairsRemoval ifc devIdx k
  | _ => .keep

/-- A step that removes what `c` says, or else adds something or leaves the store as it is. -/
def Removed (c : Change w) (k k' : Kernel w) : Prop :=
  Changed c k k' ∨ c = .keep ∧ ∃ c', c'.Adds ∧ Changed c' k k'

theorem Removed.lists_iff (h : Removed c k k') (hinv : StoreInv k) {iface : HweIface} {dev addr : Nat}
    (hlisted : k.Lists iface dev addr) : k'.Lists iface dev addr ↔ ¬c.Drops dev addr := by
  rcases h with hc | ⟨rfl, c', hadds, hc⟩
  · exact hc.lists_iff hinv hlisted
  · exact (hc.lists_iff hinv hlisted).trans (iff_of_true hadds.not_drops not_false)

theorem Removed.changed (h : Removed c k k') : ∃ c, Changed c k k' := by
  rcases h with hc | ⟨_, c', _, hc⟩
  · exact ⟨c, hc⟩
  · exact ⟨c', hc⟩

/-! ### Memory and locks around a change -/

theorem Changed.keep_before (h₁ : Changed .keep k k₁) (h₂ : Changed c k₁ k₂) : Changed c k k₂ := by
  have hifaces : k₁.ifaces = k.ifaces := h₁.ifaces
  have hdevs : k₁.devs = k.devs := by
    unfold Kernel.devs
    rw [hifaces]
  refine ⟨?_, h₂.sems.trans h₁.sems, h₁.next.trans h₂.next, ?_⟩
  · rw [h₂.ifaces]
    cases c <;> simp only [Change.apply, Kernel.setIface, Kernel.modifyDev, hifaces]
  · have hallowed := h₂.allowed
    cases c <;> simp only [Change.Allowed, hdevs, hifaces] at hallowed ⊢
    case addDev d =>
      obtain ⟨hpairs, hbits, hpub, hlow, hrest⟩ := hallowed
      exact ⟨hpairs, hbits, hpub, h₁.next.trans hlow, hrest⟩
    case addPair dev p =>
      obtain ⟨hdev, hlow, hhigh⟩ := hallowed
      exact ⟨hdev, h₁.next.trans hlow, hhigh⟩
    all_goals exact hallowed

theorem Changed.keep_after (h₁ : Changed c k k₁) (h₂ : Changed .keep k₁ k₂) : Changed c k k₂ := by
  refine ⟨h₂.ifaces.trans h₁.ifaces, h₂.sems.trans h₁.sems, h₁.next.trans h₂.next, ?_⟩
  have hallowed := h₁.allowed
  have hnext := h₂.next
  cases c with
  | keep => trivial
  | addDev d =>
      obtain ⟨hpairs, hbits, hpub, hlow, hhigh, hrest⟩ := hallowed
      exact ⟨hpairs, hbits, hpub, hlow, lt_of_lt_of_le hhigh hnext, hrest⟩
  | removeDev d => exact hallowed
  | addPair dev p =>
      obtain ⟨hdev, hlow, hhigh⟩ := hallowed
      exact ⟨hdev, hlow, lt_of_lt_of_le hhigh hnext⟩
  | removePair dev p => exact hallowed
  | clearPairs dev => exact hallowed

theorem Changed.refl (k : Kernel w) : Changed .keep k k := ⟨rfl, rfl, le_rfl, trivial⟩

theorem Changed.alloc (k : Kernel w) : Changed .keep k k.alloc.2 := ⟨rfl, rfl, Nat.le_succ _, trivial⟩

theorem Changed.kfree (addr : Nat) (k : Kernel w) : Changed .keep k (k.kfree addr) :=
  ⟨rfl, rfl, le_rfl, trivial⟩

/-- An operation under the lock, in a state with the invariant: the body is run in such a state
too, and what it changes is what the operation changes. -/
theorem withLock_changed {α : Type} {iface : HweIface} {a : α}
    {body : Kernel w → Except Fault (α × Kernel w)} (h : StoreInv k)
    (hrun : withLock iface k body = .ok (a, k')) :
    ∃ k₀ k₁, StoreInv k₀ ∧ k₀.ifaces = k.ifaces ∧ k₀.heap = k.heap ∧ body k₀ = .ok (a, k₁) ∧
      ∀ c, Changed c k₀ k₁ → Changed c k k' := by
  obtain ⟨hsem, k₁, hbody, rfl⟩ := withLock_eq_ok.mp hrun
  exact ⟨_, k₁, h.setSem _ _, rfl, rfl, hbody, fun c hc => hc.unlock hsem⟩

/-! ### Operations on devices -/

theorem newDev_of_ok (h : StoreInv k) {env : NewDevEnv} {iface : HweIface} {r : Option (Dev w)}
    (hrun : newDev env iface k = .ok (r, k')) : ∃ c, c.Adds ∧ Changed c k k' := by
  obtain ⟨r', k₁, hnew, hcases⟩ := newDev_changed h env iface
  rw [hnew] at hrun
  obtain ⟨rfl, rfl⟩ := Prod.mk.inj (Except.ok.inj hrun)
  rcases hcases with ⟨_, hkeep⟩ | ⟨d, _, _, hadd⟩
  · exact ⟨.keep, trivial, hkeep⟩
  · exact ⟨.addDev d, trivial, hadd⟩

theorem ifaceAddStore_changed (h : StoreInv k) {iface : HweIface} {buf : List UInt8} {env : NewDevEnv}
    (hrun : ifaceAddStore iface buf env k = .ok (ret, k')) : ∃ c, c.Adds ∧ Changed c k k' := by
  unfold ifaceAddStore at hrun
  split at hrun
  · obtain ⟨_, rfl⟩ := Prod.mk.inj (Except.ok.inj hrun)
    exact ⟨.keep, trivial, Changed.refl k⟩
  · rw [strToIface_ifaceToStr] at hrun
    obtain ⟨k₀, k₁, h₀, _, _, hbody, hunlock⟩ := withLock_changed h hrun
    obtain ⟨⟨r, k₂⟩, hnew, hret⟩ := Except.bind_eq_ok_iff.mp hbody
    obtain ⟨_, rfl⟩ := Prod.mk.inj (Except.ok.inj hret)
    obtain ⟨c, hadds, hc⟩ := newDev_of_ok h₀ hnew
    exact ⟨c, hadds, hunlock c hc⟩

theorem hweAddDevice_changed (h : StoreInv k) {iface : HweIface} {env : NewDevEnv}
    (hrun : hweAddDevice iface env k = .ok (ret, k')) : ∃ c, c.Adds ∧ Changed c k k' := by
  obtain ⟨k₀, k₁, h₀, _, _, hbody, hunlock⟩ := withLock_changed h hrun
  obtain ⟨⟨r, k₂⟩, hnew, hret⟩ := Except.bind_eq_ok_iff.mp hbody
  obtain ⟨_, rfl⟩ := Prod.mk.inj (Except.ok.inj hret)
  obtain ⟨c, hadds, hc⟩ := newDev_of_ok h₀ hnew
  exact ⟨c, hadds, hunlock c hc⟩

/-- The part of the two uninstall operations after the device has been looked up. -/
theorem shutdownDev_of_ok (h : StoreInv k) (hd : d ∈ k.devs) {a : Int}
    (hrun : (do
      let k ← shutdownDev d k
      return (a, k) : Except Fault (Int × Kernel w)) = .ok (ret, k')) :
    Changed (.removeDev d) k k' := by
  obtain ⟨k₁, hshut, hchanged⟩ := shutdownDev_changed h hd
  rw [hshut] at hrun
  obtain ⟨_, rfl⟩ := Prod.mk.inj (Except.ok.inj hrun)
  exact hchanged

theorem ifaceUninstallStore_changed (h : StoreInv k) {iface : HweIface} {buf : List UInt8}
    (hrun : ifaceUninstallStore iface buf k = .ok (ret, k')) :
    Changed (ifaceUninstallStoreRemoval iface buf k) k k' := by
  unfold ifaceUninstallStore at hrun
  unfold ifaceUninstallStoreRemoval
  split at hrun
  · rename_i hbuf
    obtain ⟨_, rfl⟩ := Prod.mk.inj (Except.ok.inj hrun)
    rw [if_pos (Or.inl hbuf)]
    exact Changed.refl k
  · rename_i hbuf
    rw [strToIface_ifaceToStr] at hrun
    dsimp only at hrun
    split at hrun
    · rename_i hword
      obtain ⟨_, rfl⟩ := Prod.mk.inj (Except.ok.inj hrun)
      rw [if_pos (Or.inr hword)]
      exact Changed.refl k
    · rename_i hword
      rw [if_neg (not_or.mpr ⟨hbuf, hword⟩)]
      obtain ⟨k₀, k₁, h₀, hifaces, _, hbody, hunlock⟩ := withLock_changed h hrun
      have hsame : findDevice iface (copyWord buf 16) k = findDevice iface (copyWord buf 16) k₀ := by
        unfold findDevice
        rw [hifaces]
      rw [hsame]
      cases hfind : findDevice iface (copyWord buf 16) k₀ with
      | none =>
          rw [hfind] at hbody
          obtain ⟨_, rfl⟩ := Prod.mk.inj (Except.ok.inj hbody)
          exact hunlock _ (Changed.refl k₀)
      | some d =>
          rw [hfind] at hbody
          exact hunlock _ (shutdownDev_of_ok h₀ (findDevice_some hfind) hbody)

theorem findDeviceByIndex_congr (hifaces : k₁.ifaces = k.ifaces) (iface : HweIface) (index : Int) :
    findDeviceByIndex iface index k₁ = findDeviceByIndex iface index k := by
  unfold findDeviceByIndex
  rw [hifaces]

theorem hweDeleteDevice_changed (h : StoreInv k) {iface : HweIface} {devIndex : Int}
    (hrun : hweDeleteDevice iface devIndex k = .ok (ret, k')) :
    Changed (hweDeleteDeviceRemoval iface devIndex k) k k' := by
  obtain ⟨k₀, k₁, h₀, hifaces, _, hbody, hunlock⟩ := withLock_changed h hrun
  rw [hweDeleteDeviceRemoval, ← findDeviceByIndex_congr hifaces]
  cases hfind : findDeviceByIndex iface devIndex k₀ with
  | none =>
      rw [hfind] at hbody
      obtain ⟨_, rfl⟩ := Prod.mk.inj (Except.ok.inj hbody)
      exact hunlock _ (Changed.refl k₀)
  | some d =>
      rw [hfind] at hbody
      exact hunlock _ (shutdownDev_of_ok h₀ (findDeviceByIndex_some hfind).1 hbody)

/-! ### Operations on pairs -/

theorem neg_errno_lt (err : Errno) : -((err : Nat) : Int) < 0 := by
  have hpos := err.2.1
  omega

theorem storeRet_neg {r : AddPairResult w} (h : ∀ idx, r ≠ .added idx) (count : Nat) :
    r.storeRet count < 0 := by
  cases r with
  | added idx => exact absurd rfl (h idx)
  | createFailed err => exact neg_errno_lt err
  | _ => exact (by decide : -einval < 0)

theorem ioctlRet_neg {r : AddPairResult w} (h : ∀ idx, r ≠ .added idx) : r.ioctlRet < 0 := by
  cases r with
  | added idx => exact absurd rfl (h idx)
  | createFailed err => exact neg_errno_lt err
  | outOfMemory => exact (by decide : -enomem < 0)
  | invalid err => exact (by decide : -einval < 0)
  | tooMany => exact (by decide : -e2big < 0)
  | duplicate p => exact (by decide : -eexist < 0)

theorem ioctlRet_ge (r : AddPairResult w) : -4095 ≤ r.ioctlRet := by
  cases r with
  | added idx => exact le_trans (by decide) (Int.natCast_nonneg idx)
  | createFailed err =>
      have hle := err.2.2
      change -4095 ≤ -((err : Nat) : Int)
      omega
  | outOfMemory => exact (by decide : -4095 ≤ -enomem)
  | invalid err => exact (by decide : -4095 ≤ -einval)
  | tooMany => exact (by decide : -4095 ≤ -e2big)
  | duplicate p => exact (by decide : -4095 ≤ -eexist)

/-- **Adding a pair through sysfs** puts the parsed pair in the list or fails and changes nothing. -/
theorem devAddStore_cases (h : StoreInv k) (hd : d ∈ k.devs) {HZ : Nat} {buf : List UInt8}
    {env : AddPairEnv w} (hrun : devAddStore HZ d.addr buf env k = .ok (ret, k')) :
    (∃ mem q, env.kmalloc = some mem ∧
        strToPair HZ buf { mem with addr := k.heap.next } = .ok (.ok q) ∧ ret = buf.length ∧
        Changed (.addPair d.addr (q.placed d)) k k') ∨
      (ret < 0 ∧ Changed .keep k k') := by
  unfold devAddStore at hrun
  rw [h.deref_eq hd, Except.ok_bind] at hrun
  obtain ⟨k₀, k₁, h₀, hifaces, hheap, hbody, hunlock⟩ := withLock_changed h hrun
  obtain ⟨⟨r, k₂⟩, hadd, hret⟩ := Except.bind_eq_ok_iff.mp hbody
  obtain ⟨hval, rfl⟩ := Prod.mk.inj (Except.ok.inj hret)
  have hd₀ : d ∈ k₀.devs := by
    unfold Kernel.devs
    rw [hifaces]
    exact hd
  rcases addPair_changed h₀ hd₀ hadd with ⟨mem, q, hmem, hparse, rfl, hchanged⟩ | ⟨hne, hkeep⟩
  · rw [hheap] at hparse
    exact Or.inl ⟨mem, q, hmem, hparse, hval.symm, hunlock _ hchanged⟩
  · exact Or.inr ⟨hval ▸ storeRet_neg hne _, hunlock _ hkeep⟩

/-- **Adding a pair through the ioctl interface**, to a device that exists. -/
theorem hweAddPair_cases (h : StoreInv k) {HZ : Nat} {iface : HweIface} {devIndex : Int}
    {pairStr : List UInt8} {env : AddPairEnv w} (hfind : findDeviceByIndex iface devIndex k = some d)
    (hrun : hweAddPair HZ iface devIndex pairStr env k = .ok (ret, k')) :
    (∃ mem q, env.kmalloc = some mem ∧
        strToPair HZ (cstr pairStr) { mem with addr := k.heap.next } = .ok (.ok q) ∧
        ret = (q.placed d).index ∧ Changed (.addPair d.addr (q.placed d)) k k') ∨
      (ret < 0 ∧ Changed .keep k k') := by
  obtain ⟨k₀, k₁, h₀, hifaces, hheap, hbody, hunlock⟩ := withLock_changed h hrun
  rw [← findDeviceByIndex_congr hifaces] at hfind
  rw [hfind] at hbody
  obtain ⟨⟨r, k₂⟩, hadd, hret⟩ := Except.bind_eq_ok_iff.mp hbody
  obtain ⟨hval, rfl⟩ := Prod.mk.inj (Except.ok.inj hret)
  rcases addPair_changed h₀ (findDeviceByIndex_some hfind).1 hadd with
    ⟨mem, q, hmem, hparse, rfl, hchanged⟩ | ⟨hne, hkeep⟩
  · rw [hheap] at hparse
    exact Or.inl ⟨mem, q, hmem, hparse, hval.symm, hunlock _ hchanged⟩
  · exact Or.inr ⟨hval ▸ ioctlRet_neg hne, hunlock _ hkeep⟩

/-- What an addition returns is a small number: it survives a conversion to `int`. -/
theorem hweAddPair_ge {HZ : Nat} {iface : HweIface} {devIndex : Int} {pairStr : List UInt8}
    {env : AddPairEnv w} (hrun : hweAddPair HZ iface devIndex pairStr env k = .ok (ret, k')) :
    -4095 ≤ ret := by
  obtain ⟨_, k₁, hbody, _⟩ := withLock_eq_ok.mp hrun
  obtain ⟨⟨r, k₂⟩, _, hret⟩ := Except.bind_eq_ok_iff.mp hbody
  obtain ⟨rfl, _⟩ := Prod.mk.inj (Except.ok.inj hret)
  exact ioctlRet_ge r

theorem addPair_missing {HZ : Nat} {env : AddPairEnv w} {str : List UInt8} {r : AddPairResult w}
    (hrun : addPair HZ env str none k = .ok (r, k')) :
    (∀ idx, r ≠ .added idx) ∧ Changed .keep k k' := by
  unfold addPair at hrun
  cases hmem : env.kmalloc with
  | none =>
      rw [hmem] at hrun
      obtain ⟨rfl, rfl⟩ := Prod.mk.inj (Except.ok.inj hrun)
      exact ⟨by simp, Changed.refl k⟩
  | some mem =>
      rw [hmem] at hrun
      dsimp only at hrun
      obtain ⟨parsed, _, hrun⟩ := Except.bind_eq_ok_iff.mp hrun
      cases parsed with
      | error err =>
          obtain ⟨rfl, rfl⟩ := Prod.mk.inj (Except.ok.inj hrun)
          exact ⟨by simp, (Changed.alloc k).keep_after (Changed.kfree _ _)⟩
      | ok q => simp at hrun

/-- Without a device an addition that returns at all returns an error and changes nothing. -/
theorem hweAddPair_missing (h : StoreInv k) {HZ : Nat} {iface : HweIface} {devIndex : Int}
    {pairStr : List UInt8} {env : AddPairEnv w} (hfind : findDeviceByIndex iface devIndex k = none)
    (hrun : hweAddPair HZ iface devIndex pairStr env k = .ok (ret, k')) :
    ret < 0 ∧ Changed .keep k k' := by
  obtain ⟨k₀, k₁, h₀, hifaces, _, hbody, hunlock⟩ := withLock_changed h hrun
  rw [← findDeviceByIndex_congr hifaces] at hfind
  rw [hfind] at hbody
  obtain ⟨⟨r, k₂⟩, hadd, hret⟩ := Except.bind_eq_ok_iff.mp hbody
  obtain ⟨hval, rfl⟩ := Prod.mk.inj (Except.ok.inj hret)
  obtain ⟨hne, hkeep⟩ := addPair_missing hadd
  exact ⟨hval ▸ ioctlRet_neg hne, hunlock _ hkeep⟩

/-- The part of the two delete operations after the pair has been looked up. -/
theorem pairDelete_of_ok (h : StoreInv k) (hd : d ∈ k.devs) {p : Pair w} (hp : p ∈ d.pairList)
    {a : Int} (hrun : (do
      let k ← pairDelete d.addr p k
      return (a, k) : Except Fault (Int × Kernel w)) = .ok (ret, k')) :
    ret = a ∧ Changed (.removePair d.addr p) k k' := by
  obtain ⟨k₁, hdelete, hchanged⟩ := pairDelete_changed h hd hp
  rw [hdelete] at hrun
  obtain ⟨hret, rfl⟩ := Prod.mk.inj (Except.ok.inj hrun)
  exact ⟨hret.symm, hchanged⟩

theorem devDeleteStore_cases (h : StoreInv k) (hd : d ∈ k.devs) {buf : List UInt8}
    (hrun : devDeleteStore d.addr buf k = .ok (ret, k')) :
    (∃ index p, kstrtouint buf = some index ∧ getPairAtIndex d.pairList index = some p ∧
        ret = buf.length ∧ devDeleteStoreRemoval d buf = .removePair d.addr p ∧
        Changed (.removePair d.addr p) k k') ∨
      (ret < 0 ∧ devDeleteStoreRemoval d buf = .keep ∧ Changed .keep k k') := by
  unfold devDeleteStoreRemoval
  unfold devDeleteStore at hrun
  rw [h.deref_eq hd, Except.ok_bind] at hrun
  obtain ⟨k₀, k₁, h₀, hifaces, _, hbody, hunlock⟩ := withLock_changed h hrun
  have hd₀ : d ∈ k₀.devs := by
    unfold Kernel.devs
    rw [hifaces]
    exact hd
  have hkept : ∀ {r : Int}, r < 0 → (.ok (r, k₀) : Except Fault (Int × Kernel w)) = .ok (ret, k₁) →
      ret < 0 ∧ Changed .keep k k' := by
    intro r hneg heq
    obtain ⟨rfl, rfl⟩ := Prod.mk.inj (Except.ok.inj heq)
    exact ⟨hneg, hunlock _ (Changed.refl k₀)⟩
  split at hbody
  · rename_i hbuf
    obtain ⟨hneg, hkeep⟩ := hkept (by decide) hbody
    exact Or.inr ⟨hneg, if_pos hbuf, hkeep⟩
  · rename_i hbuf
    rw [if_neg hbuf]
    cases hparse : kstrtouint buf with
    | none =>
        rw [hparse] at hbody
        obtain ⟨hneg, hkeep⟩ := hkept (by decide) hbody
        exact Or.inr ⟨hneg, rfl, hkeep⟩
    | some index =>
        rw [hparse] at hbody
        rw [Option.bind_some]
        dsimp only at hbody
        cases hget : getPairAtIndex d.pairList index with
        | none =>
            rw [hget] at hbody
            obtain ⟨hneg, hkeep⟩ := hkept (by decide) hbody
            exact Or.inr ⟨hneg, rfl, hkeep⟩
        | some p =>
            rw [hget] at hbody
            obtain ⟨hret, hchanged⟩ := pairDelete_of_ok h₀ hd₀ (getPairAtIndex_some hget).1 hbody
            exact Or.inl ⟨index, p, rfl, hget, hret, rfl, hunlock _ hchanged⟩

theorem hweDeletePair_cases (h : StoreInv k) {iface : HweIface} {devIndex pairIndex : Int}
    (hrun : hweDeletePair iface devIndex pairIndex k = .ok (ret, k')) :
    (∃ d p, findDeviceByIndex iface devIndex k = some d ∧
        getPairAtIndex d.pairList (toSizeT pairIndex) = some p ∧ ret = 0 ∧
        hweDeletePairRemoval iface devIndex pairIndex k = .removePair d.addr p ∧
        Changed (.removePair d.addr p) k k') ∨
      (ret < 0 ∧ hweDeletePairRemoval iface devIndex pairIndex k = .keep ∧ Changed .keep k k') := by
  obtain ⟨k₀, k₁, h₀, hifaces, _, hbody, hunlock⟩ := withLock_changed h hrun
  rw [hweDeletePairRemoval, ← findDeviceByIndex_congr hifaces]
  cases hfind : findDeviceByIndex iface devIndex k₀ with
  | none =>
      rw [hfind] at hbody
      obtain ⟨rfl, rfl⟩ := Prod.mk.inj (Except.ok.inj hbody)
      exact Or.inr ⟨by decide, rfl, hunlock _ (Changed.refl k₀)⟩
  | some d =>
      rw [hfind] at hbody
      dsimp only at hbody ⊢
      cases hget : getPairAtIndex d.pairList (toSizeT pairIndex) with
      | none =>
          rw [hget] at hbody
          obtain ⟨rfl, rfl⟩ := Prod.mk.inj (Except.ok.inj hbody)
          exact Or.inr ⟨by decide, rfl, hunlock _ (Changed.refl k₀)⟩
      | some p =>
          rw [hget] at hbody
          obtain ⟨hret, hchanged⟩ := pairDelete_of_ok h₀ (findDeviceByIndex_some hfind).1
            (getPairAtIndex_some hget).1 hbody
          exact Or.inl ⟨d, p, rfl, hget, hret, rfl, hunlock _ hchanged⟩

/-- The part of the two clear operations after the device has been looked up. -/
theorem clearPairs_of_ok (h : StoreInv k) (hd : d ∈ k.devs) {a : Int}
    (hrun : (do
      let k ← clearPairs d k
      return (a, k) : Except Fault (Int × Kernel w)) = .ok (ret, k')) :
    ret = a ∧ Changed (.clearPairs d.addr) k k' := by
  obtain ⟨k₁, hclear, hchanged⟩ := clearPairs_changed h hd
  rw [hclear] at hrun
  obtain ⟨hret, rfl⟩ := Prod.mk.inj (Except.ok.inj hrun)
  exact ⟨hret.symm, hchanged⟩

theorem devClearStore_cases (h : StoreInv k) (hd : d ∈ k.devs) {buf : List UInt8}
    (hrun : devClearStore d.addr buf k = .ok (ret, k')) :
    (ret = buf.length ∧ buf.length ≠ 0 ∧ Changed (.clearPairs d.addr) k k') ∨
      (ret < 0 ∧ buf.length = 0 ∧ Changed .keep k k') := by
  unfold devClearStore at hrun
  split at hrun
  · rename_i hbuf
    obtain ⟨rfl, rfl⟩ := Prod.mk.inj (Except.ok.inj hrun)
    exact Or.inr ⟨by decide, hbuf, Changed.refl k⟩
  · rename_i hbuf
    rw [h.deref_eq hd, Except.ok_bind] at hrun
    obtain ⟨k₀, k₁, h₀, hifaces, _, hbody, hunlock⟩ := withLock_changed h hrun
    have hd₀ : d ∈ k₀.devs := by
      unfold Kernel.devs
      rw [hifaces]
      exact hd
    obtain ⟨hret, hchanged⟩ := clearPairs_of_ok h₀ hd₀ hbody
    exact Or.inl ⟨hret, hbuf, hunlock _ hchanged⟩

theorem hweClearPairs_cases (h : StoreInv k) {iface : HweIface} {devIndex : Int}
    (hrun : hweClearPairs iface devIndex k = .ok (ret, k')) :
    (∃ d, findDeviceByIndex iface devIndex k = some d ∧ ret = 0 ∧
        Changed (.clearPairs d.addr) k k') ∨
      (ret < 0 ∧ findDeviceByIndex iface devIndex k = none ∧ Changed .keep k k') := by
  obtain ⟨k₀, k₁, h₀, hifaces, _, hbody, hunlock⟩ := withLock_changed h hrun
  rw [← findDeviceByIndex_congr hifaces]
  cases hfind : findDeviceByIndex iface devIndex k₀ with
  | none =>
      rw [hfind] at hbody
      obtain ⟨rfl, rfl⟩ := Prod.mk.inj (Except.ok.inj hbody)
      exact Or.inr ⟨by decide, rfl, hunlock _ (Changed.refl k₀)⟩
  | some d =>
      rw [hfind] at hbody
      obtain ⟨hret, hchanged⟩ := clearPairs_of_ok h₀ (findDeviceByIndex_some hfind).1 hbody
      exact Or.inl ⟨d, rfl, hret, hunlock _ hchanged⟩

/-! ### Reading, and the ioctl commands -/

theorem hweGetPairCount_changed (h : StoreInv k) {iface : HweIface} {devIndex : Int}
    (hrun : hweGetPairCount iface devIndex k = .ok (ret, k')) : Changed .keep k k' := by
  obtain ⟨k₀, k₁, _, _, _, hbody, hunlock⟩ := withLock_changed h hrun
  cases hfind : findDeviceByIndex iface devIndex k₀ with
  | none =>
      rw [hfind] at hbody
      obtain ⟨_, rfl⟩ := Prod.mk.inj (Except.ok.inj hbody)
      exact hunlock _ (Changed.refl k₀)
  | some d =>
      rw [hfind] at hbody
      obtain ⟨_, rfl⟩ := Prod.mk.inj (Except.ok.inj hbody)
      exact hunlock _ (Changed.refl k₀)

/-- The number of pairs reported for a device that exists. -/
theorem hweGetPairCount_eq (h : StoreInv k) {iface : HweIface} {devIndex : Int}
    (hsem : k.sems iface ≠ 0) (hfind : findDeviceByIndex iface devIndex k = some d) :
    ∃ k', hweGetPairCount iface devIndex k = .ok ((d.pairList.length : Int), k') := by
  have hweight : Bitmap.weight d.pairsIndexes = d.pairList.length := by
    rw [(h.ok d (findDeviceByIndex_some hfind).1).indexes.weight_eq, List.length_map]
  have hlocked : findDeviceByIndex iface devIndex (k.setSem iface (k.sems iface - 1)) = some d := hfind
  refine ⟨unlockIfaceDevs iface (k.setSem iface (k.sems iface - 1)), ?_⟩
  refine withLock_eq_ok.mpr ⟨hsem, k.setSem iface (k.sems iface - 1), ?_, rfl⟩
  rw [hlocked, ← hweight]
  rfl

theorem hweGetPair_changed (h : StoreInv k) {iface : HweIface} {devIndex pairIndex idx : Int}
    {r : Int × Option (List UInt8)}
    (hrun : hweGetPair iface devIndex pairIndex idx k = .ok (r, k')) : Changed .keep k k' := by
  obtain ⟨k₀, k₁, _, _, _, hbody, hunlock⟩ := withLock_changed h hrun
  cases hfind : findDeviceByIndex iface devIndex k₀ with
  | none =>
      rw [hfind] at hbody
      obtain ⟨_, rfl⟩ := Prod.mk.inj (Except.ok.inj hbody)
      exact hunlock _ (Changed.refl k₀)
  | some d =>
      rw [hfind] at hbody
      dsimp only at hbody
      split at hbody
      · obtain ⟨_, rfl⟩ := Prod.mk.inj (Except.ok.inj hbody)
        exact hunlock _ (Changed.refl k₀)
      · obtain ⟨_, rfl⟩ := Prod.mk.inj (Except.ok.inj hbody)
        exact hunlock _ (Changed.refl k₀)

theorem hweAddPair_changed (h : StoreInv k) {HZ : Nat} {iface : HweIface} {devIndex : Int}
    {pairStr : List UInt8} {env : AddPairEnv w}
    (hrun : hweAddPair HZ iface devIndex pairStr env k = .ok (ret, k')) :
    ∃ c, (c.Adds ∧ c.OnPairs) ∧ Changed c k k' := by
  cases hfind : findDeviceByIndex iface devIndex k with
  | none => exact ⟨.keep, ⟨trivial, trivial⟩, (hweAddPair_missing h hfind hrun).2⟩
  | some d =>
      rcases hweAddPair_cases h hfind hrun with ⟨_, _, _, _, _, hadd⟩ | ⟨_, hkeep⟩
      · exact ⟨.addPair _ _, ⟨trivial, trivial⟩, hadd⟩
      · exact ⟨.keep, ⟨trivial, trivial⟩, hkeep⟩

theorem hweDeletePair_changed (h : StoreInv k) {iface : HweIface} {devIndex pairIndex : Int}
    (hrun : hweDeletePair iface devIndex pairIndex k = .ok (ret, k')) :
    Changed (hweDeletePairRemoval iface devIndex pairIndex k) k k' := by
  rcases hweDeletePair_cases h hrun with ⟨_, _, _, _, _, hremoval, hremove⟩ | ⟨_, hremoval, hkeep⟩
  · rw [hremoval]
    exact hremove
  · rw [hremoval]
    exact hkeep

theorem hweClearPairs_changed (h : StoreInv k) {iface : HweIface} {devIndex : Int}
    (hrun : hweClearPairs iface devIndex k = .ok (ret, k')) :
    Changed (hweClearPairsRemoval iface devIndex k) k k' := by
  unfold hweClearPairsRemoval
  rcases hweClearPairs_cases h hrun with ⟨_, hfind, _, hclear⟩ | ⟨_, hfind, hkeep⟩
  · rw [hfind]
    exact hclear
  · rw [hfind]
    exact hkeep

theorem ioctlReadPair_changed (h : StoreInv k) {hp hp' : HweioctlPair} {env : IoctlEnv w}
    (hrun : ioctlReadPair hp env k = .ok ((ret, hp'), k')) : Changed .keep k k' := by
  have hsame : ∀ {r : Int × HweioctlPair},
      (.ok (r, k) : Except Fault ((Int × HweioctlPair) × Kernel w)) = .ok ((ret, hp'), k') →
      Changed .keep k k' := by
    intro r heq
    obtain ⟨_, rfl⟩ := Prod.mk.inj (Except.ok.inj heq)
    exact Changed.refl k
  unfold ioctlReadPair at hrun
  split at hrun
  · exact hsame hrun
  · split at hrun
    · exact hsame hrun
    · split at hrun
      · exact hsame hrun
      · split at hrun
        · exact hsame hrun
        · obtain ⟨⟨⟨r, text⟩, k₁⟩, hget, hrun⟩ := Except.bind_eq_ok_iff.mp hrun
          have hkeep := (Changed.alloc k).keep_after
            (hweGetPair_changed (h.congr rfl (Nat.le_succ _)) hget)
          have hfreed := hkeep.keep_after (Changed.kfree k.alloc.1 k₁)
          dsimp only at hrun
          split at hrun
          · obtain ⟨_, rfl⟩ := Prod.mk.inj (Except.ok.inj hrun)
            exact hfreed
          · obtain ⟨_, rfl⟩ := Prod.mk.inj (Except.ok.inj hrun)
            exact hfreed

theorem ioctlWritePair_changed (h : StoreInv k) {HZ : Nat} {hp hp' : HweioctlPair} {env : IoctlEnv w}
    (hrun : ioctlWritePair HZ hp env k = .ok ((ret, hp'), k')) :
    ∃ c, (c.Adds ∧ c.OnPairs) ∧ Changed c k k' := by
  have hsame : ∀ {r : Int × HweioctlPair},
      (.ok (r, k) : Except Fault ((Int × HweioctlPair) × Kernel w)) = .ok ((ret, hp'), k') →
      ∃ c, (c.Adds ∧ c.OnPairs) ∧ Changed c k k' := by
    intro r heq
    obtain ⟨_, rfl⟩ := Prod.mk.inj (Except.ok.inj heq)
    exact ⟨.keep, ⟨trivial, trivial⟩, Changed.refl k⟩
  unfold ioctlWritePair at hrun
  split at hrun
  · exact hsame hrun
  · split at hrun
    · exact hsame hrun
    · split at hrun
      · exact hsame hrun
      · dsimp only at hrun
        split at hrun
        · obtain ⟨_, rfl⟩ := Prod.mk.inj (Except.ok.inj hrun)
          exact ⟨.keep, ⟨trivial, trivial⟩, Changed.alloc k⟩
        · obtain ⟨⟨r, k₁⟩, hadd, hrun⟩ := Except.bind_eq_ok_iff.mp hrun
          have halloc : StoreInv k.alloc.2 := h.congr rfl (Nat.le_succ _)
          obtain ⟨c, hadds, hc⟩ := hweAddPair_changed halloc hadd
          have hfreed := ((Changed.alloc k).keep_before hc).keep_after (Changed.kfree k.alloc.1 k₁)
          dsimp only at hrun
          split at hrun
          · obtain ⟨_, rfl⟩ := Prod.mk.inj (Except.ok.inj hrun)
            exact ⟨c, hadds, hfreed⟩
          · split at hrun
            · obtain ⟨_, rfl⟩ := Prod.mk.inj (Except.ok.inj hrun)
              exact ⟨c, hadds, hfreed⟩
            · obtain ⟨_, rfl⟩ := Prod.mk.inj (Except.ok.inj hrun)
              exact ⟨c, hadds, hfreed⟩

theorem hwemuIoctl_changed (h : StoreInv k) {HZ cmd arg : Nat} {hp hp' : HweioctlPair}
    {env : IoctlEnv w} (hrun : hwemuIoctl HZ cmd arg hp env k = .ok ((ret, hp'), k')) :
    Removed (hwemuIoctlRemoval cmd arg hp env k) k k' := by
  unfold hwemuIoctl at hrun
  unfold hwemuIoctlRemoval
  generalize IoctlCmd.ofCode cmd = code at hrun
  cases code with
  | readPair => exact Or.inl (ioctlReadPair_changed h hrun)
  | writePair =>
      obtain ⟨c, ⟨hadds, _⟩, hc⟩ := ioctlWritePair_changed h hrun
      exact Or.inr ⟨rfl, c, hadds, hc⟩
  | addDevice =>
      refine Or.inr ⟨rfl, ?_⟩
      obtain ⟨⟨r, k₁⟩, hadd, hret⟩ := Except.bind_eq_ok_iff.mp hrun
      obtain ⟨_, rfl⟩ := Prod.mk.inj (Except.ok.inj hret)
      unfold ioctlAddDevice at hadd
      split at hadd
      · obtain ⟨_, rfl⟩ := Prod.mk.inj (Except.ok.inj hadd)
        exact ⟨.keep, trivial, Changed.refl k⟩
      · obtain ⟨⟨idx, k₂⟩, hdevice, hidx⟩ := Except.bind_eq_ok_iff.mp hadd
        obtain ⟨_, rfl⟩ := Prod.mk.inj (Except.ok.inj hidx)
        exact hweAddDevice_changed h hdevice
  | uninstallDevice =>
      refine Or.inl ?_
      obtain ⟨⟨r, k₁⟩, hdelete, hret⟩ := Except.bind_eq_ok_iff.mp hrun
      obtain ⟨_, rfl⟩ := Prod.mk.inj (Except.ok.inj hret)
      unfold ioctlDeleteDevice at hdelete
      dsimp only
      cases hparse : parseDevid arg with
      | none =>
          rw [hparse] at hdelete
          obtain ⟨_, rfl⟩ := Prod.mk.inj (Except.ok.inj hdelete)
          exact Changed.refl k
      | some devid =>
          rw [hparse] at hdelete
          exact hweDeleteDevice_changed h hdelete
  | pairCount =>
      refine Or.inl ?_
      obtain ⟨⟨r, k₁⟩, hcount, hret⟩ := Except.bind_eq_ok_iff.mp hrun
      obtain ⟨_, rfl⟩ := Prod.mk.inj (Except.ok.inj hret)
      unfold ioctlPairCount at hcount
      split at hcount
      · obtain ⟨_, rfl⟩ := Prod.mk.inj (Except.ok.inj hcount)
        exact Changed.refl k
      · exact hweGetPairCount_changed h hcount
  | deletePair =>
      refine Or.inl ?_
      obtain ⟨⟨r, k₁⟩, hdelete, hret⟩ := Except.bind_eq_ok_iff.mp hrun
      obtain ⟨_, rfl⟩ := Prod.mk.inj (Except.ok.inj hret)
      unfold ioctlDeletePair at hdelete
      dsimp only
      split at hdelete
      · rename_i hid
        obtain ⟨_, rfl⟩ := Prod.mk.inj (Except.ok.inj hdelete)
        rw [if_pos hid]
        exact Changed.refl k
      · rename_i hid
        rw [if_neg hid]
        cases hparse : parseDevid (toSizeT hp.deviceId.toInt) with
        | none =>
            rw [hparse] at hdelete
            obtain ⟨_, rfl⟩ := Prod.mk.inj (Except.ok.inj hdelete)
            exact Changed.refl k
        | some devid =>
            rw [hparse] at hdelete
            dsimp only at hdelete ⊢
            split at hdelete
            · rename_i hindex
              obtain ⟨_, rfl⟩ := Prod.mk.inj (Except.ok.inj hdelete)
              rw [if_pos hindex]
              exact Changed.refl k
            · rename_i hindex
              rw [if_neg hindex]
              exact hweDeletePair_changed h hdelete
  | clearPairs =>
      refine Or.inl ?_
      obtain ⟨⟨r, k₁⟩, hclear, hret⟩ := Except.bind_eq_ok_iff.mp hrun
      obtain ⟨_, rfl⟩ := Prod.mk.inj (Except.ok.inj hret)
      unfold ioctlClearPairs at hclear
      dsimp only
      cases hparse : parseDevid arg with
      | none =>
          rw [hparse] at hclear
          obtain ⟨_, rfl⟩ := Prod.mk.inj (Except.ok.inj hclear)
          exact Changed.refl k
      | some devid =>
          rw [hparse] at hclear
          exact hweClearPairs_changed h hclear
  | other =>
      obtain ⟨_, rfl⟩ := Prod.mk.inj (Except.ok.inj hrun)
      exact Or.inl (Changed.refl k)

/-! ### Runs of operations -/

/-- An operation on the store, with its arguments and what the kernel services return to it. -/
inductive Op (w : Nat) where
  | ifaceAddStore (iface : HweIface) (buf : List UInt8) (env : NewDevEnv)
  | hweAddDevice (iface : HweIface) (env : NewDevEnv)
  | ifaceUninstallStore (iface : HweIface) (buf : List UInt8)
  | hweDeleteDevice (iface : HweIface) (devIndex : Int)
  | devAddStore (dev : Nat) (buf : List UInt8) (env : AddPairEnv w)
  | hweAddPair (iface : HweIface) (devIndex : Int) (pairStr : List UInt8) (env : AddPairEnv w)
  | devDeleteStore (dev : Nat) (buf : List UInt8)
  | hweDeletePair (iface : HweIface) (devIndex pairIndex : Int)
  | devClearStore (dev : Nat) (buf : List UInt8)
  | hweClearPairs (iface : HweIface) (devIndex : Int)
  | hwemuIoctl (cmd arg : Nat) (hp : HweioctlPair) (env : IoctlEnv w)

def exec (HZ : Nat) : Op w → Kernel w → Except Fault (Int × Kernel w)
  | .ifaceAddStore iface buf env, k => ifaceAddStore iface buf env k
  | .hweAddDevice iface env, k => hweAddDevice iface env k
  | .ifaceUninstallStore iface buf, k => ifaceUninstallStore iface buf k
  | .hweDeleteDevice iface devIndex, k => hweDeleteDevice iface devIndex k
  | .devAddStore dev buf env, k => devAddStore HZ dev buf env k
  | .hweAddPair iface devIndex pairStr env, k => hweAddPair HZ iface devIndex pairStr env k
  | .devDeleteStore dev buf, k => devDeleteStore dev buf k
  | .hweDeletePair iface devIndex pairIndex, k => hweDeletePair iface devIndex pairIndex k
  | .devClearStore dev buf, k => devClearStore dev buf k
  | .hweClearPairs iface devIndex, k => hweClearPairs iface devIndex k
  | .hwemuIoctl cmd arg hp env, k => do
      let ((ret, _), k) ← hwemuIoctl HZ cmd arg hp env k
      return (ret, k)

def OpStep (HZ : Nat) (k : Kernel w) (op : Op w) (k' : Kernel w) : Prop :=
  ∃ ret, exec HZ op k = .ok (ret, k')

/-- Reached from module load by a sequence of operations. -/
def Reachable (HZ : Nat) (k : Kernel w) : Prop := ∃ ops, Run (OpStep HZ) (Kernel.loaded w) ops k

theorem deref_eq_ok {dev : Nat} (h : k.deref dev = .ok d) : d ∈ k.devs ∧ d.addr = dev := by
  unfold Kernel.deref at h
  split at h
  · simp at h
  · rename_i d' hfind
    obtain rfl : d' = d := Except.ok.inj h
    exact ⟨List.mem_of_find?_eq_some hfind, by simpa using List.find?_some hfind⟩

/-- What an operation removes, as it can be told from its arguments and the store it starts in. -/
def Op.removal (k : Kernel w) : Op w → Change w
  | ifaceAddStore _ _ _ => .keep
  | hweAddDevice _ _ => .keep
  | ifaceUninstallStore iface buf => ifaceUninstallStoreRemoval iface buf k
  | hweDeleteDevice iface devIndex => hweDeleteDeviceRemoval iface devIndex k
  | devAddStore _ _ _ => .keep
  | hweAddPair _ _ _ _ => .keep
  | devDeleteStore dev buf =>
      match k.deref dev with
      | .error _ => .keep
      | .ok d => devDeleteStoreRemoval d buf
  | hweDeletePair iface devIndex pairIndex => hweDeletePairRemoval iface devIndex pairIndex k
  | devClearStore dev buf => devClearStoreRemoval dev buf
  | hweClearPairs iface devIndex => hweClearPairsRemoval iface devIndex k
  | hwemuIoctl cmd arg hp env => hwemuIoctlRemoval cmd arg hp env k

/-- **Every operation makes one allowed change**, or none, and removes what its arguments say. -/
theorem exec_removed (h : StoreInv k) {HZ : Nat} {op : Op w} (hrun : exec HZ op k = .ok (ret, k')) :
    Removed (op.removal k) k k' := by
  cases op with
  | ifaceAddStore iface buf env => exact Or.inr ⟨rfl, ifaceAddStore_changed h hrun⟩
  | hweAddDevice iface env => exact Or.inr ⟨rfl, hweAddDevice_changed h hrun⟩
  | ifaceUninstallStore iface buf => exact Or.inl (ifaceUninstallStore_changed h hrun)
  | hweDeleteDevice iface devIndex => exact Or.inl (hweDeleteDevice_changed h hrun)
  | devAddStore dev buf env =>
      obtain ⟨d, hderef, _⟩ := Except.bind_eq_ok_iff.mp hrun
      obtain ⟨hd, rfl⟩ := deref_eq_ok hderef
      rcases devAddStore_cases h hd hrun with ⟨_, _, _, _, _, hadd⟩ | ⟨_, hkeep⟩
      · exact Or.inr ⟨rfl, .addPair _ _, trivial, hadd⟩
      · exact Or.inr ⟨rfl, .keep, trivial, hkeep⟩
  | hweAddPair iface devIndex pairStr env =>
      obtain ⟨c, ⟨hadds, _⟩, hc⟩ := hweAddPair_changed h hrun
      exact Or.inr ⟨rfl, c, hadds, hc⟩
  | devDeleteStore dev buf =>
      obtain ⟨d, hderef, _⟩ := Except.bind_eq_ok_iff.mp hrun
      obtain ⟨hd, rfl⟩ := deref_eq_ok hderef
      rw [Op.removal, hderef]
      dsimp only
      rcases devDeleteStore_cases h hd hrun with ⟨_, _, _, _, _, hremoval, hremove⟩ | ⟨_, hremoval, hkeep⟩
      · rw [hremoval]
        exact Or.inl hremove
      · rw [hremoval]
        exact Or.inl hkeep
  | hweDeletePair iface devIndex pairIndex => exact Or.inl (hweDeletePair_changed h hrun)
  | devClearStore dev buf =>
      rw [Op.removal, devClearStoreRemoval]
      by_cases hbuf : buf.length = 0
      · have hempty : devClearStore dev buf k = .ok (-eio, k) := by
          unfold devClearStore
          rw [if_pos hbuf]
          rfl
        obtain ⟨_, rfl⟩ := Prod.mk.inj (Except.ok.inj (hempty.symm.trans hrun))
        rw [if_pos hbuf]
        exact Or.inl (Changed.refl k)
      · have hrest := hrun
        rw [exec, devClearStore, if_neg hbuf] at hrest
        obtain ⟨d, hderef, _⟩ := Except.bind_eq_ok_iff.mp hrest
        obtain ⟨hd, rfl⟩ := deref_eq_ok hderef
        rw [if_neg hbuf]
        rcases devClearStore_cases h hd hrun with ⟨_, _, hclear⟩ | ⟨_, hempty, _⟩
        · exact Or.inl hclear
        · exact absurd hempty hbuf
  | hweClearPairs iface devIndex => exact Or.inl (hweClearPairs_changed h hrun)
  | hwemuIoctl cmd arg hp env =>
      obtain ⟨⟨⟨r, hp'⟩, k₁⟩, hioctl, hret⟩ := Except.bind_eq_ok_iff.mp hrun
      obtain ⟨rfl, rfl⟩ := Prod.mk.inj (Except.ok.inj hret)
      exact hwemuIoctl_changed h hioctl

theorem exec_changed (h : StoreInv k) {HZ : Nat} {op : Op w} (hrun : exec HZ op k = .ok (ret, k')) :
    ∃ c, Changed c k k' := (exec_removed h hrun).changed

theorem Reachable.inv {HZ : Nat} (h : Reachable HZ k) : StoreInv k ∧ ∀ iface, k.sems iface = 1 := by
  obtain ⟨ops, hrun⟩ := h
  refine hrun.invariant (I := fun k => StoreInv k ∧ ∀ iface, k.sems iface = 1) ?_
    ⟨StoreInv.loaded, fun _ => rfl⟩
  rintro k op k' ⟨hinv, hsems⟩ ⟨ret, hexec⟩
  obtain ⟨c, hc⟩ := exec_changed hinv hexec
  refine ⟨hinv.changed hc, ?_⟩
  intro iface
  rw [hc.sems]
  exact hsems iface

/-- A sequence of operations, with the results thrown away. -/
def execAll (HZ : Nat) : List (Op w) → Kernel w → Except Fault (Kernel w)
  | [], k => .ok k
  | op :: ops, k => do
      let (_, k) ← exec HZ op k
      execAll HZ ops k

theorem run_of_execAll {HZ : Nat} {ops : List (Op w)} (h : execAll HZ ops k = .ok k') :
    Run (OpStep HZ) k ops k' := by
  induction ops generalizing k with
  | nil =>
      obtain rfl : k = k' := Except.ok.inj h
      exact .nil k
  | cons op ops ih =>
      obtain ⟨⟨ret, k₁⟩, hexec, hrest⟩ := Except.bind_eq_ok_iff.mp h
      exact .cons ⟨ret, hexec⟩ (ih hrest)

theorem Reachable.of_execAll {HZ : Nat} {ops : List (Op w)}
    (h : execAll HZ ops (Kernel.loaded w) = .ok k) : Reachable HZ k :=
  ⟨ops, run_of_execAll h⟩

/-- **The store is well formed in every reachable state.** The bitmaps and the lists agree at both
levels, so that the reported count is the number of pairs and only a full list is refused for lack
of room, and every pair is owned by its device, within its ranges and without a duplicate. -/
theorem reachable_wellFormed {HZ : Nat} (h : Reachable HZ k) (iface : HweIface) :
    ((k.ifaces iface).devList.map (·.index)).Nodup ∧
    (∀ i, (k.ifaces iface).devIndexes.getLsbD i = true ↔ i ∈ (k.ifaces iface).devList.map (·.index)) ∧
    (∀ d ∈ (k.ifaces iface).devList, d.index < hweMaxDevices) ∧
    ∀ d ∈ (k.ifaces iface).devList,
      (d.pairList.map (·.index)).Nodup ∧
      (∀ i, d.pairsIndexes.getLsbD i = true ↔ i ∈ d.pairList.map (·.index)) ∧
      (∀ p ∈ d.pairList, p.index < hweMaxPairs) ∧
      (∃ k', hweGetPairCount iface d.index k = .ok ((d.pairList.length : Int), k')) ∧
      (∀ env str k', addPair HZ env str (some d) k = .ok (.tooMany, k') →
        d.pairList.length = hweMaxPairs) ∧
      (∀ p ∈ d.pairList, p.dev = d.addr ∧
        (1 ≤ p.resp.length ∧ p.resp.length ≤ hweMaxResponse) ∧
        (p.asyncRx = false → 1 ≤ p.req.length ∧ p.req.length ≤ hweMaxRequest) ∧
        (p.asyncRx = true → 1 ≤ p.periodMs ∧ p.periodMs ≤ 2 ^ 32 - 1)) ∧
      d.pairList.Pairwise fun p q => p.asyncRx = false → q.asyncRx = false → p.req ≠ q.req := by
  obtain ⟨hinv, hsems⟩ := h.inv
  have htracks := hinv.indexes iface
  refine ⟨htracks.nodup, htracks.mem, fun d hd => htracks.lt (List.mem_map_of_mem hd), ?_⟩
  intro d hd
  have hdev := Kernel.mem_devs_of_mem hd
  have hok := hinv.ok d hdev
  refine ⟨hok.indexes.nodup, hok.indexes.mem, fun p hp => hok.index_lt hp, ?_, ?_, ?_, hok.distinct⟩
  · have hfind := hinv.findDeviceByIndex_eq hdev
    rw [hinv.iface iface d hd] at hfind
    exact hweGetPairCount_eq hinv (by rw [hsems iface]; decide) hfind
  · intro env str k' hrun
    have hfull := addPair_tooMany hrun
    have hlength := hok.indexes.findFirstZeroBit_eq_iff.mp hfull
    rwa [List.length_map] at hlength
  · intro p hp
    have hvalid := hok.valid p hp
    exact ⟨hok.owner p hp, ⟨hvalid.resp_pos, hvalid.resp_le⟩, hvalid.sync,
      fun htimer => (hvalid.timer htimer).2⟩

/-- Kernel services that all succeed, on memory that happens to be zero. -/
def NewDevEnv.succeeds : NewDevEnv :=
  { kzalloc := true
    create := true
    kobjectInitAndAdd := none
    kobjectCreateAndAdd := true }

def AddPairEnv.succeeds (w : Nat) : AddPairEnv w :=
  { kmalloc := some (Pair.zeroed w)
    sysfsCreateFile := none }

/-- A device with a synchronous pair and a timer, one added through each interface. -/
def sampleOps : List (Op 64) :=
  [.hweAddDevice .i2c .succeeds, .devAddStore 1 (bytes "0102=aabb\n") (.succeeds 64),
    .hweAddPair .i2c 0 (bytes "timer:1m=cc") (.succeeds 64)]

theorem sampleOps_run : ∃ k, execAll 250 sampleOps (Kernel.loaded 64) = .ok k ∧
    (k.ifaces .i2c).devList.map (fun d => d.pairList.map (·.index)) = [[0, 1]] := by
  have hlists : (execAll 250 sampleOps (Kernel.loaded 64)).toOption.map
      (fun k => (k.ifaces .i2c).devList.map fun d => d.pairList.map (·.index)) = some [[0, 1]] := by
    decide +kernel
  cases hrun : execAll 250 sampleOps (Kernel.loaded 64) with
  | error fault => simp [hrun, Except.toOption] at hlists
  | ok k => exact ⟨k, rfl, by simpa [hrun, Except.toOption] using hlists⟩

theorem reachable_wellFormed_applies : ∃ k : Kernel 64,
    (k.ifaces .i2c).devList.map (fun d => d.pairList.map (·.index)) = [[0, 1]] ∧
      ((k.ifaces .i2c).devList.map (·.index)).Nodup := by
  obtain ⟨k, hrun, hlists⟩ := sampleOps_run
  exact ⟨k, hlists, (reachable_wellFormed (Reachable.of_execAll hrun) .i2c).1⟩

end Hwemu
