import Hwemu.Lib.Keyed
import Hwemu.Lib.Ledger
import Hwemu.TimerRuns
import Mathlib.Algebra.Order.Group.Multiset
import Mathlib.Tactic.Abel

/-!
# Memory

What the store uses, what was given back, and that nothing is lost in between. Every function of the
store gives back what it takes out of the lists and uses or gives back what it allocates; so does
every operation, but for one path of the command that writes a pair.
-/

namespace Hwemu

variable {w : Nat} {HZ : Nat} {k k' k'' : Kernel w} {d : Dev w} {p : Pair w}

/-- The memory of a device: its record, its private device and the records of its pairs. -/
def Dev.blocks (d : Dev w) : Multiset ℕ :=
  d.addr ::ₘ ↑(d.device.toList ++ d.pairList.map (·.addr))

def Iface.blocks (ifc : Iface w) : Multiset ℕ := (ifc.devList.map Dev.blocks).sum

def Kernel.ledger (k : Kernel w) : Ledger where
  next := k.heap.next
  owned := (HweIface.all.map fun iface => (k.ifaces iface).blocks).sum
  freed := k.heap.freed

theorem Kernel.owned_congr (h : k'.ifaces = k.ifaces) : k'.ledger.owned = k.ledger.owned := by
  simp only [Kernel.ledger, h]

theorem Kernel.owned_setIface (iface : HweIface) (ifc : Iface w) (k : Kernel w) :
    (k.setIface iface ifc).ledger.owned + (k.ifaces iface).blocks = k.ledger.owned + ifc.blocks := by
  cases iface <;>
    simp only [Kernel.ledger, Kernel.setIface, HweIface.all, List.map_cons, List.map_nil,
      List.sum_cons, List.sum_nil, Function.update_self, ne_eq, reduceCtorEq, not_false_eq_true,
      Function.update_of_ne] <;> abel

theorem blocks_modifyDev {devs : List (Dev w)} (hnodup : (devs.map (·.addr)).Nodup) (hd : d ∈ devs)
    (f : Dev w → Dev w) :
    ((devs.map fun d' => if d'.addr = d.addr then f d' else d').map Dev.blocks).sum + d.blocks =
      (devs.map Dev.blocks).sum + (f d).blocks := by
  obtain ⟨pre, post, rfl, hpre, hpost⟩ := Keyed.split hnodup hd
  rw [Keyed.map_split hpre hpost]
  simp only [List.map_append, List.map_cons, List.sum_append, List.sum_cons]
  abel

/-- A write to a device leaves the other interfaces alone. -/
theorem StoreInv.modifyDev_frame (h : StoreInv k) (hd : d ∈ k.devs) (f : Dev w → Dev w)
    {iface : HweIface} (hne : iface ≠ d.iface) :
    (k.modifyDev d.addr f).ifaces iface = k.ifaces iface := by
  simp only [Kernel.modifyDev]
  congr 1
  refine (List.map_congr_left ?_).trans (List.map_id _)
  intro d' hd'
  rw [if_neg]
  · rfl
  · intro haddr
    rw [h.devAddr d' (Kernel.mem_devs_of_mem hd') d hd haddr] at hd'
    exact hne (h.iface iface d hd').symm

theorem StoreInv.owned_modifyDev (h : StoreInv k) (hd : d ∈ k.devs) (f : Dev w → Dev w) :
    (k.modifyDev d.addr f).ledger.owned + d.blocks = k.ledger.owned + (f d).blocks := by
  have hset : (k.modifyDev d.addr f).ifaces = (k.setIface d.iface { k.ifaces d.iface with
      devList := (k.ifaces d.iface).devList.map fun d' =>
        if d'.addr = d.addr then f d' else d' }).ifaces := by
    funext iface
    by_cases heq : iface = d.iface
    · subst heq
      simp only [Kernel.modifyDev, Kernel.setIface, Function.update_self]
    · rw [h.modifyDev_frame hd f heq]
      exact (Function.update_of_ne heq ..).symm
  have hblocks := blocks_modifyDev (h.addrsNodup d.iface) (h.mem_devs.mp hd) f
  have hiface := Kernel.owned_setIface d.iface { k.ifaces d.iface with
      devList := (k.ifaces d.iface).devList.map fun d' => if d'.addr = d.addr then f d' else d' } k
  rw [Kernel.owned_congr hset]
  apply add_right_cancel (b := (k.ifaces d.iface).blocks)
  calc _ = k.ledger.owned + (((k.ifaces d.iface).devList.map fun d' =>
            if d'.addr = d.addr then f d' else d').map Dev.blocks).sum + d.blocks := by
        rw [add_right_comm, hiface]
        rfl
    _ = k.ledger.owned + ((k.ifaces d.iface).blocks + (f d).blocks) := by
        rw [add_assoc, hblocks]
        rfl
    _ = _ := by abel

/-! ### What a change gives and takes -/

theorem Changed.owned_addDev (hc : Changed (.addDev d) k k') :
    k'.ledger.owned = d.blocks + k.ledger.owned := by
  have hset := Kernel.owned_setIface d.iface
    { devList := d :: (k.ifaces d.iface).devList
      devIndexes := Bitmap.setBit d.index (k.ifaces d.iface).devIndexes } k
  rw [Kernel.owned_congr hc.ifaces]
  apply add_right_cancel (b := (k.ifaces d.iface).blocks)
  refine hset.trans ?_
  rw [Iface.blocks, List.map_cons, List.sum_cons, add_assoc, add_left_comm]
  rfl

theorem Kernel.owned_unlinkDev (hnodup : ((k.ifaces d.iface).devList.map (·.addr)).Nodup)
    (hd : d ∈ (k.ifaces d.iface).devList) : d.blocks + (unlinkDev d k).ledger.owned = k.ledger.owned := by
  have hset := Kernel.owned_setIface d.iface
    { k.ifaces d.iface with devList := (k.ifaces d.iface).devList.filter fun d' => d'.addr ≠ d.addr } k
  have hperm := Keyed.perm_cons_filter_ne hnodup hd
  have hblocks : d.blocks + (((k.ifaces d.iface).devList.filter fun d' =>
      d'.addr ≠ d.addr).map Dev.blocks).sum = (k.ifaces d.iface).blocks := by
    have hsum := (hperm.map Dev.blocks).sum_eq
    rwa [List.map_cons, List.sum_cons] at hsum
  apply add_right_cancel (b := (k.ifaces d.iface).blocks)
  calc _ = d.blocks + ((unlinkDev d k).ledger.owned + (k.ifaces d.iface).blocks) := add_assoc ..
    _ = d.blocks + (k.ledger.owned + (((k.ifaces d.iface).devList.filter fun d' =>
          d'.addr ≠ d.addr).map Dev.blocks).sum) := congrArg _ hset
    _ = _ := by rw [add_left_comm, hblocks]

theorem StoreInv.owned_removeDev (h : StoreInv k) (hc : Changed (.removeDev d) k k') :
    d.blocks + k'.ledger.owned = k.ledger.owned := by
  have hd : d ∈ (k.ifaces d.iface).devList := h.mem_devs.mp hc.allowed
  have hlists : ∀ iface, (k'.ifaces iface).blocks = ((unlinkDev d k).ifaces iface).blocks := by
    intro iface
    rw [hc.ifaces]
    by_cases hiface : iface = d.iface
    · subst hiface
      simp only [Change.apply, unlinkDev, Kernel.setIface, Function.update_self]
      rfl
    · simp only [Change.apply, unlinkDev, Kernel.setIface, Function.update_of_ne hiface]
  rw [← Kernel.owned_unlinkDev (h.addrsNodup d.iface) hd]
  simp only [Kernel.ledger, hlists]

theorem StoreInv.owned_addPair (h : StoreInv k) (hd : d ∈ k.devs)
    (hc : Changed (.addPair d.addr p) k k') : k'.ledger.owned = p.addr ::ₘ k.ledger.owned := by
  have hmodify := h.owned_modifyDev hd fun d => d.addPair p
  have hblocks : (d.addPair p).blocks = p.addr ::ₘ d.blocks := by
    simp only [Dev.blocks, Dev.addPair, List.map_append, List.map_cons, List.map_nil,
      ← List.append_assoc]
    rw [Multiset.cons_swap]
    congr 1
    exact Multiset.coe_eq_coe.mpr (List.perm_append_singleton _ _)
  rw [Kernel.owned_congr hc.ifaces]
  apply add_right_cancel (b := d.blocks)
  refine hmodify.trans ?_
  rw [hblocks, Multiset.add_cons, Multiset.cons_add]

theorem StoreInv.owned_clearPairs (h : StoreInv k) (hd : d ∈ k.devs)
    (hc : Changed (.clearPairs d.addr) k k') :
    ↑(d.pairList.map (·.addr)) + k'.ledger.owned = k.ledger.owned := by
  have hmodify := h.owned_modifyDev hd Dev.noPairs
  have hblocks : ↑(d.pairList.map (·.addr)) + d.noPairs.blocks = d.blocks := by
    simp only [Dev.blocks, Dev.noPairs, List.map_nil, List.append_nil, ← Multiset.coe_add]
    rw [Multiset.add_cons, add_comm]
  rw [Kernel.owned_congr hc.ifaces]
  apply add_right_cancel (b := d.blocks)
  calc _ = ↑(d.pairList.map (·.addr)) + ((k.modifyDev d.addr Dev.noPairs).ledger.owned + d.blocks) :=
        add_assoc ..
    _ = _ := by rw [hmodify, add_left_comm, hblocks]

theorem StoreInv.owned_removePair (h : StoreInv k) (hd : d ∈ k.devs) (hp : p ∈ d.pairList)
    (hc : Changed (.removePair d.addr p) k k') : p.addr ::ₘ k'.ledger.owned = k.ledger.owned := by
  have hmodify := h.owned_modifyDev hd fun d => d.removePair p
  have hperm := Keyed.perm_cons_filter_ne (h.ok d hd).addrs hp
  have hblocks : p.addr ::ₘ (d.removePair p).blocks = d.blocks := by
    have haddrs := hperm.map (·.addr)
    rw [List.map_cons] at haddrs
    simp only [Dev.blocks, Dev.removePair]
    rw [Multiset.cons_swap]
    congr 1
    apply Multiset.coe_eq_coe.mpr
    exact List.perm_middle.symm.trans (haddrs.append_left _)
  rw [Kernel.owned_congr hc.ifaces]
  apply add_right_cancel (b := d.blocks)
  calc _ = p.addr ::ₘ ((k.modifyDev d.addr fun d => d.removePair p).ledger.owned + d.blocks) :=
        Multiset.cons_add ..
    _ = _ := by rw [hmodify, ← Multiset.add_cons, hblocks]

/-! ### What a function gives back -/

theorem pairDelete_heap {dev : Nat} (hrun : pairDelete dev p k = .ok k') :
    k'.heap = { k.heap with freed := p.addr :: k.heap.freed } := by
  obtain ⟨owner, _, hret⟩ := Except.bind_eq_ok_iff.mp hrun
  obtain rfl := Except.ok.inj hret
  rfl

theorem foldlM_pairDelete_heap {dev : Nat} {ps : List (Pair w)}
    (hrun : ps.foldlM (fun k p => pairDelete dev p k) k = .ok k') :
    k'.heap.next = k.heap.next ∧
      (k'.heap.freed : Multiset ℕ) = ↑(ps.map (·.addr)) + ↑k.heap.freed := by
  induction ps generalizing k with
  | nil =>
      obtain rfl : k = k' := Except.ok.inj hrun
      exact ⟨rfl, (zero_add _).symm⟩
  | cons p ps ih =>
      rw [List.foldlM_cons] at hrun
      obtain ⟨k₁, hdelete, hrest⟩ := Except.bind_eq_ok_iff.mp hrun
      obtain ⟨hnext, hfreed⟩ := ih hrest
      rw [pairDelete_heap hdelete] at hnext hfreed
      refine ⟨hnext, hfreed.trans ?_⟩
      rw [List.map_cons, ← Multiset.cons_coe, ← Multiset.cons_coe, Multiset.add_cons,
        Multiset.cons_add]

theorem clearPairs_heap (hrun : clearPairs d k = .ok k') :
    k'.heap.next = k.heap.next ∧
      (k'.heap.freed : Multiset ℕ) = ↑(d.pairList.map (·.addr)) + ↑k.heap.freed :=
  foldlM_pairDelete_heap hrun

theorem shutdownDev_heap (hrun : shutdownDev d k = .ok k') :
    k'.heap.next = k.heap.next ∧ (k'.heap.freed : Multiset ℕ) = d.blocks + ↑k.heap.freed := by
  obtain ⟨k₁, hclear, hret⟩ := Except.bind_eq_ok_iff.mp hrun
  obtain rfl := Except.ok.inj hret
  obtain ⟨hnext, hfreed⟩ := clearPairs_heap hclear
  have hdestroy : (destroyIfCreated d k).heap.next = k.heap.next ∧
      ((destroyIfCreated d k).heap.freed : Multiset ℕ) = ↑d.device.toList + ↑k.heap.freed := by
    unfold destroyIfCreated
    cases d.device with
    | none => exact ⟨rfl, (zero_add _).symm⟩
    | some priv => exact ⟨rfl, rfl⟩
  rw [hdestroy.1] at hnext
  rw [hdestroy.2] at hfreed
  refine ⟨hnext, ?_⟩
  change d.addr ::ₘ (k₁.heap.freed : Multiset ℕ) = _
  rw [hfreed, Dev.blocks, Multiset.cons_add, ← Multiset.coe_add, add_left_comm, add_assoc]

/-- What is handed out while a device is added belongs to the device, or is given back. -/
theorem newDev_heap {env : NewDevEnv} {iface : HweIface} {r : Option (Dev w)}
    (hrun : newDev env iface k = .ok (r, k')) :
    k.heap.next ≤ k'.heap.next ∧ r.elim 0 Dev.blocks ≤ Multiset.Ico k.heap.next k'.heap.next ∧
      (k'.heap.freed : Multiset ℕ) + (r.elim 0 Dev.blocks) =
        ↑k.heap.freed + Multiset.Ico k.heap.next k'.heap.next := by
  have hkept : ∀ {k₁ : Kernel w}, k₁.heap = k.heap → k.heap.next ≤ k₁.heap.next ∧
      0 ≤ Multiset.Ico k.heap.next k₁.heap.next ∧
      (k₁.heap.freed : Multiset ℕ) + 0 = ↑k.heap.freed + Multiset.Ico k.heap.next k₁.heap.next := by
    intro k₁ hheap
    rw [hheap, Multiset.Ico_self]
    exact ⟨le_rfl, le_rfl, rfl⟩
  -- the record and the private device of a new device are the next two blocks
  have hblocks : ∀ {e : Dev w}, e.addr = k.heap.next → e.device = some (k.heap.next + 1) →
      e.pairList = [] → e.blocks = Multiset.Ico k.heap.next (k.heap.next + 2) := by
    intro e haddr hdevice hpairs
    rw [Ledger.Ico_succ_succ, Dev.blocks, haddr, hdevice, hpairs]
    rfl
  have hshut : ∀ {e : Dev w} {k₁ k₂ : Kernel w}, k₁.heap = ⟨k.heap.next + 2, k.heap.freed⟩ →
      e.blocks = Multiset.Ico k.heap.next (k.heap.next + 2) → shutdownDev e k₁ = .ok k₂ →
      k.heap.next ≤ k₂.heap.next ∧ 0 ≤ Multiset.Ico k.heap.next k₂.heap.next ∧
        (k₂.heap.freed : Multiset ℕ) + 0 = ↑k.heap.freed + Multiset.Ico k.heap.next k₂.heap.next := by
    intro e k₁ k₂ hheap he hrun
    obtain ⟨hnext, hfreed⟩ := shutdownDev_heap hrun
    rw [hnext, hfreed, hheap, he]
    exact ⟨Nat.le_add_right _ 2, Multiset.zero_le _, by rw [add_zero, add_comm]⟩
  unfold newDev at hrun
  cases hfree : findFreeDevIndex iface k with
  | none =>
      rw [hfree] at hrun
      obtain ⟨rfl, rfl⟩ := Prod.mk.inj (Except.ok.inj hrun)
      exact hkept rfl
  | some idx =>
      rw [hfree] at hrun
      dsimp only at hrun
      cases hkzalloc : env.kzalloc with
      | false =>
          rw [hkzalloc] at hrun
          obtain ⟨rfl, rfl⟩ := Prod.mk.inj (Except.ok.inj hrun)
          exact hkept rfl
      | true =>
          rw [hkzalloc] at hrun
          simp only [addDev, Bool.not_true, Bool.false_eq_true, if_false] at hrun
          cases hcreate : env.create with
          | false =>
              rw [hcreate] at hrun
              obtain ⟨rfl, rfl⟩ := Prod.mk.inj (Except.ok.inj hrun)
              refine ⟨Nat.le_succ _, Multiset.zero_le _, ?_⟩
              change (k.heap.next ::ₘ (k.heap.freed : Multiset ℕ)) + 0 = _ + Multiset.Ico _ (k.heap.next + 1)
              rw [Ledger.Ico_succ, add_zero, ← Multiset.singleton_add, add_comm]
          | true =>
              rw [hcreate] at hrun
              simp only [createDevice, if_true] at hrun
              split at hrun
              · obtain ⟨k₁, hfailed, hret⟩ := Except.bind_eq_ok_iff.mp hrun
                obtain ⟨rfl, rfl⟩ := Prod.mk.inj (Except.ok.inj hret)
                exact hshut rfl (hblocks rfl rfl rfl) hfailed
              · split at hrun
                · obtain ⟨k₁, hfailed, hret⟩ := Except.bind_eq_ok_iff.mp hrun
                  obtain ⟨rfl, rfl⟩ := Prod.mk.inj (Except.ok.inj hret)
                  exact hshut rfl (hblocks rfl rfl rfl) hfailed
                · obtain ⟨rfl, rfl⟩ := Prod.mk.inj (Except.ok.inj hrun)
                  refine ⟨Nat.le_add_right _ 2, ?_, ?_⟩
                  · rw [Option.elim_some, hblocks rfl rfl rfl]
                    exact le_rfl
                  · rw [Option.elim_some, hblocks rfl rfl rfl]
                    rfl

/-- The record for a new pair is given back unless the pair is added. -/
theorem addPair_heap {env : AddPairEnv w} {str : List UInt8} {dev : Option (Dev w)}
    {r : AddPairResult w} (hrun : addPair HZ env str dev k = .ok (r, k')) :
    ((∃ idx, r = .added idx) ∧ k'.heap = ⟨k.heap.next + 1, k.heap.freed⟩) ∨
      ((∀ idx, r ≠ .added idx) ∧
        (k'.heap = k.heap ∨ k'.heap = ⟨k.heap.next + 1, k.heap.next :: k.heap.freed⟩)) := by
  have hfreed : ∀ {r₀ : AddPairResult w}, (∀ idx, r₀ ≠ .added idx) →
      (.ok (r₀, k.alloc.2.kfree k.alloc.1) : Except Fault (AddPairResult w × Kernel w)) = .ok (r, k') →
      (∀ idx, r ≠ .added idx) ∧
        (k'.heap = k.heap ∨ k'.heap = ⟨k.heap.next + 1, k.heap.next :: k.heap.freed⟩) := by
    intro r₀ hne heq
    obtain ⟨rfl, rfl⟩ := Prod.mk.inj (Except.ok.inj heq)
    exact ⟨hne, Or.inr rfl⟩
  unfold addPair at hrun
  split at hrun
  · obtain ⟨rfl, rfl⟩ := Prod.mk.inj (Except.ok.inj hrun)
    exact Or.inr ⟨by simp, Or.inl rfl⟩
  · obtain ⟨parsed, _, hrun⟩ := Except.bind_eq_ok_iff.mp hrun
    cases parsed with
    | error err => exact Or.inr (hfreed (by simp) hrun)
    | ok q =>
        dsimp only at hrun
        split at hrun
        · simp at hrun
        · split at hrun
          · exact Or.inr (hfreed (by simp) hrun)
          · split at hrun
            · exact Or.inr (hfreed (by simp) hrun)
            · split at hrun
              · exact Or.inr (hfreed (by simp) hrun)
              · obtain ⟨rfl, rfl⟩ := Prod.mk.inj (Except.ok.inj hrun)
                exact Or.inl ⟨⟨_, rfl⟩, rfl⟩

/-! ### Tidy computations -/

/-- The store `k'` is what a piece of work makes of `k` that keeps the invariant, loses no memory,
leaves the semaphores as they were and changes only the interfaces it may touch. -/
structure Tidy (touched : HweIface → Prop) (k k' : Kernel w) : Prop where
  inv : StoreInv k'
  balanced : Ledger.Balanced 0 k.ledger k'.ledger
  sems : k'.sems = k.sems
  frame : ∀ iface, ¬touched iface → k'.ifaces iface = k.ifaces iface

theorem Tidy.refl {touched : HweIface → Prop} (h : StoreInv k) : Tidy touched k k :=
  ⟨h, .refl _, rfl, fun _ _ => rfl⟩

theorem Tidy.trans {touched : HweIface → Prop} (h : Tidy touched k k') (h' : Tidy touched k' k'') :
    Tidy touched k k'' :=
  ⟨h'.inv, h.balanced.trans h'.balanced, h'.sems.trans h.sems,
    fun iface hiface => (h'.frame iface hiface).trans (h.frame iface hiface)⟩

theorem Tidy.of_keep {touched : HweIface → Prop} (h : StoreInv k) (hc : Changed .keep k k')
    (hbalanced : Ledger.Balanced 0 k.ledger k'.ledger) : Tidy touched k k' :=
  ⟨h.changed hc, hbalanced, hc.sems, fun iface _ => congrFun hc.ifaces iface⟩

def Accounted {α : Type} (touched : HweIface → Prop) (k : Kernel w)
    (r : Except Fault (α × Kernel w)) : Prop :=
  ∀ a k', r = .ok (a, k') → Tidy touched k k'

/-- The interfaces whose semaphore can be taken. -/
def Kernel.Free (k : Kernel w) (iface : HweIface) : Prop := k.sems iface ≠ 0

namespace Accounted

variable {α β : Type} {touched : HweIface → Prop} {iface : HweIface}

theorem pure (h : StoreInv k) (a : α) : Accounted touched k (.ok (a, k)) := by
  intro a' k' hret
  obtain ⟨rfl, rfl⟩ := Prod.mk.inj (Except.ok.inj hret)
  exact .refl h

theorem bind {r : Except Fault (α × Kernel w)} {f : α × Kernel w → Except Fault (β × Kernel w)}
    (hr : Accounted touched k r) (hf : ∀ a k', StoreInv k' → Accounted touched k' (f (a, k'))) :
    Accounted touched k (r >>= f) := by
  intro b k'' hrun
  obtain ⟨⟨a, k'⟩, hfirst, hrest⟩ := Except.bind_eq_ok_iff.mp hrun
  have htidy := hr a k' hfirst
  exact htidy.trans (hf a k' htidy.inv b k'' hrest)

theorem withLock {body : Kernel w → Except Fault (α × Kernel w)} (h : StoreInv k)
    (hbody : ∀ k₀, StoreInv k₀ → k₀.ifaces = k.ifaces → Accounted (· = iface) k₀ (body k₀)) :
    Accounted k.Free k (withLock iface k body) := by
  intro a k' hrun
  obtain ⟨hsem, k₁, hlocked, rfl⟩ := withLock_eq_ok.mp hrun
  have htidy := hbody _ (h.setSem _ _) rfl a k₁ hlocked
  refine ⟨htidy.inv.setSem _ _, htidy.balanced, ?_, ?_⟩
  · funext j
    simp only [unlockIfaceDevs, Kernel.setSem, htidy.sems]
    by_cases hj : j = iface
    · subst hj
      rw [Function.update_self, Function.update_self]
      omega
    · rw [Function.update_of_ne hj, Function.update_of_ne hj]
  · intro j hj
    refine htidy.frame j ?_
    rintro rfl
    exact hj hsem

/-! ### The functions of the store -/

theorem newDev (h : StoreInv k) (env : NewDevEnv) (iface : HweIface) :
    Accounted (· = iface) k (newDev env iface k) := by
  intro r k' hrun
  obtain ⟨hnext, hused, hfreed⟩ := newDev_heap hrun
  obtain ⟨r', k₁, hnew, hcases⟩ := newDev_changed h env iface
  rw [hnew] at hrun
  obtain ⟨rfl, rfl⟩ := Prod.mk.inj (Except.ok.inj hrun)
  rcases hcases with ⟨rfl, hkeep⟩ | ⟨d, rfl, rfl, hadd⟩
  · refine .of_keep h hkeep (.of_acquired hnext ?_ hused hfreed)
    exact (Kernel.owned_congr hkeep.ifaces).trans (zero_add _).symm
  · refine ⟨h.changed hadd, .of_acquired hnext hadd.owned_addDev hused hfreed, hadd.sems, ?_⟩
    intro iface hne
    rw [hadd.ifaces]
    exact Function.update_of_ne hne ..

theorem shutdownDev (h : StoreInv k) (hd : d ∈ k.devs) (a : α) :
    Accounted (· = d.iface) k (do
      let k ← shutdownDev d k
      return (a, k)) := by
  intro a' k' hrun
  obtain ⟨k₁, hshut, hret⟩ := Except.bind_eq_ok_iff.mp hrun
  obtain ⟨rfl, rfl⟩ := Prod.mk.inj (Except.ok.inj hret)
  obtain ⟨hnext, hfreed⟩ := shutdownDev_heap hshut
  obtain ⟨k₂, hshut', hchanged⟩ := shutdownDev_changed h hd
  obtain rfl : k₂ = k₁ := Except.ok.inj (hshut'.symm.trans hshut)
  refine ⟨h.changed hchanged, .of_released hnext (h.owned_removeDev hchanged) hfreed, hchanged.sems, ?_⟩
  intro iface hne
  rw [hchanged.ifaces]
  exact Function.update_of_ne hne ..

theorem pairDelete (h : StoreInv k) (hd : d ∈ k.devs) (hp : p ∈ d.pairList) (a : α) :
    Accounted (· = d.iface) k (do
      let k ← pairDelete d.addr p k
      return (a, k)) := by
  intro a' k' hrun
  obtain ⟨k₁, hdelete, hret⟩ := Except.bind_eq_ok_iff.mp hrun
  obtain ⟨rfl, rfl⟩ := Prod.mk.inj (Except.ok.inj hret)
  have hheap := pairDelete_heap hdelete
  obtain ⟨k₂, hdelete', hchanged⟩ := pairDelete_changed h hd hp
  obtain rfl : k₂ = k₁ := Except.ok.inj (hdelete'.symm.trans hdelete)
  refine ⟨h.changed hchanged, .of_released (s := {p.addr}) ?_ ?_ ?_, hchanged.sems, ?_⟩
  · rw [Kernel.ledger, hheap]
    rfl
  · exact h.owned_removePair hd hp hchanged
  · rw [Kernel.ledger, hheap]
    rfl
  · intro iface hne
    rw [hchanged.ifaces]
    exact h.modifyDev_frame hd _ hne

theorem clearPairs (h : StoreInv k) (hd : d ∈ k.devs) (a : α) :
    Accounted (· = d.iface) k (do
      let k ← clearPairs d k
      return (a, k)) := by
  intro a' k' hrun
  obtain ⟨k₁, hclear, hret⟩ := Except.bind_eq_ok_iff.mp hrun
  obtain ⟨rfl, rfl⟩ := Prod.mk.inj (Except.ok.inj hret)
  obtain ⟨hnext, hfreed⟩ := clearPairs_heap hclear
  obtain ⟨k₂, hclear', hchanged⟩ := clearPairs_changed h hd
  obtain rfl : k₂ = k₁ := Except.ok.inj (hclear'.symm.trans hclear)
  refine ⟨h.changed hchanged, .of_released hnext (h.owned_clearPairs hd hchanged) hfreed,
    hchanged.sems, ?_⟩
  intro iface hne
  rw [hchanged.ifaces]
  exact h.modifyDev_frame hd _ hne

theorem unadded {r : AddPairResult w} {str : List UInt8} {env : AddPairEnv w} {dev : Option (Dev w)}
    (h : StoreInv k) (hrun : addPair HZ env str dev k = .ok (r, k')) (hne : ∀ idx, r ≠ .added idx)
    (hkeep : Changed .keep k k') : Tidy touched k k' := by
  refine .of_keep h hkeep (.of_acquired (s := 0) hkeep.next ?_ (Multiset.zero_le _) ?_)
  · exact (Kernel.owned_congr hkeep.ifaces).trans (zero_add _).symm
  · rcases addPair_heap hrun with ⟨⟨idx, hadded⟩, _⟩ | ⟨_, hsame | hfreed⟩
    · exact absurd hadded (hne idx)
    · simp only [Kernel.ledger, hsame, Multiset.Ico_self]
    · simp only [Kernel.ledger, hfreed, Ledger.Ico_succ]
      exact (add_zero _).trans (add_comm {k.heap.next} (k.heap.freed : Multiset ℕ))

theorem addPair (h : StoreInv k) (env : AddPairEnv w) (str : List UInt8) {dev : Option (Dev w)}
    (hdev : ∀ d, dev = some d → d ∈ k.devs ∧ d.iface = iface) :
    Accounted (· = iface) k (addPair HZ env str dev k) := by
  intro r k' hrun
  cases dev with
  | none =>
      obtain ⟨hne, hkeep⟩ := addPair_missing hrun
      exact unadded h hrun hne hkeep
  | some d =>
      obtain ⟨hd, rfl⟩ := hdev d rfl
      rcases addPair_changed h hd hrun with ⟨mem, q, _, _, rfl, hadd⟩ | ⟨hne, hkeep⟩
      · have haddr : (q.placed d).addr = k.heap.next ∧ k'.heap = ⟨k.heap.next + 1, k.heap.freed⟩ := by
          rcases addPair_heap hrun with ⟨_, htaken⟩ | ⟨hne, _⟩
          · obtain ⟨_, hlow, hhigh⟩ := hadd.allowed
            rw [htaken] at hhigh
            dsimp only at hhigh
            exact ⟨by omega, htaken⟩
          · exact absurd rfl (hne _)
        refine ⟨h.changed hadd, .of_acquired (s := {(q.placed d).addr}) hadd.next ?_ ?_ ?_, hadd.sems, ?_⟩
        · exact h.owned_addPair hd hadd
        · simp only [Kernel.ledger, haddr, Ledger.Ico_succ]
          exact le_rfl
        · simp only [Kernel.ledger, haddr, Ledger.Ico_succ]
        · intro iface hne
          rw [hadd.ifaces]
          exact h.modifyDev_frame hd _ hne
      · exact unadded h hrun hne hkeep

/-! ### The operations -/

theorem ifaceAddStore (h : StoreInv k) (iface : HweIface) (buf : List UInt8) (env : NewDevEnv) :
    Accounted k.Free k (ifaceAddStore iface buf env k) := by
  unfold Hwemu.ifaceAddStore
  split
  · exact .pure h _
  · rw [strToIface_ifaceToStr]
    exact .withLock h fun k₀ h₀ _ => .bind (.newDev h₀ env iface) fun _ _ h₁ => .pure h₁ _

theorem hweAddDevice (h : StoreInv k) (iface : HweIface) (env : NewDevEnv) :
    Accounted k.Free k (hweAddDevice iface env k) :=
  .withLock h fun _ h₀ _ => .bind (.newDev h₀ env iface) fun _ _ h₁ => .pure h₁ _

theorem ifaceUninstallStore (h : StoreInv k) (iface : HweIface) (buf : List UInt8) :
    Accounted k.Free k (ifaceUninstallStore iface buf k) := by
  unfold Hwemu.ifaceUninstallStore
  split
  · exact .pure h _
  · rw [strToIface_ifaceToStr]
    dsimp only
    split
    · exact .pure h _
    · refine .withLock h fun k₀ h₀ _ => ?_
      cases hfind : findDevice iface (copyWord buf 16) k₀ with
      | none => exact .pure h₀ _
      | some d =>
          obtain rfl : d.iface = iface := h₀.iface iface d (List.mem_of_find?_eq_some hfind)
          exact .shutdownDev h₀ (findDevice_some hfind) _

theorem findDeviceByIndex_iface (h : StoreInv k) {devIndex : Int}
    (hfind : findDeviceByIndex iface devIndex k = some d) : d.iface = iface :=
  h.iface iface d (List.mem_of_find?_eq_some hfind)

/-- The shape of the operations that look a device up by its index. -/
theorem onDevice {devIndex : Int} {missing : α} {found : Dev w → Kernel w → Except Fault (α × Kernel w)}
    (h : StoreInv k)
    (hfound : ∀ d k₀, StoreInv k₀ → d ∈ k₀.devs → Accounted (· = d.iface) k₀ (found d k₀)) :
    Accounted k.Free k (Hwemu.withLock iface k fun k =>
      match findDeviceByIndex iface devIndex k with
      | none => return (missing, k)
      | some dev => found dev k) := by
  refine .withLock h fun k₀ h₀ _ => ?_
  cases hfind : findDeviceByIndex iface devIndex k₀ with
  | none => exact .pure h₀ _
  | some d =>
      obtain rfl := findDeviceByIndex_iface h₀ hfind
      exact hfound d k₀ h₀ (findDeviceByIndex_some hfind).1

theorem hweDeleteDevice (h : StoreInv k) (iface : HweIface) (devIndex : Int) :
    Accounted k.Free k (hweDeleteDevice iface devIndex k) :=
  onDevice h fun _ _ h₀ hd => .shutdownDev h₀ hd _

theorem hweGetPairCount (h : StoreInv k) (iface : HweIface) (devIndex : Int) :
    Accounted k.Free k (hweGetPairCount iface devIndex k) :=
  onDevice h fun _ _ h₀ _ => .pure h₀ _

theorem hweClearPairs (h : StoreInv k) (iface : HweIface) (devIndex : Int) :
    Accounted k.Free k (hweClearPairs iface devIndex k) :=
  onDevice h fun _ _ h₀ hd => .clearPairs h₀ hd _

theorem hweDeletePair (h : StoreInv k) (iface : HweIface) (devIndex pairIndex : Int) :
    Accounted k.Free k (hweDeletePair iface devIndex pairIndex k) := by
  refine onDevice h fun d k₀ h₀ hd => ?_
  cases hget : getPairAtIndex d.pairList (toSizeT pairIndex) with
  | none => exact .pure h₀ _
  | some p => exact .pairDelete h₀ hd (getPairAtIndex_some hget).1 _

theorem hweGetPair (h : StoreInv k) (iface : HweIface) (devIndex pairIndex idx : Int) :
    Accounted k.Free k (hweGetPair iface devIndex pairIndex idx k) := by
  refine onDevice h fun d k₀ h₀ _ => ?_
  cases d.pairList.find? fun pair => (pair.index : Int) == idx with
  | none => exact .pure h₀ _
  | some p => exact .pure h₀ _

theorem hweAddPair (h : StoreInv k) (iface : HweIface) (devIndex : Int) (pairStr : List UInt8)
    (env : AddPairEnv w) : Accounted k.Free k (hweAddPair HZ iface devIndex pairStr env k) := by
  refine .withLock h fun k₀ h₀ _ => ?_
  refine .bind (.addPair h₀ env (cstr pairStr) ?_) fun _ _ h₁ => .pure h₁ _
  intro d hfind
  exact ⟨(findDeviceByIndex_some hfind).1, findDeviceByIndex_iface h₀ hfind⟩

theorem onDeref {dev : Nat} {found : Dev w → Except Fault (α × Kernel w)}
    (hfound : ∀ d, d ∈ k.devs → Accounted touched k (found d)) :
    Accounted touched k (do
      let d ← k.deref dev
      found d) := by
  intro a k' hrun
  obtain ⟨d, hderef, hrest⟩ := Except.bind_eq_ok_iff.mp hrun
  exact hfound d (deref_eq_ok hderef).1 a k' hrest

theorem devAddStore (h : StoreInv k) (dev : Nat) (buf : List UInt8) (env : AddPairEnv w) :
    Accounted k.Free k (devAddStore HZ dev buf env k) := by
  refine onDeref fun d hd => .withLock h fun k₀ h₀ hifaces => ?_
  refine .bind (.addPair h₀ env buf ?_) fun _ _ h₁ => .pure h₁ _
  intro d' hsome
  obtain rfl : d = d' := Option.some.inj hsome
  exact ⟨mem_devs_congr hifaces hd, rfl⟩

theorem devDeleteStore (h : StoreInv k) (dev : Nat) (buf : List UInt8) :
    Accounted k.Free k (devDeleteStore dev buf k) := by
  refine onDeref fun d hd => .withLock h fun k₀ h₀ hifaces => ?_
  split
  · exact .pure h₀ _
  · split
    · exact .pure h₀ _
    · split
      · exact .pure h₀ _
      · rename_i hget
        exact .pairDelete h₀ (mem_devs_congr hifaces hd) (getPairAtIndex_some hget).1 _

theorem devClearStore (h : StoreInv k) (dev : Nat) (buf : List UInt8) :
    Accounted k.Free k (devClearStore dev buf k) := by
  unfold Hwemu.devClearStore
  split
  · exact .pure h _
  · refine onDeref fun d hd => .withLock h fun k₀ h₀ hifaces => ?_
    exact .clearPairs h₀ (mem_devs_congr hifaces hd) _

/-- Memory taken for the length of a computation. -/
theorem buffer {r : Except Fault (α × Kernel w)} {f : α × Kernel w → Except Fault (β × Kernel w)}
    (hr : Accounted touched k.alloc.2 r)
    (hf : ∀ a k₁ b k₂, r = .ok (a, k₁) → f (a, k₁) = .ok (b, k₂) → k₂ = k₁.kfree k.alloc.1) :
    Accounted touched k (r >>= f) := by
  intro b k₂ hrun
  obtain ⟨⟨a, k₁⟩, hfirst, hrest⟩ := Except.bind_eq_ok_iff.mp hrun
  have htidy := hr a k₁ hfirst
  obtain rfl := hf a k₁ b k₂ hfirst hrest
  have hlost : Ledger.Balanced {k.heap.next} k.ledger k₁.ledger :=
    (Ledger.Balanced.alloc k.ledger).trans htidy.balanced
  exact ⟨htidy.inv.congr rfl le_rfl, hlost.free, htidy.sems, htidy.frame⟩

theorem ioctlReadPair (h : StoreInv k) (hp : HweioctlPair) (env : IoctlEnv w) :
    Accounted k.Free k (ioctlReadPair hp env k) := by
  have halloc : StoreInv k.alloc.2 := h.congr rfl (Nat.le_succ _)
  unfold Hwemu.ioctlReadPair
  split
  · exact .pure h _
  · split
    · exact .pure h _
    · split
      · exact .pure h _
      · split
        · exact .pure h _
        · refine .buffer (.hweGetPair halloc _ _ _ _) ?_
          rintro ⟨ret, text⟩ k₁ b k₂ _ hrest
          dsimp only at hrest
          split at hrest
          · exact (Prod.mk.inj (Except.ok.inj hrest)).2.symm
          · exact (Prod.mk.inj (Except.ok.inj hrest)).2.symm

/-- Writing a pair loses no memory unless the text cannot be copied to the buffer taken for it. -/
theorem ioctlWritePair (h : StoreInv k) (hp : HweioctlPair) {env : IoctlEnv w}
    (hcopy : env.kmalloc = true → env.copyFromUser = true) : Accounted k.Free k (ioctlWritePair HZ hp env k) := by
  have halloc : StoreInv k.alloc.2 := h.congr rfl (Nat.le_succ _)
  unfold Hwemu.ioctlWritePair
  split
  · exact .pure h _
  · split
    · exact .pure h _
    · split
      · exact .pure h _
      · rename_i hkmalloc
        rw [hcopy (by simpa using hkmalloc)]
        refine .buffer (.hweAddPair halloc _ _ _ _) ?_
        rintro ret k₁ b k₂ _ hrest
        dsimp only at hrest
        split at hrest
        · exact (Prod.mk.inj (Except.ok.inj hrest)).2.symm
        · split at hrest
          · exact (Prod.mk.inj (Except.ok.inj hrest)).2.symm
          · exact (Prod.mk.inj (Except.ok.inj hrest)).2.symm

theorem hwemuIoctl (h : StoreInv k) {cmd : Nat} (arg : Nat) {hp : HweioctlPair} {env : IoctlEnv w}
    (hcopy : IoctlCmd.ofCode cmd = .writePair → env.kmalloc = true → env.copyFromUser = true) :
    Accounted k.Free k (hwemuIoctl HZ cmd arg hp env k) := by
  unfold Hwemu.hwemuIoctl
  cases hcode : IoctlCmd.ofCode cmd with
  | readPair => exact .ioctlReadPair h hp env
  | writePair => exact .ioctlWritePair h hp (hcopy hcode)
  | other => exact .pure h _
  | addDevice =>
      refine .bind ?_ fun _ _ h₁ => .pure h₁ _
      unfold ioctlAddDevice
      split
      · exact .pure h _
      · exact .bind (.hweAddDevice h _ _) fun _ _ h₁ => .pure h₁ _
  | uninstallDevice =>
      refine .bind ?_ fun _ _ h₁ => .pure h₁ _
      unfold ioctlDeleteDevice
      split
      · exact .pure h _
      · exact .hweDeleteDevice h _ _
  | pairCount =>
      refine .bind ?_ fun _ _ h₁ => .pure h₁ _
      unfold ioctlPairCount
      split
      · exact .pure h _
      · exact .hweGetPairCount h _ _
  | deletePair =>
      refine .bind ?_ fun _ _ h₁ => .pure h₁ _
      unfold ioctlDeletePair
      split
      · exact .pure h _
      · split
        · exact .pure h _
        · split
          · exact .pure h _
          · exact .hweDeletePair h _ _ _
  | clearPairs =>
      refine .bind ?_ fun _ _ h₁ => .pure h₁ _
      unfold ioctlClearPairs
      split
      · exact .pure h _
      · exact .hweClearPairs h _ _

end Accounted

/-! ### Every step of a run -/

/-- The one way to lose memory. -/
theorem ioctlWritePair_uncopied {hp : HweioctlPair} {env : IoctlEnv w} {ret : Int} {hp' : HweioctlPair}
    (hkmalloc : env.kmalloc = true) (hcopy : env.copyFromUser = false)
    (hrun : ioctlWritePair HZ hp env k = .ok ((ret, hp'), k')) :
    k' = k ∨ k' = k.alloc.2 := by
  unfold ioctlWritePair at hrun
  rw [hkmalloc, hcopy] at hrun
  split at hrun
  · exact Or.inl (Prod.mk.inj (Except.ok.inj hrun)).2.symm
  · split at hrun
    · exact Or.inl (Prod.mk.inj (Except.ok.inj hrun)).2.symm
    · exact Or.inr (Prod.mk.inj (Except.ok.inj hrun)).2.symm

/-- What is true of every operation: memory is accounted for, and only the interfaces whose semaphore
could be taken have changed. -/
structure Orderly (k k' : Kernel w) : Prop where
  inv : StoreInv k'
  balanced : ∃ lost, Ledger.Balanced lost k.ledger k'.ledger
  sems : k'.sems = k.sems
  frame : ∀ iface, k.sems iface = 0 → k'.ifaces iface = k.ifaces iface

theorem Tidy.orderly (h : Tidy k.Free k k') : Orderly k k' :=
  ⟨h.inv, ⟨0, h.balanced⟩, h.sems, fun iface hsem => h.frame iface (not_not.mpr hsem)⟩

theorem hwemuIoctl_orderly (h : StoreInv k) {cmd arg : Nat} {hp hp' : HweioctlPair}
    {env : IoctlEnv w} {ret : Int} (hrun : hwemuIoctl HZ cmd arg hp env k = .ok ((ret, hp'), k')) :
    Orderly k k' := by
  by_cases hcopy : IoctlCmd.ofCode cmd = .writePair → env.kmalloc = true → env.copyFromUser = true
  · exact (Accounted.hwemuIoctl h arg hcopy _ k' hrun).orderly
  · push Not at hcopy
    obtain ⟨hcode, hkmalloc, huncopied⟩ := hcopy
    unfold hwemuIoctl at hrun
    rw [hcode] at hrun
    rcases ioctlWritePair_uncopied hkmalloc (by simpa using huncopied) hrun with rfl | rfl
    · exact (Tidy.refl h).orderly
    · exact ⟨h.congr rfl (Nat.le_succ _), ⟨_, .alloc k.ledger⟩, rfl, fun _ _ => rfl⟩

theorem exec_orderly (h : StoreInv k) {op : Op w} {ret : Int} (hrun : exec HZ op k = .ok (ret, k')) :
    Orderly k k' := by
  have haccounted : ∀ {r : Except Fault (Int × Kernel w)}, Accounted k.Free k r → r = .ok (ret, k') →
      Orderly k k' := fun hr heq => (hr ret k' heq).orderly
  cases op with
  | ifaceAddStore iface buf env => exact haccounted (.ifaceAddStore h iface buf env) hrun
  | hweAddDevice iface env => exact haccounted (.hweAddDevice h iface env) hrun
  | ifaceUninstallStore iface buf => exact haccounted (.ifaceUninstallStore h iface buf) hrun
  | hweDeleteDevice iface devIndex => exact haccounted (.hweDeleteDevice h iface devIndex) hrun
  | devAddStore dev buf env => exact haccounted (.devAddStore h dev buf env) hrun
  | hweAddPair iface devIndex pairStr env =>
      exact haccounted (.hweAddPair h iface devIndex pairStr env) hrun
  | devDeleteStore dev buf => exact haccounted (.devDeleteStore h dev buf) hrun
  | hweDeletePair iface devIndex pairIndex =>
      exact haccounted (.hweDeletePair h iface devIndex pairIndex) hrun
  | devClearStore dev buf => exact haccounted (.devClearStore h dev buf) hrun
  | hweClearPairs iface devIndex => exact haccounted (.hweClearPairs h iface devIndex) hrun
  | hwemuIoctl cmd arg hp env =>
      obtain ⟨⟨⟨r, hp'⟩, k₁⟩, hioctl, hret⟩ := Except.bind_eq_ok_iff.mp hrun
      obtain ⟨rfl, rfl⟩ := Prod.mk.inj (Except.ok.inj hret)
      exact hwemuIoctl_orderly h hioctl

theorem Dev.blocks_ticked (d : Dev w) (jiff : BitVec w) : (d.ticked jiff).blocks = d.blocks := by
  have haddrs : ((d.ticked jiff).pairList.map (·.addr)) = d.pairList.map (·.addr) := by
    rw [Dev.ticked, List.map_map]
    apply List.map_congr_left
    intro p _
    obtain ⟨time, htime⟩ := timerPair_same jiff p
    rw [Function.comp_apply, htime]
  simp only [Dev.blocks, haddrs]
  rfl

/-- A tick takes no memory and gives none back. -/
theorem ledger_ticked {jiff : BitVec w} {free : HweIface → Bool}
    (hifaces : k'.ifaces = fun iface => if free iface then (k.ifaces iface).ticked jiff
      else k.ifaces iface)
    (hheap : k'.heap = k.heap) : k'.ledger = k.ledger := by
  have hiface : ∀ ifc : Iface w, (ifc.ticked jiff).blocks = ifc.blocks := by
    intro ifc
    rw [Iface.blocks, Iface.ticked, List.map_map]
    congr 1
    exact List.map_congr_left fun d _ => d.blocks_ticked jiff
  have hblocks : ∀ iface, (k'.ifaces iface).blocks = (k.ifaces iface).blocks := by
    intro iface
    rw [hifaces]
    dsimp only
    split
    · exact hiface _
    · rfl
  simp only [Kernel.ledger, hblocks, hheap]

/-- The store after a tick, which enters the interfaces `entered`. -/
theorem timerTick_store (h : StoreInv k) (jiff : BitVec w) (free : HweIface → Bool) :
    ∃ entered : HweIface → Bool, (∀ iface, k.sems iface = 0 → entered iface = false) ∧
      (timerTick jiff free k).1 = Kernel.mk (fun iface => if entered iface then
        (k.ifaces iface).ticked jiff else k.ifaces iface) k.sems k.heap := by
  let entered : HweIface → Bool := fun iface => free iface && decide (k.sems iface ≠ 0)
  have hentered : ∀ iface, (if free iface then k.sems iface else 0) ≠ 0 ↔ entered iface = true := by
    intro iface
    cases hfree : free iface with
    | false => simp [entered, hfree]
    | true => simp [entered, hfree]
  have hnodup : ({ k with sems := fun iface => if free iface then k.sems iface else 0 } :
      Kernel w).AddrsNodup := h.addrsNodup
  refine ⟨entered, fun iface hsem => by simp [entered, hsem], ?_⟩
  unfold timerTick
  rw [timerFunc_eq jiff hnodup]
  simp only [hentered]

/-- A tick leaves every pair listed. -/
theorem Kernel.Lists.tick (h : StoreInv k) {iface : HweIface} {dev addr : Nat}
    (hlisted : k.Lists iface dev addr) (jiff : BitVec w) (free : HweIface → Bool) :
    (timerTick jiff free k).1.Lists iface dev addr := by
  obtain ⟨entered, _, hstore⟩ := timerTick_store h jiff free
  obtain ⟨d, hd, rfl, p, hp, rfl⟩ := hlisted
  rw [hstore]
  unfold Kernel.Lists
  dsimp only
  split
  · obtain ⟨time, htime⟩ := timerPair_same jiff p
    refine ⟨d.ticked jiff, List.mem_map_of_mem hd, rfl, _, List.mem_map_of_mem hp, ?_⟩
    rw [htime]
  · exact ⟨d, hd, rfl, p, hp, rfl⟩

theorem timerTick_orderly (h : StoreInv k) (jiff : BitVec w) (free : HweIface → Bool) :
    Orderly k (timerTick jiff free k).1 := by
  obtain ⟨entered, hfree, hstore⟩ := timerTick_store h jiff free
  rw [hstore]
  have hledger : (Kernel.mk (fun iface => if entered iface then (k.ifaces iface).ticked jiff
      else k.ifaces iface) k.sems k.heap).ledger = k.ledger := ledger_ticked rfl rfl
  refine ⟨h.ticked rfl rfl, ⟨0, ?_⟩, rfl, ?_⟩
  · rw [hledger]
    exact .refl _
  · intro iface hsem
    exact if_neg (by simp [hfree iface hsem])

theorem SysStep.orderly {e : Event w} (h : StoreInv k) (hstep : SysStep HZ k e k') : Orderly k k' := by
  cases e with
  | op op =>
      obtain ⟨ret, hexec⟩ := hstep
      exact exec_orderly h hexec
  | tick jiff free calls =>
      obtain rfl := congrArg Prod.fst hstep
      exact timerTick_orderly h jiff free

/-- **No block of memory is used twice, freed twice, or used after it was freed**, in any reachable
state. -/
theorem SysReachable.sound (h : SysReachable HZ k) : k.ledger.Sound := by
  obtain ⟨es, hrun⟩ := h
  refine (hrun.invariant (I := fun k => (StoreInv k ∧ ∀ iface, k.sems iface = 1) ∧ k.ledger.Sound)
    ?_ ⟨⟨StoreInv.loaded, fun _ => rfl⟩, ?_⟩).2
  · rintro k e k' ⟨hinv, hsound⟩ hstep
    obtain ⟨lost, hbalanced⟩ := (SysStep.orderly hinv.1 hstep).balanced
    exact ⟨SysStep.inv hinv hstep, hbalanced.sound hsound⟩
  · exact ⟨Multiset.nodup_zero, fun a ha => absurd ha (Multiset.notMem_zero a)⟩

end Hwemu
