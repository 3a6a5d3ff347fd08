import Hwemu.Accounts
import Hwemu.DriverTables

/-!
# The tables of the drivers and the store

A device of the store and the private device that its driver knows are made and removed together: after
every operation the two agree, entry by entry. The exception is a net device whose allocation fails after
`hwenet_init` has put it in the list of the driver.
-/

namespace Hwemu

variable {w : Nat} {HZ : Nat} {k k' : Kernel w} {m m' : HwemuModule w} {d : Dev w}

/-! ### Pairs -/

/-- What a driver and the store have to agree on: the private device, its device, and the index. -/
def PrivDev.key (p : PrivDev) : Option Nat × Nat × Nat := (some p.addr, p.hwedev, p.index)

def Dev.key (d : Dev w) : Option Nat × Nat × Nat := (d.device, d.addr, d.index)

/-- A change to pairs leaves what does not depend on them. -/
theorem Changed.view_same {β : Type} {c : Change w} {view : Dev w → β} (hc : Changed c k k') (hpairs : c.OnPairs)
    (hview : ∀ d list indexes, view { d with pairList := list, pairsIndexes := indexes } = view d)
    (iface : HweIface) : (k'.ifaces iface).devList.map view = (k.ifaces iface).devList.map view := by
  have hmodify : ∀ (dev : Nat) (f : Dev w → Dev w), (∀ d, view (f d) = view d) →
      ((k.modifyDev dev f).ifaces iface).devList.map view = (k.ifaces iface).devList.map view := by
    intro dev f hf
    rw [Kernel.modifyDev, List.map_map]
    apply List.map_congr_left
    intro d _
    rw [Function.comp_apply]
    split
    · exact hf d
    · rfl
  rw [hc.ifaces]
  cases c with
  | keep => rfl
  | addDev d => exact absurd hpairs id
  | removeDev d => exact absurd hpairs id
  | addPair dev p => exact hmodify dev _ fun d => hview d _ _
  | removePair dev p => exact hmodify dev _ fun d => hview d _ _
  | clearPairs dev => exact hmodify dev _ fun d => hview d _ _

theorem removalOfPair_onPairs (d : Dev w) (p : Option (Pair w)) : (removalOfPair d p).OnPairs := by
  cases p with
  | none => trivial
  | some p => trivial

/-- The operations on pairs make no other change. -/
theorem exec_onPairs (h : StoreInv k) {op : Op w} (hop : op.onPairs = true) {ret : Int}
    (hrun : Hwemu.exec HZ op k = .ok (ret, k')) : ∃ c, c.OnPairs ∧ Changed c k k' := by
  cases op with
  | devAddStore dev buf env =>
      obtain ⟨d, hderef, _⟩ := Except.bind_eq_ok_iff.mp hrun
      obtain ⟨hd, rfl⟩ := deref_eq_ok hderef
      rcases devAddStore_cases h hd hrun with ⟨_, q, _, _, _, hadd⟩ | ⟨_, hkeep⟩
      · exact ⟨.addPair d.addr (q.placed d), trivial, hadd⟩
      · exact ⟨.keep, trivial, hkeep⟩
  | hweAddPair iface devIndex pairStr env =>
      obtain ⟨c, ⟨_, hpairs⟩, hc⟩ := hweAddPair_changed h hrun
      exact ⟨c, hpairs, hc⟩
  | devDeleteStore dev buf =>
      obtain ⟨d, hderef, _⟩ := Except.bind_eq_ok_iff.mp hrun
      obtain ⟨hd, rfl⟩ := deref_eq_ok hderef
      rcases devDeleteStore_cases h hd hrun with ⟨_, p, _, _, _, _, hremove⟩ | ⟨_, _, hkeep⟩
      · exact ⟨.removePair d.addr p, trivial, hremove⟩
      · exact ⟨.keep, trivial, hkeep⟩
  | hweDeletePair iface devIndex pairIndex =>
      refine ⟨_, ?_, hweDeletePair_changed h hrun⟩
      unfold hweDeletePairRemoval
      split
      · trivial
      · exact removalOfPair_onPairs _ _
  | devClearStore dev buf =>
      by_cases hbuf : buf.length = 0
      · rw [Hwemu.exec, devClearStore, if_pos hbuf] at hrun
        obtain ⟨_, rfl⟩ := Prod.mk.inj (Except.ok.inj hrun)
        exact ⟨.keep, trivial, Changed.refl k⟩
      · have hrest := hrun
        rw [Hwemu.exec, devClearStore, if_neg hbuf] at hrest
        obtain ⟨d, hderef, _⟩ := Except.bind_eq_ok_iff.mp hrest
        obtain ⟨hd, rfl⟩ := deref_eq_ok hderef
        rcases devClearStore_cases h hd hrun with ⟨_, _, hclear⟩ | ⟨_, hempty, _⟩
        · exact ⟨.clearPairs d.addr, trivial, hclear⟩
        · exact absurd hempty hbuf
  | hweClearPairs iface devIndex =>
      refine ⟨_, ?_, hweClearPairs_changed h hrun⟩
      unfold hweClearPairsRemoval
      split
      · trivial
      · trivial
  | _ => simp [Op.onPairs] at hop

/-! ### One change -/

/-- The private devices are those of the store's devices, one to one. -/
def HwemuModule.Matched (m : HwemuModule w) : Prop :=
  ∀ iface, ((m.table iface).map PrivDev.key).Perm ((m.k.ifaces iface).devList.map Dev.key)

structure ModuleInv (m : HwemuModule w) : Prop where
  store : StoreInv m.k
  drivers : DriversInv m
  matched : m.Matched

/-- The directories of a device. -/
def Dev.kobjs (d : Dev w) : Multiset KernelObj :=
  if d.pairsKobj then {.pairsKobj d.addr, .devKobj d.addr} else {.devKobj d.addr}

/-- What an operation does to the store, to the tables and to what is registered; `leak` is what it
leaves behind. -/
inductive Evolved (leak : Multiset KernelObj) (m m' : HwemuModule w) : Prop
  | same {c : Change w} (hc : Changed c m.k m'.k) (hpairs : c.OnPairs)
      (htable : ∀ j, (m'.table j).Perm (m.table j)) (hobjs : Registry.Trades 0 leak m.objs m'.objs)
  | added {d : Dev w} {p : PrivDev} (hc : Changed (.addDev d) m.k m'.k) (hkey : p.key = d.key)
      (hself : (m'.table d.iface).Perm (p :: m.table d.iface))
      (hothers : ∀ j, j ≠ d.iface → m'.table j = m.table j)
      (hobjs : Registry.Trades 0 (leak + (d.kobjs + p.objs d.iface)) m.objs m'.objs)
  | removed {d : Dev w} {p : PrivDev} (hc : Changed (.removeDev d) m.k m'.k) (hkey : p.key = d.key)
      (hself : (p :: m'.table d.iface).Perm (m.table d.iface))
      (hothers : ∀ j, j ≠ d.iface → m'.table j = m.table j)
      (hobjs : Registry.Trades (d.kobjs + p.objs d.iface) leak m.objs m'.objs)

variable {leak : Multiset KernelObj}

theorem Evolved.refl (m : HwemuModule w) : Evolved 0 m m :=
  .same (Changed.refl m.k) trivial (fun _ => List.Perm.refl _) (.refl 0 m.objs)

theorem Evolved.matched (h : Evolved leak m m') (hinv : ModuleInv m) : m'.Matched := by
  intro iface
  cases h with
  | same hc hpairs htable =>
      rw [hc.view_same hpairs fun _ _ _ => rfl]
      exact ((htable iface).map PrivDev.key).trans (hinv.matched iface)
  | @added d p hc hkey hself hothers =>
      rw [hc.ifaces]
      by_cases hiface : iface = d.iface
      · subst hiface
        simp only [Change.apply, Kernel.setIface, Function.update_self, List.map_cons, ← hkey]
        exact (hself.map PrivDev.key).trans ((hinv.matched d.iface).cons p.key)
      · simp only [Change.apply, Kernel.setIface, Function.update_of_ne hiface]
        rw [hothers iface hiface]
        exact hinv.matched iface
  | @removed d p hc hkey hself hothers =>
      rw [hc.ifaces]
      by_cases hiface : iface = d.iface
      · subst hiface
        have hd : d ∈ (m.k.ifaces d.iface).devList := hinv.store.mem_devs.mp hc.allowed
        have hrest := (Keyed.perm_cons_filter_ne (hinv.store.addrsNodup d.iface) hd).map Dev.key
        have hboth := ((hself.map PrivDev.key).trans (hinv.matched d.iface)).trans hrest.symm
        rw [List.map_cons, List.map_cons, hkey] at hboth
        simpa only [Change.apply, Kernel.setIface, Function.update_self] using hboth.cons_inv
      · simp only [Change.apply, Kernel.setIface, Function.update_of_ne hiface]
        rw [hothers iface hiface]
        exact hinv.matched iface

theorem Evolved.changed (h : Evolved leak m m') : ∃ c, Changed c m.k m'.k := by
  cases h with
  | same hc => exact ⟨_, hc⟩
  | added hc => exact ⟨_, hc⟩
  | removed hc => exact ⟨_, hc⟩

theorem ModuleInv.evolve (hinv : ModuleInv m) (h : Evolved leak m m') (hdrivers : DriversInv m') :
    ModuleInv m' := by
  obtain ⟨c, hc⟩ := h.changed
  exact ⟨hinv.store.changed hc, hdrivers, h.matched hinv⟩

/-! ### Removing a device -/

theorem SameStore.changed (h : SameStore k k') : Changed .keep k k' := ⟨h.ifaces, h.sems, h.next, trivial⟩

/-- The private device of a device. -/
theorem ModuleInv.exists_priv (hinv : ModuleInv m) (hd : d ∈ m.k.devs) :
    ∃ p ∈ m.table d.iface, p.key = d.key := by
  have hmem : d.key ∈ (m.k.ifaces d.iface).devList.map Dev.key :=
    List.mem_map_of_mem (hinv.store.mem_devs.mp hd)
  exact List.mem_map.mp ((hinv.matched d.iface).mem_iff.mpr hmem)

/-- The device of a private device. -/
theorem ModuleInv.exists_dev (hinv : ModuleInv m) {iface : HweIface} {p : PrivDev} (hp : p ∈ m.table iface) :
    ∃ d ∈ (m.k.ifaces iface).devList, d.key = p.key :=
  List.mem_map.mp ((hinv.matched iface).mem_iff.mp (List.mem_map_of_mem hp))

/-- What is left to do when the private device is destroyed. -/
theorem HwemuModule.shutdownDev_left (h : DriversInv m) {p : PrivDev} (hp : p ∈ m.table d.iface)
    (hdevice : d.device = some p.addr) :
    ∃ m₁, Left d.iface p m m₁ ∧ ∀ k₁, clearPairs d m₁.k = .ok k₁ → ∃ m', m.shutdownDev d = .ok m' ∧
      m'.k = (putDevIndex d.iface d.index (unlinkDev d k₁)).kfree d.addr ∧ SameDrivers m₁ m' ∧
      Registry.Trades (d.kobjs + p.objs d.iface) 0 m.objs m'.objs := by
  obtain ⟨m₁, hdestroy, hleft⟩ := destroyPriv_left h hp
  refine ⟨m₁, hleft, fun k₁ hclear => ?_⟩
  have hobjs := hleft.objs.frame d.kobjs
  rw [zero_add, add_comm] at hobjs
  unfold HwemuModule.shutdownDev
  rw [hdevice]
  dsimp only
  rw [hdestroy, Except.ok_bind, hclear, Except.ok_bind]
  refine ⟨_, rfl, ?_⟩
  unfold Dev.kobjs at hobjs ⊢
  cases hpairs : d.pairsKobj with
  | false =>
      rw [hpairs] at hobjs
      exact ⟨rfl, ⟨rfl, rfl, rfl, rfl⟩, hobjs.trans (.release _ 0 _)⟩
  | true =>
      rw [hpairs, if_pos rfl] at hobjs
      exact ⟨rfl, ⟨rfl, rfl, rfl, rfl⟩,
        (hobjs.trans (.release (KernelObj.pairsKobj d.addr) {KernelObj.devKobj d.addr} _)).trans (.release _ 0 _)⟩

/-- **Removal.** -/
theorem ModuleInv.shutdownDev (hinv : ModuleInv m) (hd : d ∈ m.k.devs) :
    ∃ m', m.shutdownDev d = .ok m' ∧ Changed (.removeDev d) m.k m'.k ∧ Evolved 0 m m' ∧ DriversInv m' := by
  obtain ⟨p, hp, hkey⟩ := hinv.exists_priv hd
  have hdevice : d.device = some p.addr := (congrArg Prod.fst hkey).symm
  obtain ⟨m₁, hleft, hrest⟩ := HwemuModule.shutdownDev_left hinv.drivers hp hdevice
  have hstore := hinv.store.congr hleft.store.ifaces hleft.store.next
  obtain ⟨k₁, hclear, hc⟩ := unlinkDev_changed hstore (mem_devs_congr hleft.store.ifaces hd)
  obtain ⟨m', hrun, hk, hsame, hobjs⟩ := hrest k₁ hclear
  have hchanged : Changed (.removeDev d) m.k m'.k := by
    rw [hk]
    exact (hleft.store.changed.keep_before hc).keep_after (Changed.kfree d.addr _)
  have hnext : m₁.k.heap.next ≤ m'.k.heap.next := by
    rw [hk]
    exact hc.next
  refine ⟨m', hrun, hchanged, .removed hchanged hkey ?_ ?_ hobjs, hleft.inv.congr hsame hnext⟩
  · rw [hsame.table]
    exact hleft.table
  · intro j hj
    rw [hsame.table]
    exact hleft.others.table hj

/-! ### Adding a device -/

/-- `m'` is `m` with the device `e`, which need not be complete, and its private device `p`. -/
structure Begun (e : Dev w) (p : PrivDev) (m m' : HwemuModule w) : Prop where
  drivers : DriversInv m'
  ifaces : m'.k.ifaces = ((Change.addDev e).apply m.k).ifaces
  sems : m'.k.sems = m.k.sems
  next : m.k.heap.next ≤ m'.k.heap.next
  fresh : m.k.heap.next ≤ e.addr
  index : e.index = Bitmap.findFirstZeroBit (m.k.ifaces e.iface).devIndexes
  key : p.key = e.key
  pairs : e.pairList = []
  self : (m'.table e.iface).Perm (p :: m.table e.iface)
  others : ∀ j, j ≠ e.iface → m'.table j = m.table j
  objs : Registry.Trades 0 (e.kobjs + p.objs e.iface) m.objs m'.objs

namespace Begun

variable {e : Dev w} {p : PrivDev}

/-- A write to the record. -/
theorem modify (h : Begun e p m m') (hinv : ModuleInv m) {f : Dev w → Dev w} (hkey : (f e).key = e.key)
    (hiface : (f e).iface = e.iface) (hpairs : (f e).pairList = e.pairList)
    (hkobjs : (f e).kobjs = e.kobjs) : Begun (f e) p m (m'.setKernel (m'.k.modifyDev e.addr f)) := by
  have haddr : (f e).addr = e.addr := congrArg (fun key => key.2.1) hkey
  have hindex : (f e).index = e.index := congrArg (fun key => key.2.2) hkey
  have hsame : SameDrivers m' (m'.setKernel (m'.k.modifyDev e.addr f)) := ⟨rfl, rfl, rfl, rfl⟩
  refine ⟨h.drivers.congr hsame le_rfl, hinv.store.modifyDev_addDev h.fresh hiface hindex h.ifaces, h.sems,
    h.next, haddr ▸ h.fresh, ?_, h.key.trans hkey.symm, hpairs.trans h.pairs, ?_, ?_, ?_⟩
  · rw [hindex, hiface]
    exact h.index
  · rw [hiface]
    exact h.self
  · rw [hiface]
    exact h.others
  · rw [hkobjs, hiface]
    exact h.objs

/-- The device is given up. -/
theorem abandon (h : Begun e p m m') (hinv : ModuleInv m) :
    ∃ m'', m'.shutdownDev e = .ok m'' ∧ Changed .keep m.k m''.k ∧ Evolved 0 m m'' ∧ DriversInv m'' := by
  have hp : p ∈ m'.table e.iface := h.self.mem_iff.mpr List.mem_cons_self
  obtain ⟨m₁, hleft, hrest⟩ :=
    HwemuModule.shutdownDev_left h.drivers hp (congrArg Prod.fst h.key).symm
  have hclear : clearPairs e m₁.k = .ok m₁.k := by
    unfold clearPairs
    rw [h.pairs]
    rfl
  obtain ⟨m'', hrun, hk, hsame, hobjs⟩ := hrest m₁.k hclear
  have hifaces : m''.k.ifaces = m.k.ifaces := by
    rw [hk]
    exact hinv.store.unlinkDev_addDev h.fresh h.index (hleft.store.ifaces.trans h.ifaces)
  have hsems : m''.k.sems = m.k.sems := by
    rw [hk]
    exact hleft.store.sems.trans h.sems
  have hnext : m₁.k.heap.next ≤ m''.k.heap.next := by
    rw [hk]
    exact le_rfl
  have hkeep : Changed .keep m.k m''.k :=
    ⟨hifaces, hsems, (h.next.trans hleft.store.next).trans hnext, trivial⟩
  refine ⟨m'', hrun, hkeep, ?_, hleft.inv.congr hsame hnext⟩
  refine .same hkeep trivial (fun j => ?_) (h.objs.trans hobjs)
  rw [hsame.table]
  by_cases hj : j = e.iface
  · subst hj
    exact (hleft.table.trans h.self).cons_inv
  · rw [hleft.others.table hj, h.others j hj]

/-- The device gets the directory of its pairs, and is complete. -/
theorem complete (h : Begun e p m m') (hinv : ModuleInv m) (hbits : e.pairsIndexes = 0) (hkobj : e.pairsKobj = false)
    (hpublished : ({ e with pairsKobj := true } : Dev w).Published) (haddr : e.addr < m'.k.heap.next)
    (hroom : e.index ≠ hweMaxDevices) :
    let m'' := (m'.setKernel (m'.k.modifyDev e.addr fun d => { d with pairsKobj := true })).register (.pairsKobj e.addr)
    Evolved 0 m m'' ∧ DriversInv m'' ∧ Changed (.addDev { e with pairsKobj := true }) m.k m''.k := by
  intro m''
  have hsame : SameDrivers m' m'' := ⟨rfl, rfl, rfl, rfl⟩
  have hifaces := @StoreInv.modifyDev_addDev _ _ _ hinv.store e h.fresh (fun d => { d with pairsKobj := true }) rfl rfl
    h.ifaces
  have hadded : Changed (.addDev { e with pairsKobj := true }) m.k m''.k :=
    ⟨hifaces, h.sems, h.next, h.pairs, hbits, hpublished, h.fresh, haddr, hroom, h.index⟩
  have hkobjs : ({ e with pairsKobj := true } : Dev w).kobjs = .pairsKobj e.addr ::ₘ e.kobjs := by
    unfold Dev.kobjs
    rw [hkobj]
    rfl
  have hobjs : Registry.Trades 0 (0 + (({ e with pairsKobj := true } : Dev w).kobjs + p.objs e.iface)) m.objs
      m''.objs := by
    rw [zero_add, hkobjs, Multiset.cons_add]
    exact h.objs.trans (.acquire _ _ _)
  refine ⟨.added hadded h.key ?_ ?_ hobjs, h.drivers.congr hsame le_rfl, hadded⟩
  · rw [hsame.table]
    exact h.self
  · intro j hj
    rw [hsame.table]
    exact h.others j hj

end Begun

/-! ### The record of a device -/

/-- `k'` is the store after the record `e` of a new device was put into it. -/
structure Taken (e : Dev w) (k k' : Kernel w) : Prop where
  addr : e.addr = k.heap.next
  index : e.index = Bitmap.findFirstZeroBit (k.ifaces e.iface).devIndexes
  pairs : e.pairList = []
  bits : e.pairsIndexes = 0
  kobj : e.pairsKobj = false
  ifaces : k'.ifaces = ((Change.addDev e).apply k).ifaces
  sems : k'.sems = k.sems
  next : k'.heap.next = k.heap.next + 1

namespace Taken

variable {e : Dev w} {k₁ : Kernel w} {m₁ : HwemuModule w} {leak : Multiset KernelObj}

theorem le_next (h : Taken e m.k k₁) : m.k.heap.next ≤ k₁.heap.next := h.next ▸ Nat.le_succ _

/-- The record is given back when no private device was created. -/
theorem giveBack (h : Taken e m.k k₁) (hinv : ModuleInv m) (huntouched : Untouched leak (m.setKernel k₁) m₁) :
    Changed .keep m.k (delDev e m₁.k) ∧ Evolved leak m (m₁.setKernel (delDev e m₁.k)) ∧
      DriversInv (m₁.setKernel (delDev e m₁.k)) := by
  have hkeep : Changed .keep m.k (delDev e m₁.k) :=
    ⟨hinv.store.unlinkDev_addDev h.addr.ge h.index (huntouched.store.ifaces.trans h.ifaces),
      huntouched.store.sems.trans h.sems, h.le_next.trans huntouched.store.next, trivial⟩
  refine ⟨hkeep, .same hkeep trivial (fun j => ?_) huntouched.objs, huntouched.inv.congr ⟨rfl, rfl, rfl, rfl⟩ le_rfl⟩
  have htable : (m₁.setKernel (delDev e m₁.k)).table j = m.table j := congrFun huntouched.table j
  rw [htable]

/-- The record gets its private device, and its directory counts from then on. -/
theorem begun (h : Taken e m.k k₁) (hinv : ModuleInv m) {a : Nat}
    (hentered : Entered e.iface { addr := a, hwedev := e.addr, index := e.index } (m.setKernel k₁) m₁) :
    Begun { e with device := some a } { addr := a, hwedev := e.addr, index := e.index } m
      ((m₁.setKernel (m₁.k.modifyDev e.addr fun d => { d with device := some a })).register (.devKobj e.addr)) := by
  have hfresh : m.k.heap.next ≤ e.addr := h.addr.ge
  have hsame : SameDrivers m₁ ((m₁.setKernel (m₁.k.modifyDev e.addr fun d => { d with device := some a })).register
    (.devKobj e.addr)) := ⟨rfl, rfl, rfl, rfl⟩
  have hkobjs : ({ e with device := some a } : Dev w).kobjs = {.devKobj e.addr} := by
    unfold Dev.kobjs
    rw [show ({ e with device := some a } : Dev w).pairsKobj = false from h.kobj]
    rfl
  refine ⟨hentered.inv.congr hsame le_rfl,
    @StoreInv.modifyDev_addDev _ _ _ hinv.store e hfresh (fun d => { d with device := some a }) rfl rfl
      (hentered.store.ifaces.trans h.ifaces),
    hentered.store.sems.trans h.sems, h.le_next.trans hentered.store.next, hfresh, h.index, rfl, h.pairs, ?_, ?_, ?_⟩
  · rw [hsame.table]
    exact hentered.table
  · intro j hj
    rw [hsame.table]
    exact hentered.others.table hj
  · rw [hkobjs, Multiset.singleton_add]
    exact hentered.objs.trans (.acquire _ _ _)

end Taken

/-- No device has the free index, so the slot of the tty driver is free. -/
theorem ModuleInv.slot_free (hinv : ModuleInv m) :
    m.ttyDevices (Bitmap.findFirstZeroBit (m.k.ifaces .tty).devIndexes) = none := by
  cases hslot : m.ttyDevices (Bitmap.findFirstZeroBit (m.k.ifaces .tty).devIndexes) with
  | none => rfl
  | some p =>
      obtain ⟨hindex, hlt⟩ := hinv.drivers.slot _ p hslot
      obtain ⟨d, hd, hkey⟩ := hinv.exists_dev (mem_table_tty.mpr ⟨_, hlt, hslot⟩)
      have hused : d.index ∈ (m.k.ifaces .tty).devList.map (·.index) := List.mem_map_of_mem hd
      rw [show d.index = p.index from congrArg (fun key => key.2.2) hkey, hindex] at hused
      exact absurd hused (hinv.store.indexes .tty).notMem_findFirstZeroBit

/-- `new_dev` comes as far as calling `create`. -/
def AddDeviceEnv.Creates (env : AddDeviceEnv) (iface : HweIface) (k : Kernel w) : Prop :=
  (findFreeDevIndex iface k).isSome = true ∧ env.kzalloc = true

/-- The allocation of a net device fails after `hwenet_init` has run. -/
def AddDeviceEnv.FailsAfterSetup (env : AddDeviceEnv) (iface : HweIface) (k : Kernel w) : Prop :=
  iface = .net ∧ env.Creates iface k ∧ env.create.allocNetdev = .failsAfter

/-- A master stays registered for which `spi_new_device` failed. -/
def AddDeviceEnv.LeavesMaster (env : AddDeviceEnv) (iface : HweIface) (k : Kernel w) : Prop :=
  iface = .spi ∧ env.Creates iface k ∧ env.create.LeavesMaster

/-- What the store is after an addition that returned `r`. -/
def NewDevDone (iface : HweIface) (k k' : Kernel w) : Option (Dev w) → Prop
  | none => Changed .keep k k'
  | some d => d.iface = iface ∧ Changed (.addDev d) k k'

/-- **Addition**, with what is returned. -/
theorem ModuleInv.newDev_done (hinv : ModuleInv m) {env : AddDeviceEnv} {iface : HweIface}
    (hsetup : ¬env.FailsAfterSetup iface m.k) :
    ∃ leak r m', m.newDev env iface = .ok (r, m') ∧ Evolved leak m m' ∧ DriversInv m' ∧
      (leak ≠ 0 → env.LeavesMaster iface m.k) ∧ NewDevDone iface m.k m'.k r := by
  unfold HwemuModule.newDev
  cases hfree : findFreeDevIndex iface m.k with
  | none => exact ⟨0, none, m, rfl, .refl m, hinv.drivers, absurd rfl, Changed.refl m.k⟩
  | some idx =>
      obtain ⟨hidx, hroom⟩ := findFreeDevIndex_eq_some hfree
      cases hkzalloc : env.kzalloc with
      | false => exact ⟨0, none, m, rfl, .refl m, hinv.drivers, absurd rfl, Changed.refl m.k⟩
      | true =>
          have hcreates : env.Creates iface m.k := ⟨by rw [hfree]; rfl, hkzalloc⟩
          obtain ⟨e, k₁, hadd, ⟨haddr, rfl, rfl, hpairs, hbits, hkobj⟩, hk₁, hsems, hnext⟩ :=
            addDev_some iface idx m.k
          have htaken : Taken e m.k k₁ := ⟨haddr, hidx, hpairs, hbits, hkobj, hk₁, hsems, hnext⟩
          have hindex : e.index < hweMaxDevices := by
            have hle := Bitmap.findFirstZeroBit_le (m.k.ifaces e.iface).devIndexes
            omega
          have hslot : e.iface = .tty → (m.setKernel k₁).ttyDevices e.index = none := by
            intro htty
            rw [hidx, htty]
            exact hinv.slot_free
          have hdrivers : DriversInv (m.setKernel k₁) := hinv.drivers.congr ⟨rfl, rfl, rfl, rfl⟩ htaken.le_next
          simp only [hadd]
          rcases createPriv_created hdrivers e.iface hindex hslot
              (fun hnet hfails => hsetup ⟨hnet, hcreates, hfails⟩) with
            ⟨leak, m₁, hcreate, huntouched, hleak⟩ | ⟨a, m₁, hcreate, hentered⟩
          · rw [hcreate]
            obtain ⟨hkeep, hevolved, hdrivers'⟩ := htaken.giveBack hinv huntouched
            refine ⟨leak, none, m₁.setKernel (delDev e m₁.k), rfl, hevolved, hdrivers', fun hne => ?_, hkeep⟩
            obtain ⟨hspi, hleaves⟩ := hleak hne
            exact ⟨hspi, hcreates, hleaves⟩
          · rw [hcreate, Except.ok_bind]
            dsimp only
            have hbegun := htaken.begun hinv hentered
            cases env.kobjectInitAndAdd with
            | some err =>
                obtain ⟨m', hrun, hkeep, hevolved, hdrivers⟩ := hbegun.abandon hinv
                exact ⟨0, none, m', Except.bind_of_eq_ok hrun _, hevolved, hdrivers, absurd rfl, hkeep⟩
            | none =>
                have hnamed := @Begun.modify _ _ _ _ _ hbegun hinv
                  (fun d => { d with name := devName e.iface e.index }) rfl rfl rfl rfl
                cases env.kobjectCreateAndAdd with
                | false =>
                    obtain ⟨m', hrun, hkeep, hevolved, hdrivers⟩ := hnamed.abandon hinv
                    exact ⟨0, none, m', Except.bind_of_eq_ok hrun _, hevolved, hdrivers, absurd rfl, hkeep⟩
                | true =>
                    have hlt : e.addr < m₁.k.heap.next := by
                      have hgrown := hentered.store.next
                      change k₁.heap.next ≤ m₁.k.heap.next at hgrown
                      omega
                    obtain ⟨hevolved, hdrivers, hadded⟩ := hnamed.complete hinv hbits hkobj ⟨rfl, rfl, rfl⟩ hlt hroom
                    exact ⟨0, _, _, rfl, hevolved, hdrivers, absurd rfl, rfl, hadded⟩

/-- **Addition.** -/
theorem ModuleInv.newDev (hinv : ModuleInv m) {env : AddDeviceEnv} {iface : HweIface}
    (hsetup : ¬env.FailsAfterSetup iface m.k) :
    ∃ leak r m', m.newDev env iface = .ok (r, m') ∧ Evolved leak m m' ∧ DriversInv m' ∧
      (leak ≠ 0 → env.LeavesMaster iface m.k) := by
  obtain ⟨leak, r, m', hnew, hevolved, hdrivers, hleak, _⟩ := hinv.newDev_done hsetup
  exact ⟨leak, r, m', hnew, hevolved, hdrivers, hleak⟩

end Hwemu
