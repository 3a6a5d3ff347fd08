import Hwemu.LoadSteps

/-!
# Taking devices down without the semaphore

While `cleanup_iface` shuts a device down, no other device is affected: its private device is alive and none
of its memory is freed. The device itself is in the list until `list_del`, with a private device that is
destroyed already. Operations may change the other interfaces in the meantime.
-/

namespace Hwemu

variable {w : Nat} {HZ : Nat} {k k' : Kernel w} {d dev : Dev w} {torn : Option (Dev w)} {rest : Multiset ℕ}
  {iface : HweIface}

/-- The private device was created, and has not been destroyed since. -/
def Kernel.Alive (k : Kernel w) (priv : Nat) : Prop := priv < k.heap.next ∧ priv ∉ k.heap.freed

/-- The store without the device that is being shut down. -/
def Kernel.without (torn : Option (Dev w)) (k : Kernel w) : Kernel w :=
  match torn with
  | none => k
  | some dev => unlinkDev dev k

/-- The memory, where `rest` is what the device that is being shut down has not given back yet. -/
def Kernel.ledgerBut (torn : Option (Dev w)) (rest : Multiset ℕ) (k : Kernel w) : Ledger where
  next := k.heap.next
  owned := (k.without torn).ledger.owned + rest
  freed := k.heap.freed

/-- Every device is in order, but for one that may be in the middle of `shutdown_dev`. -/
structure InOrder (torn : Option (Dev w)) (rest : Multiset ℕ) (k : Kernel w) : Prop where
  nodup : k.AddrsNodup
  home : ∀ iface, ∀ d ∈ (k.ifaces iface).devList, d.iface = iface
  device : ∀ d ∈ k.devs, d.device.isSome = true
  owner : ∀ d ∈ k.devs, ∀ p ∈ d.pairList, p.dev = d.addr
  self : ∀ dev ∈ torn, ∀ d ∈ (k.ifaces dev.iface).devList, d.addr = dev.addr → d.device = dev.device
  sound : (k.ledgerBut torn rest).Sound

/-! ### What is in use -/

theorem mem_sum_map {α : Type*} {f : α → Multiset ℕ} {l : List α} {a : ℕ} : a ∈ (l.map f).sum ↔ ∃ x ∈ l, a ∈ f x := by
  induction l with
  | nil => simp
  | cons x l ih => simp [ih]

theorem Kernel.owned_eq (k : Kernel w) : k.ledger.owned = (k.devs.map Dev.blocks).sum := by
  simp [ledger, devs, HweIface.all, Iface.blocks]

theorem Kernel.mem_owned {a : ℕ} (hd : d ∈ k.devs) (ha : a ∈ d.blocks) : a ∈ k.ledger.owned := by
  rw [Kernel.owned_eq]
  exact mem_sum_map.mpr ⟨d, hd, ha⟩

theorem Kernel.owned_of_lists (h : ∀ iface, (k'.ifaces iface).devList = (k.ifaces iface).devList) :
    k'.ledger.owned = k.ledger.owned := by
  simp only [ledger, Iface.blocks, h]

/-- All that is in use, where one interface has all devices. -/
theorem Kernel.owned_of_others (h : ∀ j, j ≠ iface → (k.ifaces j).devList = []) :
    k.ledger.owned = (k.ifaces iface).blocks := by
  have hnone : ∀ j, j ≠ iface → (k.ifaces j).blocks = 0 := by
    intro j hj
    rw [Iface.blocks, h j hj]
    rfl
  cases iface <;> simp [ledger, HweIface.all, hnone]

theorem Dev.priv_mem_blocks {priv : Nat} (h : d.device = some priv) : priv ∈ d.blocks := by
  simp [blocks, h]

theorem Dev.addr_mem_blocks (d : Dev w) : d.addr ∈ d.blocks := Multiset.mem_cons_self _ _

theorem Kernel.mem_devs_without (hd : d ∈ (k.ifaces iface).devList)
    (hne : ∀ dev ∈ torn, dev.iface = iface → d.addr ≠ dev.addr) : d ∈ (k.without torn).devs := by
  cases torn with
  | none => exact Kernel.mem_devs_of_mem hd
  | some dev =>
      refine Kernel.mem_devs.mpr ⟨iface, ?_⟩
      change d ∈ ((unlinkDev dev k).ifaces iface).devList
      by_cases hiface : dev.iface = iface
      · subst hiface
        simp only [unlinkDev, Kernel.setIface, Function.update_self]
        exact List.mem_filter.mpr ⟨hd, decide_eq_true (hne dev rfl rfl)⟩
      · simp only [unlinkDev, Kernel.setIface, Function.update_of_ne (Ne.symm hiface)]
        exact hd

namespace InOrder

/-- A block that is in use is alive. -/
theorem alive_of_owned {a : ℕ} (h : InOrder torn rest k) (ha : a ∈ (k.ledgerBut torn rest).owned) : k.Alive a := by
  refine ⟨h.sound.lt a (Multiset.mem_add.mpr (Or.inl ha)), fun hfreed => ?_⟩
  obtain ⟨_, _, hdisjoint⟩ := Multiset.nodup_add.mp h.sound.nodup
  exact Multiset.disjoint_left.mp hdisjoint ha hfreed

theorem exists_device (h : InOrder torn rest k) (hd : d ∈ (k.ifaces iface).devList) : ∃ priv, d.device = some priv :=
  Option.isSome_iff_exists.mp (h.device d (Kernel.mem_devs_of_mem hd))

/-- The private device of every other device is alive. -/
theorem alive (h : InOrder torn rest k) (hd : d ∈ (k.ifaces iface).devList)
    (hne : ∀ dev ∈ torn, dev.iface = iface → d.addr ≠ dev.addr) : ∃ priv, d.device = some priv ∧ k.Alive priv := by
  obtain ⟨priv, hpriv⟩ := h.exists_device hd
  have hmem := Kernel.mem_owned (Kernel.mem_devs_without hd hne) (Dev.priv_mem_blocks hpriv)
  exact ⟨priv, hpriv, h.alive_of_owned (Multiset.mem_add.mpr (Or.inl hmem))⟩

/-- The address of the device that is being shut down is that of no device of another interface. -/
theorem addr_ne (h : InOrder (some dev) rest k) (haddr : dev.addr ∈ rest) (hne : iface ≠ dev.iface)
    (hd : d ∈ (k.ifaces iface).devList) : d.addr ≠ dev.addr := by
  intro heq
  have hother : ∀ dev' ∈ some dev, dev'.iface = iface → d.addr ≠ dev'.addr := by
    intro dev' hdev' hiface
    obtain rfl := Option.mem_some_iff.mp hdev'
    exact absurd hiface.symm hne
  have hmem := Kernel.mem_owned (Kernel.mem_devs_without hd hother) d.addr_mem_blocks
  obtain ⟨howned, _, _⟩ := Multiset.nodup_add.mp h.sound.nodup
  exact Multiset.disjoint_left.mp (Multiset.nodup_add.mp howned).2.2 hmem (heq ▸ haddr)

theorem of_empty (h : k.ifaces = fun _ => { devList := [], devIndexes := 0 }) (hfreed : k.heap.freed = []) :
    InOrder none 0 k := by
  have hlist : ∀ iface, (k.ifaces iface).devList = [] := fun iface => by rw [h]
  have hdevs : ∀ d, d ∉ k.devs := by
    intro d hd
    obtain ⟨iface, hd⟩ := Kernel.mem_devs.mp hd
    rw [hlist] at hd
    exact List.not_mem_nil hd
  have htotal : (k.ledgerBut none 0).total = 0 := by
    have howned : k.ledger.owned = (k.ifaces .tty).blocks := Kernel.owned_of_others fun j _ => hlist j
    rw [Iface.blocks, hlist] at howned
    simp only [Ledger.total, Kernel.ledgerBut, Kernel.without, howned, hfreed]
    rfl
  refine ⟨fun iface => ?_, fun iface d hd => absurd (Kernel.mem_devs_of_mem hd) (hdevs d),
    fun d hd => absurd hd (hdevs d), fun d hd => absurd hd (hdevs d),
    fun dev hdev => absurd hdev (Option.not_mem_none dev), ⟨?_, fun a ha => ?_⟩⟩
  · rw [hlist]
    exact List.nodup_nil
  · rw [htotal]
    exact Multiset.nodup_zero
  · rw [htotal] at ha
    exact absurd ha (Multiset.notMem_zero a)

/-- `shutdown_dev` begins. -/
theorem start (h : InOrder none 0 k) (hd : dev ∈ (k.ifaces dev.iface).devList) : InOrder (some dev) dev.blocks k := by
  refine ⟨h.nodup, h.home, h.device, h.owner, fun dev' hdev' d hd' haddr => ?_, ?_⟩
  · obtain rfl := Option.mem_some_iff.mp hdev'
    rw [List.inj_on_of_nodup_map (h.nodup dev.iface) hd' hd haddr]
  · have howned : (k.ledgerBut (some dev) dev.blocks).owned = (k.ledgerBut none 0).owned := by
      have hunlink := Kernel.owned_unlinkDev (h.nodup dev.iface) hd
      rw [add_comm] at hunlink
      exact hunlink.trans (add_zero _).symm
    have hledger : k.ledgerBut (some dev) dev.blocks = k.ledgerBut none 0 := by
      rw [Kernel.ledgerBut, Kernel.ledgerBut, Ledger.mk.injEq]
      exact ⟨rfl, howned, rfl⟩
    rw [hledger]
    exact h.sound

/-- `shutdown_dev` is over: the device is in no list. -/
theorem finish (h : InOrder (some dev) 0 k) (hgone : ∀ d ∈ (k.ifaces dev.iface).devList, d.addr ≠ dev.addr) :
    InOrder none 0 k := by
  refine ⟨h.nodup, h.home, h.device, h.owner, fun dev hdev => absurd hdev (Option.not_mem_none dev), ?_⟩
  have hlists : ∀ iface, ((k.without (some dev)).ifaces iface).devList = (k.ifaces iface).devList := by
    intro iface
    change ((unlinkDev dev k).ifaces iface).devList = _
    by_cases hiface : iface = dev.iface
    · subst hiface
      simp only [unlinkDev, Kernel.setIface, Function.update_self]
      exact Keyed.filter_of_ne hgone
    · simp only [unlinkDev, Kernel.setIface, Function.update_of_ne hiface]
  have hsound := h.sound
  rw [Kernel.ledgerBut, Kernel.owned_of_lists hlists] at hsound
  exact hsound

/-! ### Ticks -/

theorem ticked {jiff : BitVec w} {free : HweIface → Bool} (h : InOrder torn rest k)
    (hifaces : k'.ifaces = fun iface => if free iface then (k.ifaces iface).ticked jiff else k.ifaces iface)
    (hheap : k'.heap = k.heap) : InOrder torn rest k' := by
  have hdevs : ∀ iface, ∀ d' ∈ (k'.ifaces iface).devList, ∃ d ∈ (k.ifaces iface).devList,
      d'.addr = d.addr ∧ d'.iface = d.iface ∧ d'.device = d.device ∧ ∀ p' ∈ d'.pairList, ∃ p ∈ d.pairList, p'.dev = p.dev := by
    intro iface d' hd'
    rw [hifaces] at hd'
    dsimp only at hd'
    split at hd'
    · obtain ⟨d, hd, rfl⟩ := List.mem_map.mp hd'
      refine ⟨d, hd, rfl, rfl, rfl, fun p' hp' => ?_⟩
      obtain ⟨p, hp, rfl⟩ := List.mem_map.mp hp'
      obtain ⟨time, htime⟩ := timerPair_same jiff p
      exact ⟨p, hp, by rw [htime]⟩
    · exact ⟨d', hd', rfl, rfl, rfl, fun p hp => ⟨p, hp, rfl⟩⟩
  have haddrs : ∀ iface, (k'.ifaces iface).devList.map (·.addr) = (k.ifaces iface).devList.map (·.addr) := by
    intro iface
    rw [hifaces]
    dsimp only
    split
    · rw [Iface.ticked, List.map_map]
      rfl
    · rfl
  have hwithout : (k'.without torn).ifaces = fun iface =>
      if free iface then ((k.without torn).ifaces iface).ticked jiff else (k.without torn).ifaces iface := by
    cases torn with
    | none => exact hifaces
    | some dev =>
        funext iface
        change (unlinkDev dev k').ifaces iface =
          if free iface then ((unlinkDev dev k).ifaces iface).ticked jiff else (unlinkDev dev k).ifaces iface
        by_cases hiface : iface = dev.iface
        · subst hiface
          simp only [unlinkDev, Kernel.setIface, Function.update_self, hifaces]
          split
          · simp only [Iface.ticked, List.filter_map]
            rfl
          · rfl
        · simp only [unlinkDev, Kernel.setIface, Function.update_of_ne hiface, hifaces]
  refine ⟨fun iface => ?_, fun iface d' hd' => ?_, fun d' hd' => ?_, fun d' hd' p' hp' => ?_, fun dev hdev d' hd' haddr => ?_, ?_⟩
  · rw [haddrs]
    exact h.nodup iface
  · obtain ⟨d, hd, _, hiface, _⟩ := hdevs iface d' hd'
    exact hiface.trans (h.home iface d hd)
  · obtain ⟨iface, hd'⟩ := Kernel.mem_devs.mp hd'
    obtain ⟨d, hd, _, _, hdevice, _⟩ := hdevs iface d' hd'
    rw [hdevice]
    exact h.device d (Kernel.mem_devs_of_mem hd)
  · obtain ⟨iface, hd'⟩ := Kernel.mem_devs.mp hd'
    obtain ⟨d, hd, haddr, _, _, hpairs⟩ := hdevs iface d' hd'
    obtain ⟨p, hp, hdev⟩ := hpairs p' hp'
    rw [hdev, haddr]
    exact h.owner d (Kernel.mem_devs_of_mem hd) p hp
  · obtain ⟨d, hd, haddr', _, hdevice, _⟩ := hdevs dev.iface d' hd'
    exact hdevice.trans (h.self dev hdev d hd (haddr'.symm.trans haddr))
  · have hheaps : (k'.without torn).heap = (k.without torn).heap := by
      cases torn with
      | none => exact hheap
      | some dev => exact hheap
    have hledger := ledger_ticked hwithout hheaps
    have hsame : k'.ledgerBut torn rest = k.ledgerBut torn rest := by
      rw [Kernel.ledgerBut, Kernel.ledgerBut, hledger, hheap]
    rw [hsame]
    exact h.sound

end InOrder

/-! ### The statements of `shutdown_dev` -/

/-- After `list_del` the device is in no list. -/
theorem unlinkDev_addr_ne : ∀ d ∈ ((unlinkDev dev k).ifaces dev.iface).devList, d.addr ≠ dev.addr := by
  intro d hd
  simp only [unlinkDev, Kernel.setIface, Function.update_self] at hd
  simpa using (List.mem_filter.mp hd).2

/-- The blocks that a statement frees. -/
def ShutdownStmt.frees (dev : Dev w) : ShutdownStmt w → Multiset ℕ
  | destroy => ↑dev.device.toList
  | kfreePair pair => {pair.addr}
  | kobjectPut => {dev.addr}
  | _ => 0

/-- What a statement writes to is the device. -/
def ShutdownStmt.Of (dev : Dev w) : ShutdownStmt w → Prop
  | clearBit pair => pair.dev = dev.addr
  | _ => True

theorem ShutdownStmt.of_mem {stmt : ShutdownStmt w} (howner : ∀ p ∈ dev.pairList, p.dev = dev.addr)
    (h : stmt ∈ shutdownStmts dev) : stmt.Of dev := by
  cases stmt with
  | clearBit pair =>
      simp only [shutdownStmts, pairDeleteStmts, List.mem_cons, reduceCtorEq, List.mem_append, List.mem_flatMap,
        List.not_mem_nil, or_false, false_or] at h
      obtain ⟨p, hp, heq⟩ := h
      injection heq with heq
      rw [ShutdownStmt.Of, heq]
      exact howner p hp
  | _ => trivial

/-- Together the statements free the memory of the device. -/
theorem sum_frees_shutdownStmts (dev : Dev w) : ((shutdownStmts dev).map (ShutdownStmt.frees dev)).sum = dev.blocks := by
  have hpairs : ∀ pairs : List (Pair w), ((pairs.flatMap pairDeleteStmts).map (ShutdownStmt.frees dev)).sum =
      (↑(pairs.map (·.addr)) : Multiset ℕ) := by
    intro pairs
    induction pairs with
    | nil => rfl
    | cons p pairs ih =>
        rw [List.flatMap_cons, List.map_append, List.sum_append, ih]
        simp [pairDeleteStmts, ShutdownStmt.frees]
  rw [shutdownStmts, List.map_cons, List.sum_cons, List.map_append, List.sum_append, hpairs]
  simp only [ShutdownStmt.frees, List.map_cons, List.map_nil, List.sum_cons, List.sum_nil, zero_add, add_zero,
    Dev.blocks, ← Multiset.coe_add]
  rw [← Multiset.singleton_add, ← add_assoc, add_comm]

/-- A statement of `shutdown_dev` touches one device. The others, and the other interfaces, stay as they are. -/
structure Reduces (dev : Dev w) (k k' : Kernel w) : Prop where
  others : ∀ iface, iface ≠ dev.iface → k'.ifaces iface = k.ifaces iface
  addrs : ((k'.ifaces dev.iface).devList.map (·.addr)).Sublist ((k.ifaces dev.iface).devList.map (·.addr))
  devs : ∀ d' ∈ (k'.ifaces dev.iface).devList, ∃ d ∈ (k.ifaces dev.iface).devList,
    d'.addr = d.addr ∧ d'.iface = d.iface ∧ d'.device = d.device ∧ ∀ p ∈ d'.pairList, p ∈ d.pairList
  rest : ((unlinkDev dev k').ifaces dev.iface).devList = ((unlinkDev dev k).ifaces dev.iface).devList
  next : k'.heap.next = k.heap.next
  sems : k'.sems = k.sems

namespace Reduces

theorem of_ifaces (hifaces : k'.ifaces = k.ifaces) (hnext : k'.heap.next = k.heap.next) (hsems : k'.sems = k.sems) :
    Reduces dev k k' := by
  refine ⟨fun iface _ => congrFun hifaces iface, ?_, fun d hd => ⟨d, ?_, rfl, rfl, rfl, fun _ hp => hp⟩, ?_, hnext,
    hsems⟩
  · rw [hifaces]
  · rwa [hifaces] at hd
  · simp only [unlinkDev, Kernel.setIface, Function.update_self, hifaces]

theorem modifyDev {f : Dev w → Dev w} (hothers : ∀ iface, iface ≠ dev.iface → ∀ d ∈ (k.ifaces iface).devList, d.addr ≠ dev.addr)
    (hf : ∀ d, (f d).addr = d.addr ∧ (f d).iface = d.iface ∧ (f d).device = d.device ∧
      ∀ p ∈ (f d).pairList, p ∈ d.pairList) : Reduces dev k (k.modifyDev dev.addr f) := by
  have hlist : ∀ iface, ((k.modifyDev dev.addr f).ifaces iface).devList =
      (k.ifaces iface).devList.map fun d => if d.addr = dev.addr then f d else d := fun _ => rfl
  refine ⟨fun iface hne => ?_, ?_, fun d' hd' => ?_, ?_, rfl, rfl⟩
  · have hsame := hlist iface
    rw [Keyed.map_of_ne (hothers iface hne)] at hsame
    simp only [Kernel.modifyDev] at hsame ⊢
    rw [hsame]
  · have haddrs : ((k.modifyDev dev.addr f).ifaces dev.iface).devList.map (·.addr) =
        (k.ifaces dev.iface).devList.map (·.addr) := by
      rw [hlist, List.map_map]
      refine List.map_congr_left fun d _ => ?_
      rw [Function.comp_apply]
      split
      · exact (hf d).1
      · rfl
    rw [haddrs]
  · rw [hlist] at hd'
    obtain ⟨d, hd, rfl⟩ := List.mem_map.mp hd'
    refine ⟨d, hd, ?_⟩
    split
    · exact hf d
    · exact ⟨rfl, rfl, rfl, fun _ hp => hp⟩
  · simp only [unlinkDev, Kernel.setIface, Function.update_self, hlist]
    exact Keyed.filter_map_ne fun d => (hf d).1

theorem setIface {ifc : Iface w} (hsub : ifc.devList.Sublist (k.ifaces dev.iface).devList)
    (hrest : (ifc.devList.filter fun d => d.addr ≠ dev.addr) =
      (k.ifaces dev.iface).devList.filter fun d => d.addr ≠ dev.addr) : Reduces dev k (k.setIface dev.iface ifc) := by
  have hself : (k.setIface dev.iface ifc).ifaces dev.iface = ifc := Function.update_self ..
  refine ⟨fun iface hne => Function.update_of_ne hne .., ?_, fun d hd => ⟨d, ?_, rfl, rfl, rfl, fun _ hp => hp⟩, ?_, rfl,
    rfl⟩
  · rw [hself]
    exact hsub.map _
  · rw [hself] at hd
    exact hsub.subset hd
  · simp only [unlinkDev, hself]
    simp only [Kernel.setIface, Function.update_self]
    exact hrest

end Reduces

theorem ShutdownStmt.reduces {stmt : ShutdownStmt w} (h : stmt.Of dev)
    (hothers : ∀ iface, iface ≠ dev.iface → ∀ d ∈ (k.ifaces iface).devList, d.addr ≠ dev.addr) :
    Reduces dev k (stmt.exec dev k) ∧ ((stmt.exec dev k).heap.freed : Multiset ℕ) = stmt.frees dev + ↑k.heap.freed := by
  cases stmt with
  | destroy =>
      change Reduces dev k (destroyIfCreated dev k) ∧ ((destroyIfCreated dev k).heap.freed : Multiset ℕ) = _
      unfold destroyIfCreated ShutdownStmt.frees
      cases dev.device with
      | none => exact ⟨.of_ifaces rfl rfl rfl, (zero_add _).symm⟩
      | some priv => exact ⟨.of_ifaces rfl rfl rfl, rfl⟩
  | clearBit pair =>
      refine ⟨?_, (zero_add _).symm⟩
      change Reduces dev k (k.modifyDev pair.dev _)
      rw [show pair.dev = dev.addr from h]
      exact .modifyDev hothers fun d => ⟨rfl, rfl, rfl, fun _ hp => hp⟩
  | listDelPair pair =>
      exact ⟨.modifyDev hothers fun d => ⟨rfl, rfl, rfl, fun p hp => List.mem_of_mem_filter hp⟩, (zero_add _).symm⟩
  | kfreePair pair => exact ⟨.of_ifaces rfl rfl rfl, rfl⟩
  | listDel =>
      refine ⟨.setIface List.filter_sublist ?_, (zero_add _).symm⟩
      rw [List.filter_filter]
      simp
  | putDevIndex => exact ⟨.setIface (List.Sublist.refl _) rfl, (zero_add _).symm⟩
  | kobjectPut => exact ⟨.of_ifaces rfl rfl rfl, rfl⟩

namespace InOrder

/-- **A statement of `shutdown_dev`.** -/
theorem exec {stmt : ShutdownStmt w} (h : InOrder (some dev) (stmt.frees dev + rest) k) (hof : stmt.Of dev)
    (haddr : dev.addr ∈ stmt.frees dev + rest) :
    InOrder (some dev) rest (stmt.exec dev k) ∧ Reduces dev k (stmt.exec dev k) ∧
      ((stmt.exec dev k).heap.freed : Multiset ℕ) = stmt.frees dev + ↑k.heap.freed := by
  obtain ⟨hreduces, hfreed⟩ := ShutdownStmt.reduces hof fun iface hne d hd => h.addr_ne haddr hne hd
  have hsame : ∀ iface, ∀ d' ∈ ((stmt.exec dev k).ifaces iface).devList, ∃ d ∈ (k.ifaces iface).devList,
      d'.addr = d.addr ∧ d'.iface = d.iface ∧ d'.device = d.device ∧ ∀ p ∈ d'.pairList, p ∈ d.pairList := by
    intro iface d' hd'
    by_cases hiface : iface = dev.iface
    · subst hiface
      exact hreduces.devs d' hd'
    · rw [hreduces.others iface hiface] at hd'
      exact ⟨d', hd', rfl, rfl, rfl, fun _ hp => hp⟩
  refine ⟨⟨fun iface => ?_, fun iface d' hd' => ?_, fun d' hd' => ?_, fun d' hd' p hp => ?_, fun dev' hdev' d' hd' heq => ?_, ?_⟩,
    hreduces, hfreed⟩
  · by_cases hiface : iface = dev.iface
    · subst hiface
      exact (h.nodup dev.iface).sublist hreduces.addrs
    · rw [hreduces.others iface hiface]
      exact h.nodup iface
  · obtain ⟨d, hd, _, hiface, _⟩ := hsame iface d' hd'
    exact hiface.trans (h.home iface d hd)
  · obtain ⟨iface, hd'⟩ := Kernel.mem_devs.mp hd'
    obtain ⟨d, hd, _, _, hdevice, _⟩ := hsame iface d' hd'
    rw [hdevice]
    exact h.device d (Kernel.mem_devs_of_mem hd)
  · obtain ⟨iface, hd'⟩ := Kernel.mem_devs.mp hd'
    obtain ⟨d, hd, haddr', _, _, hpairs⟩ := hsame iface d' hd'
    rw [haddr']
    exact h.owner d (Kernel.mem_devs_of_mem hd) p (hpairs p hp)
  · obtain ⟨d, hd, haddr', _, hdevice, _⟩ := hsame dev'.iface d' hd'
    exact hdevice.trans (h.self dev' hdev' d hd (haddr'.symm.trans heq))
  · have howned : ((stmt.exec dev k).without (some dev)).ledger.owned = (k.without (some dev)).ledger.owned := by
      refine Kernel.owned_of_lists fun iface => ?_
      by_cases hiface : iface = dev.iface
      · subst hiface
        exact hreduces.rest
      · change ((unlinkDev dev (stmt.exec dev k)).ifaces iface).devList = ((unlinkDev dev k).ifaces iface).devList
        simp only [unlinkDev, Kernel.setIface, Function.update_of_ne hiface, hreduces.others iface hiface]
    have htotal : ((stmt.exec dev k).ledgerBut (some dev) rest).total =
        (k.ledgerBut (some dev) (stmt.frees dev + rest)).total := by
      simp only [Ledger.total, Kernel.ledgerBut, howned, hfreed]
      abel
    refine ⟨?_, fun a ha => ?_⟩
    · rw [htotal]
      exact h.sound.nodup
    · rw [htotal] at ha
      exact (h.sound.lt a ha).trans_eq hreduces.next.symm

end InOrder

/-! ### Operations -/

/-- The part of the store that an operation works on is as it should be. -/
theorem StoreInv.only_congr (h : StoreInv (k.only iface)) (hiface : k'.ifaces iface = k.ifaces iface)
    (hnext : k.heap.next ≤ k'.heap.next) : StoreInv (k'.only iface) := by
  refine h.congr (funext fun j => ?_) hnext
  by_cases hj : j = iface
  · subst hj
    simpa only [Kernel.only, if_true] using hiface
  · simp only [Kernel.only, if_neg hj]

theorem Kernel.owned_only (k : Kernel w) (iface : HweIface) : (k.only iface).ledger.owned = (k.ifaces iface).blocks := by
  rw [Kernel.owned_of_others fun j hj => congrArg Iface.devList (if_neg hj)]
  exact congrArg Iface.blocks (if_pos rfl)

/-- What is in use on an interface where no device is being shut down, and elsewhere. -/
theorem Kernel.owned_without (rest : Multiset ℕ) (htorn : ∀ dev ∈ torn, dev.iface ≠ iface) :
    (k.ledgerBut torn rest).owned = (k.ifaces iface).blocks +
      (((k.without torn).setIface iface { devList := [], devIndexes := 0 }).ledger.owned + rest) := by
  have hiface : (k.without torn).ifaces iface = k.ifaces iface := by
    cases torn with
    | none => rfl
    | some dev => exact Function.update_of_ne (htorn dev rfl).symm ..
  have hset := Kernel.owned_setIface iface { devList := [], devIndexes := 0 } (k.without torn)
  rw [hiface] at hset
  have hempty : Iface.blocks ({ devList := [], devIndexes := 0 } : Iface w) = 0 := rfl
  rw [hempty, add_zero, add_comm] at hset
  rw [Kernel.ledgerBut, ← hset, add_assoc]

namespace InOrder

/-- **An operation** on an interface where no device is being shut down. -/
theorem put {done : Kernel w} {op : Op w} {ret : Int} (h : InOrder torn rest k) (hstore : StoreInv (k.only iface))
    (htorn : ∀ dev ∈ torn, dev.iface ≠ iface) (hrun : Hwemu.exec HZ op (k.only iface) = .ok (ret, done)) :
    InOrder torn rest (k.put iface done) ∧ StoreInv ((k.put iface done).only iface) ∧
      k.heap.next ≤ done.heap.next ∧ ∀ a ∈ k.heap.freed, a ∈ done.heap.freed := by
  have horderly := exec_orderly hstore hrun
  obtain ⟨lost, hbalanced⟩ := horderly.balanced
  have hnone : ∀ j, j ≠ iface → done.ifaces j = { devList := [], devIndexes := 0 } := by
    intro j hj
    have hframe := horderly.frame j (if_neg hj)
    rw [hframe]
    exact if_neg hj
  have hself : (k.put iface done).ifaces iface = done.ifaces iface := Function.update_self ..
  have hother : ∀ j, j ≠ iface → (k.put iface done).ifaces j = k.ifaces j := fun j hj => Function.update_of_ne hj ..
  -- a device is either new or changed by the operation, or on another interface
  have hcases : ∀ j, ∀ d ∈ ((k.put iface done).ifaces j).devList,
      (j = iface ∧ d ∈ (done.ifaces iface).devList) ∨ d ∈ (k.ifaces j).devList := by
    intro j d hd
    by_cases hj : j = iface
    · subst hj
      rw [hself] at hd
      exact Or.inl ⟨rfl, hd⟩
    · rw [hother j hj] at hd
      exact Or.inr hd
  refine ⟨⟨fun j => ?_, fun j d hd => ?_, fun d hd => ?_, fun d hd p hp => ?_, fun dev hdev d hd heq => ?_, ?_⟩, ?_,
    hbalanced.next, fun a ha => Multiset.mem_of_le hbalanced.kept ha⟩
  · by_cases hj : j = iface
    · subst hj
      rw [hself]
      exact horderly.inv.addrsNodup j
    · rw [hother j hj]
      exact h.nodup j
  · rcases hcases j d hd with ⟨rfl, hdone⟩ | hold
    · exact horderly.inv.iface j d hdone
    · exact h.home j d hold
  · obtain ⟨j, hd⟩ := Kernel.mem_devs.mp hd
    rcases hcases j d hd with ⟨rfl, hdone⟩ | hold
    · exact (horderly.inv.published d (Kernel.mem_devs_of_mem hdone)).device
    · exact h.device d (Kernel.mem_devs_of_mem hold)
  · obtain ⟨j, hd⟩ := Kernel.mem_devs.mp hd
    rcases hcases j d hd with ⟨rfl, hdone⟩ | hold
    · exact (horderly.inv.ok d (Kernel.mem_devs_of_mem hdone)).owner p hp
    · exact h.owner d (Kernel.mem_devs_of_mem hold) p hp
  · rw [hother dev.iface (htorn dev hdev)] at hd
    exact h.self dev hdev d hd heq
  · have helsewhere : (((k.put iface done).without torn).setIface iface { devList := [], devIndexes := 0 }).ifaces =
        ((k.without torn).setIface iface { devList := [], devIndexes := 0 }).ifaces := by
      funext j
      by_cases hj : j = iface
      · subst hj
        simp only [Kernel.setIface, Function.update_self]
      · simp only [Kernel.setIface, Function.update_of_ne hj]
        cases torn with
        | none => exact hother j hj
        | some dev =>
            change (unlinkDev dev (k.put iface done)).ifaces j = (unlinkDev dev k).ifaces j
            by_cases hdev : j = dev.iface
            · subst hdev
              simp only [unlinkDev, Kernel.setIface, Function.update_self, hother _ hj]
            · simp only [unlinkDev, Kernel.setIface, Function.update_of_ne hdev, hother j hj]
    have hbefore : k.ledgerBut torn rest = { (k.only iface).ledger with
        owned := (k.only iface).ledger.owned +
          (((k.without torn).setIface iface { devList := [], devIndexes := 0 }).ledger.owned + rest) } := by
      rw [Kernel.owned_only, ← Kernel.owned_without rest htorn]
      rfl
    have hafter : (k.put iface done).ledgerBut torn rest = { done.ledger with
        owned := done.ledger.owned +
          (((k.without torn).setIface iface { devList := [], devIndexes := 0 }).ledger.owned + rest) } := by
      rw [Kernel.owned_of_others fun j hj => congrArg Iface.devList (hnone j hj), ← hself,
        ← Kernel.owned_congr helsewhere, ← Kernel.owned_without rest htorn]
      rfl
    have hframed := hbalanced.frame
      (((k.without torn).setIface iface { devList := [], devIndexes := 0 }).ledger.owned + rest)
    rw [← hbefore, ← hafter] at hframed
    exact hframed.sound h.sound
  · refine horderly.inv.congr (funext fun j => ?_) le_rfl
    by_cases hj : j = iface
    · subst hj
      simpa only [Kernel.only, if_true] using hself
    · rw [hnone j hj]
      exact if_neg hj

end InOrder

end Hwemu
