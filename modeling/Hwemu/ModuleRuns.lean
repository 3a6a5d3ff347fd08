import Hwemu.ModuleLoad
import Hwemu.TableRuns

/-!
# What is registered, from load to unload

Every unit gives back what it acquired, and every device its own objects. Two ways of failing leave
something registered, a third gives back too much, and no unload takes away the character device.
-/

namespace Hwemu

variable {w : Nat} {HZ : Nat} {m m' : HwemuModule w} {leak : Multiset KernelObj} {iface : HweIface}

/-! ### The objects of the devices -/

/-- What is registered for the devices of an interface. -/
def HwemuModule.devObjs (m : HwemuModule w) (iface : HweIface) : Multiset KernelObj :=
  ((m.k.ifaces iface).devList.map Dev.kobjs).sum + ((m.table iface).map fun p => p.objs iface).sum

/-- What is registered for all devices. -/
def HwemuModule.allDevObjs (m : HwemuModule w) : Multiset KernelObj := (HweIface.all.map m.devObjs).sum

/-- More for one interface is as much more in all. -/
theorem sum_ifaces_add {f f' : HweIface → Multiset KernelObj} {s : Multiset KernelObj}
    (hself : f' iface = s + f iface) (hothers : ∀ j, j ≠ iface → f' j = f j) :
    (HweIface.all.map f').sum = s + (HweIface.all.map f).sum := by
  have hf : f' = Function.update f iface (s + f iface) := by
    funext j
    by_cases hj : j = iface
    · subst hj
      rw [hself, Function.update_self]
    · rw [hothers j hj, Function.update_of_ne hj]
  rw [hf]
  cases iface <;> simp [HweIface.all, Function.update] <;> abel

theorem Evolved.trades (h : Evolved leak m m') (hinv : ModuleInv m) :
    Registry.Trades m.allDevObjs (leak + m'.allDevObjs) m.objs m'.objs := by
  cases h with
  | @same c hc hpairs htable hobjs =>
      have hdevs : m'.allDevObjs = m.allDevObjs := by
        unfold HwemuModule.allDevObjs
        congr 2
        funext iface
        unfold HwemuModule.devObjs
        rw [hc.view_same hpairs fun _ _ _ => rfl, ((htable iface).map _).sum_eq]
      exact (hobjs.frame m.allDevObjs).cast (zero_add _) (by rw [hdevs])
  | @added d p hc hkey hself hothers hobjs =>
      have hdevs : m'.allDevObjs = (d.kobjs + p.objs d.iface) + m.allDevObjs := by
        refine @sum_ifaces_add d.iface _ _ _ ?_ ?_
        · unfold HwemuModule.devObjs
          rw [hc.ifaces, (hself.map _).sum_eq]
          simp only [Change.apply, Kernel.setIface, Function.update_self, List.map_cons, List.sum_cons]
          abel
        · intro j hj
          unfold HwemuModule.devObjs
          rw [hc.ifaces, hothers j hj]
          simp only [Change.apply, Kernel.setIface, Function.update_of_ne hj]
      exact (hobjs.frame m.allDevObjs).cast (zero_add _) (by rw [hdevs, add_assoc])
  | @removed d p hc hkey hself hothers hobjs =>
      have hdevs : m.allDevObjs = (d.kobjs + p.objs d.iface) + m'.allDevObjs := by
        refine @sum_ifaces_add d.iface _ _ _ ?_ ?_
        · have hd : d ∈ (m.k.ifaces d.iface).devList := hinv.store.mem_devs.mp hc.allowed
          have hrest := (Keyed.perm_cons_filter_ne (hinv.store.addrsNodup d.iface) hd).map Dev.kobjs
          unfold HwemuModule.devObjs
          rw [hc.ifaces, ← (hself.map _).sum_eq, ← hrest.sum_eq]
          simp only [Change.apply, Kernel.setIface, Function.update_self, List.map_cons, List.sum_cons]
          abel
        · intro j hj
          unfold HwemuModule.devObjs
          rw [hc.ifaces, hothers j hj]
          simp only [Change.apply, Kernel.setIface, Function.update_of_ne hj]
      exact (hobjs.frame m'.allDevObjs).cast hdevs.symm rfl

/-! ### Cleaning up -/

/-- No device is left. -/
structure Quiet (m : HwemuModule w) : Prop where
  inv : ModuleInv m
  devs : ∀ iface, (m.k.ifaces iface).devList = []

namespace Quiet

theorem table (h : Quiet m) (iface : HweIface) : m.table iface = [] := by
  have hperm := h.inv.matched iface
  rw [h.devs iface] at hperm
  exact List.map_eq_nil_iff.mp hperm.eq_nil

theorem allDevObjs (h : Quiet m) : m.allDevObjs = 0 := by
  unfold HwemuModule.allDevObjs HwemuModule.devObjs
  simp [h.devs, h.table]

/-- Whatever keeps the store and leaves no private device. -/
theorem congr (h : Quiet m) (hdrivers : DriversInv m') (hifaces : m'.k.ifaces = m.k.ifaces)
    (hnext : m.k.heap.next ≤ m'.k.heap.next) (htable : ∀ iface, m'.table iface = []) : Quiet m' := by
  have hdevs : ∀ iface, (m'.k.ifaces iface).devList = [] := by
    intro iface
    rw [hifaces]
    exact h.devs iface
  refine ⟨⟨h.inv.store.congr hifaces hnext, hdrivers, fun iface => ?_⟩, hdevs⟩
  rw [hdevs, htable]
  exact List.Perm.nil

theorem sameDrivers (h : Quiet m) (hsame : SameDrivers m m') (hifaces : m'.k.ifaces = m.k.ifaces)
    (hnext : m.k.heap.next ≤ m'.k.heap.next) : Quiet m' := by
  refine h.congr (h.inv.drivers.congr hsame hnext) hifaces hnext fun iface => ?_
  rw [hsame.table]
  exact h.table iface

theorem register (h : Quiet m) (obj : KernelObj) : Quiet (m.register obj) :=
  h.sameDrivers ⟨rfl, rfl, rfl, rfl⟩ rfl le_rfl

theorem unregister (h : Quiet m) (obj : KernelObj) : Quiet (m.unregister obj) :=
  h.sameDrivers ⟨rfl, rfl, rfl, rfl⟩ rfl le_rfl

theorem iface_eq (h : Quiet m) (iface : HweIface) : m.k.ifaces iface = { devList := [], devIndexes := 0 } := by
  have hindexes := h.inv.store.indexes iface
  rw [h.devs iface] at hindexes
  have hzero := hindexes.eq_zero
  have hdevs := h.devs iface
  cases hiface : m.k.ifaces iface
  simp_all

theorem ttyDevices (h : Quiet m) {i : Nat} (hi : i < hweMaxDevices) : m.ttyDevices i = none := by
  cases hslot : m.ttyDevices i with
  | none => rfl
  | some p =>
      have hp : p ∈ m.table .tty := mem_table_tty.mpr ⟨i, hi, hslot⟩
      rw [h.table] at hp
      exact absurd hp List.not_mem_nil

theorem netDevices (h : Quiet m) : m.netDevices = [] := List.map_eq_nil_iff.mp (h.table .net)

theorem spiDevices (h : Quiet m) : m.spiDevices = [] := h.table .spi

theorem inUse (h : Quiet m) {e : I2cEntry} (he : e ∈ m.i2cDevices) : e.priv.inUse = false := by
  have htable := List.map_eq_nil_iff.mp (h.table .i2c)
  simpa using List.filter_eq_nil_iff.mp htable e he

theorem delI2cDev (h : Quiet m) (dev : Nat) : Quiet (delI2cDev dev m) := by
  have hbut : SameBut .i2c m (Hwemu.delI2cDev dev m) := .i2c_only rfl rfl rfl
  have hsub : ((Hwemu.delI2cDev dev m).addrs .i2c).Subperm (m.addrs .i2c) :=
    (List.filter_sublist.map I2cEntry.addr).subperm
  refine h.congr (h.inv.drivers.leave le_rfl (hbut.subperm hsub) h.inv.drivers.slot h.inv.drivers.kept)
    rfl le_rfl fun iface => ?_
  by_cases hiface : iface = .i2c
  · subst hiface
    apply List.map_eq_nil_iff.mpr
    apply List.filter_eq_nil_iff.mpr
    intro e he
    rw [h.inUse (List.mem_filter.mp he).1]
    exact Bool.false_ne_true
  · rw [hbut.table hiface]
    exact h.table iface

end Quiet

theorem cleanupTty_quiet (h : Quiet m) : ∃ m', hweCleanupTty m = .ok m' ∧ Quiet m' ∧
    Registry.Trades {.ttyRegistration, .ttyDriver} 0 m.objs m'.objs := by
  refine ⟨_, Except.bind_of_eq_ok (Except.foldlM_fixed fun i hi => ?_) _, (h.unregister _).unregister _, ?_⟩
  · have hslot : m.ttyDevices i = none := h.ttyDevices (List.mem_range.mp hi)
    rw [hslot]
  · exact (Registry.Trades.release _ _ _).trans (.release _ 0 _)

theorem cleanupI2c_quiet (h : Quiet m) : ∃ m', hweCleanupI2c m = .ok m' ∧ Quiet m' ∧ m'.objs = m.objs := by
  have hloop : ∀ (devs : List I2cEntry) (m : HwemuModule w), (∀ dev ∈ devs, dev.priv.inUse = false) → Quiet m →
      ∃ m', devs.foldlM (fun m dev => do
        let m ← if dev.priv.inUse then hweDestroyI2c dev.addr m else .ok m
        return delI2cDev dev.addr m) m = .ok m' ∧ Quiet m' ∧ m'.objs = m.objs := by
    intro devs
    induction devs with
    | nil => exact fun m _ hm => ⟨m, rfl, hm, rfl⟩
    | cons dev devs ih =>
        intro m hdevs hm
        obtain ⟨m', hrest, hquiet, hobjs⟩ :=
          ih (delI2cDev dev.addr m) (fun e he => hdevs e (List.mem_cons_of_mem dev he)) (hm.delI2cDev dev.addr)
        refine ⟨m', ?_, hquiet, hobjs⟩
        rw [List.foldlM_cons, hdevs dev List.mem_cons_self]
        exact hrest
  exact hloop m.i2cDevices m (fun e he => h.inUse he) h

theorem cleanupNet_quiet (h : Quiet m) : hweCleanupNet m = .ok m := by
  unfold hweCleanupNet
  rw [h.netDevices]
  rfl

theorem cleanupSpi_quiet (h : Quiet m) : ∃ m', hweCleanupSpi m = .ok m' ∧ Quiet m' ∧
    Registry.Trades {.platformDriver, .platformDevice} 0 m.objs m'.objs := by
  unfold hweCleanupSpi
  rw [h.spiDevices]
  exact ⟨_, rfl, (h.unregister _).unregister _, (Registry.Trades.release _ _ _).trans (.release _ 0 _)⟩

/-- The loop of `cleanup_iface` ends with the last device. -/
theorem shutdownDevs_all (h : ModuleInv m) {n : Nat} (hn : (m.k.ifaces iface).devList.length = n) :
    ∃ m', shutdownDevs iface n m = .ok m' ∧ ModuleInv m' ∧ (m'.k.ifaces iface).devList = [] ∧
      (∀ j, j ≠ iface → (m'.k.ifaces j).devList = (m.k.ifaces j).devList) ∧
      Registry.Trades m.allDevObjs m'.allDevObjs m.objs m'.objs := by
  induction n generalizing m with
  | zero => exact ⟨m, rfl, h, List.length_eq_zero_iff.mp hn, fun _ _ => rfl, .refl _ _⟩
  | succ n ih =>
      obtain ⟨d, devs, hlist⟩ := List.exists_cons_of_length_eq_add_one hn
      have hmem : d ∈ (m.k.ifaces iface).devList := by
        rw [hlist]
        exact List.mem_cons_self
      have hiface : d.iface = iface := h.store.iface iface d hmem
      obtain ⟨m₁, hshut, hc, hevolved, hdrivers⟩ := h.shutdownDev (Kernel.mem_devs_of_mem hmem)
      have h₁ := h.evolve hevolved hdrivers
      have hself : (m₁.k.ifaces iface).devList = devs := by
        have hnodup := h.store.addrsNodup iface
        rw [hlist, List.map_cons] at hnodup
        rw [hc.ifaces]
        simp only [Change.apply, Kernel.setIface, hiface, Function.update_self, hlist]
        rw [List.filter_cons_of_neg (by simp)]
        exact @Keyed.filter_of_ne _ _ _ Dev.addr _ _ fun b hb heq =>
          (List.nodup_cons.mp hnodup).1 (List.mem_map.mpr ⟨b, hb, heq⟩)
      have hothers : ∀ j, j ≠ iface → (m₁.k.ifaces j).devList = (m.k.ifaces j).devList := by
        intro j hj
        rw [hc.ifaces]
        simp only [Change.apply, Kernel.setIface, hiface, Function.update_of_ne hj]
      have hlength : (m₁.k.ifaces iface).devList.length = n := by
        rw [hlist, List.length_cons] at hn
        rw [hself]
        exact Nat.succ.inj hn
      obtain ⟨m', hrest, hinv, hnil, hkept, htrades⟩ := ih h₁ hlength
      refine ⟨m', ?_, hinv, hnil, fun j hj => (hkept j hj).trans (hothers j hj),
        ((hevolved.trades h).cast rfl (zero_add _)).trans htrades⟩
      rw [shutdownDevs, hlist]
      dsimp only
      rw [hshut]
      exact hrest

/-- The directories of interfaces. -/
def ifaceObjs (ifaces : List HweIface) : Multiset KernelObj := (ifaces.map KernelObj.ifaceKobj : List KernelObj)

theorem cleanupIface_all (h : ModuleInv m) (iface : HweIface) :
    ∃ m', cleanupIface iface m = .ok m' ∧ ModuleInv m' ∧ (m'.k.ifaces iface).devList = [] ∧
      (∀ j, j ≠ iface → (m'.k.ifaces j).devList = (m.k.ifaces j).devList) ∧
      Registry.Trades (.ifaceKobj iface ::ₘ m.allDevObjs) m'.allDevObjs m.objs m'.objs := by
  obtain ⟨m₁, hshut, hinv, hnil, hkept, htrades⟩ := shutdownDevs_all h rfl
  refine ⟨m₁.unregister (.ifaceKobj iface), Except.bind_of_eq_ok hshut _,
    ⟨hinv.store, hinv.drivers.congr ⟨rfl, rfl, rfl, rfl⟩ le_rfl, hinv.matched⟩, hnil, hkept, ?_⟩
  have hframe := htrades.frame {.ifaceKobj iface}
  rw [add_comm m.allDevObjs, add_comm m₁.allDevObjs, Multiset.singleton_add, Multiset.singleton_add] at hframe
  exact hframe.trans (.release _ _ _)

theorem cleanupIfaces_all (h : ModuleInv m) (ifaces : List HweIface) :
    ∃ m', Staged.down cleanupIface ifaces m = .ok m' ∧ ModuleInv m' ∧
      (∀ j, j ∈ ifaces ∨ (m.k.ifaces j).devList = [] → (m'.k.ifaces j).devList = []) ∧
      Registry.Trades (ifaceObjs ifaces + m.allDevObjs) m'.allDevObjs m.objs m'.objs := by
  induction ifaces generalizing m with
  | nil => exact ⟨m, rfl, h, fun j hj => hj.resolve_left List.not_mem_nil, (Registry.Trades.refl _ _).cast (zero_add _).symm rfl⟩
  | cons iface ifaces ih =>
      obtain ⟨m₁, hfirst, h₁, hnil, hkept, htrades⟩ := cleanupIface_all h iface
      obtain ⟨m', hrest, hinv, hempty, htrades'⟩ := ih h₁
      refine ⟨m', ?_, hinv, ?_, ?_⟩
      · rw [Staged.down_cons, hfirst]
        exact hrest
      · intro j hj
        refine hempty j ?_
        by_cases heq : j = iface
        · subst heq
          exact Or.inr hnil
        · refine hj.imp (fun hmem => (List.mem_cons.mp hmem).resolve_left heq) fun hj => ?_
          rw [hkept j heq]
          exact hj
      · have hframe := htrades.frame (ifaceObjs ifaces)
        rw [Multiset.cons_add, add_comm m.allDevObjs, add_comm m₁.allDevObjs] at hframe
        refine Registry.Trades.trans (hframe.cast ?_ rfl) htrades'
        rw [ifaceObjs, ifaceObjs, List.map_cons, ← Multiset.cons_coe, Multiset.cons_add]

/-- `hwe_cleanup_sysfs` shuts down what devices there are. -/
theorem cleanupSysfs_all (h : ModuleInv m) : ∃ m', hweCleanupSysfs m = .ok m' ∧ Quiet m' ∧
    Registry.Trades (.kset ::ₘ (ifaceObjs HweIface.all + m.allDevObjs)) 0 m.objs m'.objs := by
  obtain ⟨m₁, hdown, hinv, hempty, htrades⟩ := cleanupIfaces_all h HweIface.all.reverse
  have hquiet : Quiet m₁ := ⟨hinv, fun iface => hempty iface (Or.inl (List.mem_reverse.mpr iface.mem_all))⟩
  refine ⟨m₁.unregister .kset, Except.bind_of_eq_ok hdown _, hquiet.unregister _, ?_⟩
  have hifaces : ifaceObjs HweIface.all.reverse = ifaceObjs HweIface.all := by
    rw [ifaceObjs, ifaceObjs, List.map_reverse]
    exact Multiset.coe_reverse _
  rw [hifaces, hquiet.allDevObjs] at htrades
  have hframe := htrades.frame {.kset}
  rw [zero_add, add_comm, Multiset.singleton_add] at hframe
  exact hframe.trans (.release _ 0 _)

/-! ### The units -/

/-- What a unit acquires when it is initialized. -/
def HweUnit.objs : HweUnit → Multiset KernelObj
  | .tty => {.ttyRegistration, .ttyDriver}
  | .i2c => 0
  | .net => 0
  | .spi => {.platformDriver, .platformDevice}
  | .async => {.timer}
  | .sysfs => .kset ::ₘ ifaceObjs HweIface.all
  | .ioctl => {.deviceNode, .devClass, .chrdevRegion, .cdev}

/-- What its cleanup function does not give back. -/
def HweUnit.kept : HweUnit → Multiset KernelObj
  | .ioctl => {.cdev}
  | _ => 0

theorem cleanupIoctl_trades (m : HwemuModule w) :
    Registry.Trades HweUnit.ioctl.objs {.cdev} m.objs (hweCleanupIoctl m).objs := by
  have hnode : Registry.Trades {.deviceNode, .devClass, .chrdevRegion, .cdev} {.devClass, .chrdevRegion, .cdev} m.objs
      (m.unregister .deviceNode).objs := .release _ _ _
  have hclass : Registry.Trades {.devClass, .chrdevRegion, .cdev} {.chrdevRegion, .cdev}
      (m.unregister .deviceNode).objs ((m.unregister .deviceNode).unregister .devClass).objs := .release _ _ _
  exact (hnode.trans hclass).trans (.release _ _ _)

theorem cleanupFuncs_quiet (h : Quiet m) (unit : HweUnit) :
    ∃ m', cleanupFuncs unit m = .ok m' ∧ Quiet m' ∧ Registry.Trades unit.objs unit.kept m.objs m'.objs := by
  cases unit with
  | tty => exact cleanupTty_quiet h
  | i2c =>
      obtain ⟨m', hrun, hquiet, hobjs⟩ := cleanupI2c_quiet h
      exact ⟨m', hrun, hquiet, hobjs ▸ Registry.Trades.refl 0 m.objs⟩
  | net => exact ⟨m, cleanupNet_quiet h, h, .refl 0 m.objs⟩
  | spi => exact cleanupSpi_quiet h
  | async => exact ⟨_, rfl, h.unregister _, .release _ 0 _⟩
  | sysfs =>
      obtain ⟨m', hrun, hquiet, htrades⟩ := cleanupSysfs_all h.inv
      rw [h.allDevObjs, add_zero] at htrades
      exact ⟨m', hrun, hquiet, htrades⟩
  | ioctl =>
      exact ⟨_, rfl, ((h.unregister _).unregister _).unregister _, cleanupIoctl_trades m⟩

/-- The init function of a unit succeeds. -/
def LoadEnv.Succeeds (env : LoadEnv) : HweUnit → Prop
  | .tty => env.ttyAllocDriver = .driver ∧ env.ttyRegisterDriver = none
  | .i2c => True
  | .net => True
  | .spi => env.platformDeviceRegister = none ∧ env.platformDriverRegister = none
  | .async => True
  | .sysfs => env.ksetCreateAndAdd = true ∧ ∀ iface, env.kobjectInitAndAdd iface = none
  | .ioctl => env.allocChrdevRegion = none ∧ env.classCreate = none ∧ env.cdevAdd = none ∧ env.deviceCreate = none

/-- The init function of a unit fails in a way that it does not clean up after, or does not report. -/
def LoadEnv.Slips (env : LoadEnv) : HweUnit → Prop
  | .sysfs => env.ksetCreateAndAdd = true ∧ ∃ iface, env.kobjectInitAndAdd iface ≠ none
  | .ioctl => env.allocChrdevRegion = none ∧ env.classCreate = none ∧ env.cdevAdd = none ∧ env.deviceCreate ≠ none
  | _ => False

/-- Either the unit is up, or it has left nothing behind. -/
def Initialized (env : LoadEnv) (unit : HweUnit) (m : HwemuModule w) (r : Except Fault (Int × HwemuModule w)) : Prop :=
  ∃ err m', r = .ok (err, m') ∧ Quiet m' ∧
    (err = 0 → env.Succeeds unit ∧ Registry.Trades 0 unit.objs m.objs m'.objs) ∧
    (err ≠ 0 → Registry.Trades 0 0 m.objs m'.objs)

theorem neg_errno_ne_zero (err : Errno) : -((err : Nat) : Int) ≠ 0 := (neg_errno_lt err).ne

/-- A unit that fails. -/
theorem Initialized.of_error {env : LoadEnv} {unit : HweUnit} {err : Int} {r : Except Fault (Int × HwemuModule w)}
    (hr : r = .ok (err, m')) (herr : err ≠ 0) (h : Quiet m') (htrades : Registry.Trades 0 0 m.objs m'.objs) :
    Initialized env unit m r := ⟨err, m', hr, h, fun hzero => absurd hzero herr, fun _ => htrades⟩

theorem Initialized.of_success {env : LoadEnv} {unit : HweUnit} {r : Except Fault (Int × HwemuModule w)}
    (hr : r = .ok (0, m')) (h : Quiet m') (hok : env.Succeeds unit)
    (htrades : Registry.Trades 0 unit.objs m.objs m'.objs) : Initialized env unit m r :=
  ⟨0, m', hr, h, fun _ => ⟨hok, htrades⟩, fun herr => absurd rfl herr⟩

theorem initTty_initialized (h : Quiet m) {env : LoadEnv} (hdriver : env.ttyAllocDriver ≠ .errPtr) :
    Initialized env .tty m (hweInitTty env m) := by
  unfold hweInitTty
  cases halloc : env.ttyAllocDriver with
  | null => exact .of_error rfl (by decide) h (.refl 0 m.objs)
  | errPtr => exact absurd halloc hdriver
  | driver =>
      cases hregister : env.ttyRegisterDriver with
      | some err =>
          exact .of_error rfl (neg_errno_ne_zero err) ((h.register _).unregister _)
            ((Registry.Trades.acquire _ 0 _).trans (.release _ 0 _))
      | none =>
          exact .of_success rfl ((h.register _).register _) ⟨halloc, hregister⟩
            ((Registry.Trades.acquire _ 0 _).trans (.acquire _ _ _))

theorem initSpi_initialized (h : Quiet m) (env : LoadEnv) :
    Initialized env .spi m (.ok (hweInitSpi env m)) := by
  have hsame : SameDrivers m { m with spiDevices := [] } := ⟨rfl, rfl, rfl, h.spiDevices.symm⟩
  have hquiet := h.sameDrivers hsame rfl le_rfl
  unfold hweInitSpi
  cases hdevice : env.platformDeviceRegister with
  | some err => exact .of_error rfl (neg_errno_ne_zero err) hquiet (.refl 0 m.objs)
  | none =>
      cases hdriver : env.platformDriverRegister with
      | some err =>
          exact .of_error rfl (neg_errno_ne_zero err) ((hquiet.register _).unregister _)
            ((Registry.Trades.acquire _ 0 _).trans (.release _ 0 _))
      | none =>
          exact .of_success rfl ((hquiet.register _).register _) ⟨hdevice, hdriver⟩
            ((Registry.Trades.acquire _ 0 _).trans (.acquire _ _ _))

theorem initIface_quiet (h : Quiet m) {env : LoadEnv} (hok : env.kobjectInitAndAdd iface = none) :
    ∃ m', initIface env iface m = (0, m') ∧ Quiet m' ∧ m'.objs = m.objs.acquire (.ifaceKobj iface) := by
  have hifaces : (m.k.setIface iface { devList := [], devIndexes := 0 }).ifaces = m.k.ifaces := by
    rw [Kernel.setIface, ← h.iface_eq iface]
    exact Function.update_eq_self iface m.k.ifaces
  unfold initIface
  rw [hok]
  exact ⟨_, rfl, h.sameDrivers ⟨rfl, rfl, rfl, rfl⟩ hifaces le_rfl, rfl⟩

theorem initSysfs_initialized (h : Quiet m) {env : LoadEnv} (hslips : ¬env.Slips .sysfs) :
    Initialized env .sysfs m (hweInitSysfs env m) := by
  unfold hweInitSysfs
  cases hkset : env.ksetCreateAndAdd with
  | false => exact .of_error rfl (by decide) h (.refl 0 m.objs)
  | true =>
      have hok : ∀ iface, env.kobjectInitAndAdd iface = none := fun iface =>
        not_not.mp fun hfails => hslips ⟨hkset, iface, hfails⟩
      let Held (done : List HweIface) (m' : HwemuModule w) : Prop :=
        Quiet m' ∧ Registry.Trades 0 (ifaceObjs done + {.kset}) m.objs m'.objs
      have hcons : ∀ iface done, ifaceObjs (iface :: done) + {.kset} =
          .ifaceKobj iface ::ₘ (ifaceObjs done + {.kset}) := fun iface done => by
        rw [ifaceObjs, ifaceObjs, List.map_cons, ← Multiset.cons_coe, Multiset.cons_add]
      have hinit : ∀ done iface todo m', done.reverse ++ iface :: todo = HweIface.all → Held done m' →
          ∃ m'', (Except.ok (initIface env iface m') : Except Fault (Int × HwemuModule w)) = .ok (0, m'') ∧
            Held (iface :: done) m'' := by
        rintro done iface todo m' - ⟨hquiet, htrades⟩
        obtain ⟨m'', hrun, hquiet', hobjs⟩ := initIface_quiet hquiet (hok iface)
        refine ⟨m'', congrArg Except.ok hrun, hquiet', ?_⟩
        rw [hcons, hobjs]
        exact htrades.trans (.acquire _ _ _)
      have hnone : Held [] (m.register .kset) := ⟨h.register _, .acquire _ 0 m.objs⟩
      obtain ⟨m', hrun, hquiet, htrades⟩ := @Staged.up_ok _ _ _ _ cleanupIface Held _ _ _ _ hinit rfl hnone
      have hobjs : ifaceObjs HweIface.all.reverse + {.kset} = HweUnit.sysfs.objs := by
        rw [ifaceObjs, List.map_reverse, Multiset.coe_reverse, add_comm]
        rfl
      exact .of_success hrun hquiet ⟨hkset, hok⟩ (htrades.cast rfl hobjs)

theorem initIoctl_initialized (h : Quiet m) {env : LoadEnv} (hslips : ¬env.Slips .ioctl) :
    Initialized env .ioctl m (.ok (hweInitIoctl env m)) := by
  unfold hweInitIoctl
  cases hregion : env.allocChrdevRegion with
  | some err => exact .of_error rfl (neg_errno_ne_zero err) h (.refl 0 m.objs)
  | none =>
      have hquiet := h.register .chrdevRegion
      have htrades : Registry.Trades 0 {.chrdevRegion} m.objs (m.register .chrdevRegion).objs := .acquire _ 0 _
      cases hclass : env.classCreate with
      | some err =>
          exact .of_error rfl (neg_errno_ne_zero err) (hquiet.unregister _) (htrades.trans (.release _ 0 _))
      | none =>
          have hquiet := hquiet.register .devClass
          have htrades := htrades.trans (.acquire .devClass _ _)
          cases hcdev : env.cdevAdd with
          | some err =>
              exact .of_error rfl (neg_errno_ne_zero err) ((hquiet.unregister _).unregister _)
                ((htrades.trans (.release _ _ _)).trans (.release _ 0 _))
          | none =>
              have hquiet := hquiet.register .cdev
              have htrades := htrades.trans (.acquire .cdev _ _)
              cases hdevice : env.deviceCreate with
              | some err =>
                  have hfails : env.deviceCreate ≠ none := by
                    rw [hdevice]
                    exact Option.some_ne_none err
                  exact absurd ⟨hregion, hclass, hcdev, hfails⟩ hslips
              | none =>
                  refine .of_success rfl (hquiet.register _) ⟨hregion, hclass, hcdev, hdevice⟩ ?_
                  have hobjs : (.deviceNode ::ₘ .cdev ::ₘ .devClass ::ₘ {.chrdevRegion} : Multiset KernelObj) =
                      HweUnit.ioctl.objs := by decide
                  exact (htrades.trans (.acquire .deviceNode _ _)).cast rfl hobjs

theorem initFuncs_initialized (h : Quiet m) {env : LoadEnv} (hdriver : env.ttyAllocDriver ≠ .errPtr) {unit : HweUnit}
    (hslips : ¬env.Slips unit) : Initialized env unit m (initFuncs env unit m) := by
  cases unit with
  | tty => exact initTty_initialized h hdriver
  | i2c =>
      have hbut : SameBut .i2c m { m with i2cDevices := [] } := .i2c_only rfl rfl rfl
      have hdrivers : DriversInv { m with i2cDevices := [] } :=
        h.inv.drivers.leave le_rfl (hbut.subperm List.nil_subperm) h.inv.drivers.slot h.inv.drivers.kept
      refine .of_success rfl (h.congr hdrivers rfl le_rfl fun iface => ?_) trivial (.refl 0 m.objs)
      by_cases hiface : iface = .i2c
      · subst hiface
        rfl
      · rw [hbut.table hiface]
        exact h.table iface
  | net =>
      have hsame : SameDrivers m { m with netDevices := [] } := ⟨rfl, rfl, h.netDevices.symm, rfl⟩
      exact .of_success rfl (h.sameDrivers hsame rfl le_rfl) trivial (.refl 0 m.objs)
  | spi => exact initSpi_initialized h env
  | async => exact .of_success rfl (h.register _) trivial (.acquire _ 0 _)
  | sysfs => exact initSysfs_initialized h hslips
  | ioctl => exact initIoctl_initialized h hslips

/-! ### Loading and unloading -/

/-- A unit that is reached leaves something behind. -/
def LoadEnv.LeavesObjs (env : LoadEnv) : Prop :=
  ∃ done unit todo, done ++ unit :: todo = HweUnit.all ∧ (∀ u ∈ done, env.Succeeds u) ∧ env.Slips unit

/-- What the units of a list have acquired. -/
def unitObjs (units : List HweUnit) : Multiset KernelObj := (units.map HweUnit.objs).sum

/-- The cleanup functions of all units but the last take back what was acquired. -/
theorem cleanupFuncs_held {objs : Registry KernelObj} {s : Multiset KernelObj} {done : List HweUnit} {unit : HweUnit} {todo : List HweUnit}
    (hall : done.reverse ++ unit :: todo = HweUnit.all) (htodo : todo ≠ []) (h : Quiet m)
    (htrades : Registry.Trades s (unitObjs (unit :: done)) objs m.objs) :
    ∃ m', cleanupFuncs unit m = .ok m' ∧ Quiet m' ∧ Registry.Trades s (unitObjs done) objs m'.objs := by
  obtain ⟨m', hrun, hquiet, hback⟩ := cleanupFuncs_quiet h unit
  have hkept : unit.kept = 0 := by
    cases unit with
    | ioctl =>
        -- it is the last of all
        have hmem : HweUnit.ioctl ∈ HweUnit.all.dropLast := by
          rw [← hall, List.dropLast_append_of_ne_nil (List.cons_ne_nil _ _), List.dropLast_cons_of_ne_nil htodo]
          exact List.mem_append_right _ List.mem_cons_self
        exact absurd hmem (by decide)
    | _ => rfl
  rw [hkept] at hback
  exact ⟨m', hrun, hquiet, htrades.trans ((hback.frame (unitObjs done)).cast rfl (zero_add _))⟩

/-- A load that takes an error for a driver does not end. -/
theorem hwemuInit_errPtr {env : LoadEnv} (h : env.ttyAllocDriver = .errPtr) (m : HwemuModule w) :
    hwemuInit env m = .error .outOfBounds := by
  have htty : initFuncs env .tty m = .error .outOfBounds := by
    rw [initFuncs, hweInitTty, h]
  rw [hwemuInit, HweUnit.all, Staged.up, htty]
  rfl

theorem hwemuInit_spec (h : Quiet m) {env : LoadEnv} (hdriver : env.ttyAllocDriver ≠ .errPtr)
    (hleaves : ¬env.LeavesObjs) :
    ∃ err m', hwemuInit env m = .ok (err, m') ∧ Quiet m' ∧
      (err = 0 → Registry.Trades 0 (unitObjs HweUnit.all) m.objs m'.objs) ∧
      (err ≠ 0 → Registry.Trades 0 0 m.objs m'.objs) := by
  let Held (done : List HweUnit) (m' : HwemuModule w) : Prop :=
    Quiet m' ∧ (∀ unit ∈ done, env.Succeeds unit) ∧ Registry.Trades 0 (unitObjs done) m.objs m'.objs
  have hinit : ∀ done unit todo m', done.reverse ++ unit :: todo = HweUnit.all → Held done m' →
      ∃ err m'', initFuncs env unit m' = .ok (err, m'') ∧ (err = 0 → Held (unit :: done) m'') ∧
        (err ≠ 0 → Held done m'') := by
    rintro done unit todo m' hall ⟨hquiet, hdone, htrades⟩
    have hslips : ¬env.Slips unit := fun hslips =>
      hleaves ⟨done.reverse, unit, todo, hall, fun u hu => hdone u (List.mem_reverse.mp hu), hslips⟩
    obtain ⟨err, m'', hrun, hquiet', hup, hfail⟩ := initFuncs_initialized hquiet hdriver hslips
    refine ⟨err, m'', hrun, fun herr => ?_, fun herr => ?_⟩
    · obtain ⟨hunit, hacquired⟩ := hup herr
      exact ⟨hquiet', List.forall_mem_cons.mpr ⟨hunit, hdone⟩,
        htrades.trans ((hacquired.frame (unitObjs done)).cast (zero_add _) rfl)⟩
    · exact ⟨hquiet', hdone, htrades.trans (((hfail herr).frame (unitObjs done)).cast (zero_add _) (zero_add _))⟩
  have hdown : ∀ done unit todo m', done.reverse ++ unit :: todo = HweUnit.all → todo ≠ [] →
      Held (unit :: done) m' → ∃ m'', cleanupFuncs unit m' = .ok m'' ∧ Held done m'' := by
    rintro done unit todo m' hall htodo ⟨hquiet, hdone, htrades⟩
    obtain ⟨m'', hrun, hquiet', htrades'⟩ := cleanupFuncs_held hall htodo hquiet htrades
    exact ⟨m'', hrun, hquiet', fun u hu => hdone u (List.mem_cons_of_mem unit hu), htrades'⟩
  have hnone : Held [] m := ⟨h, fun _ hu => absurd hu List.not_mem_nil, .refl 0 m.objs⟩
  obtain ⟨err, m', hrun, hup, hfail⟩ := Staged.up_held hinit hdown rfl hnone
  have hall : unitObjs HweUnit.all.reverse = unitObjs HweUnit.all :=
    ((List.reverse_perm HweUnit.all).map HweUnit.objs).sum_eq
  refine ⟨err, m', hrun, ?_, fun herr => ?_, fun herr => (hfail herr).2.2⟩
  · by_cases herr : err = 0
    · exact (hup herr).1
    · exact (hfail herr).1
  · exact (hup herr).2.2.cast rfl hall

/-- Unloading leaves the character device. -/
theorem hwemuExit_spec (h : ModuleInv m) : ∃ m', hwemuExit m = .ok m' ∧ Quiet m' ∧
    Registry.Trades (unitObjs HweUnit.all + m.allDevObjs) {.cdev} m.objs m'.objs := by
  have hioctl : ModuleInv (hweCleanupIoctl m) :=
    ⟨h.store, h.drivers.congr ⟨rfl, rfl, rfl, rfl⟩ le_rfl, h.matched⟩
  have hdevs : (hweCleanupIoctl m).allDevObjs = m.allDevObjs := rfl
  obtain ⟨m₁, hsysfs, hquiet₁, hback₁⟩ := cleanupSysfs_all hioctl
  -- the units below, of which none is the last
  let below : List HweUnit := [.async, .spi, .net, .i2c, .tty]
  let Held (done : List HweUnit) (m' : HwemuModule w) : Prop :=
    Quiet m' ∧ Registry.Trades (unitObjs below) (unitObjs done) m₁.objs m'.objs
  have hdown : ∀ done unit todo m', done.reverse ++ unit :: todo = HweUnit.all → todo ≠ [] →
      Held (unit :: done) m' → ∃ m'', cleanupFuncs unit m' = .ok m'' ∧ Held done m'' := by
    rintro done unit todo m' hall htodo ⟨hquiet, htrades⟩
    exact cleanupFuncs_held hall htodo hquiet htrades
  have hbelow : Held below m₁ := ⟨hquiet₁, .refl _ _⟩
  obtain ⟨m', hrest, hquiet, hback⟩ :=
    @Staged.down_held _ _ _ _ Held HweUnit.all below [.sysfs, .ioctl] m₁ hdown rfl (List.cons_ne_nil _ _) hbelow
  refine ⟨m', ?_, hquiet, ?_⟩
  · change Staged.down cleanupFuncs (.ioctl :: .sysfs :: below) m = _
    rw [Staged.down_cons, cleanupFuncs, Except.ok_bind, Staged.down_cons]
    change (hweCleanupSysfs (hweCleanupIoctl m) >>= Staged.down cleanupFuncs below) = _
    rw [hsysfs]
    exact hrest
  · have hfirst := (cleanupIoctl_trades m).frame (HweUnit.sysfs.objs + m.allDevObjs + unitObjs below)
    have hsecond := hback₁.frame ({.cdev} + unitObjs below)
    have hthird := hback.frame {.cdev}
    rw [hdevs] at hsecond
    have hsum : HweUnit.ioctl.objs + (HweUnit.sysfs.objs + m.allDevObjs + unitObjs below) =
        unitObjs HweUnit.all + m.allDevObjs := by
      simp only [below, HweUnit.all, unitObjs, List.map_cons, List.map_nil, List.sum_cons, List.sum_nil]
      abel
    have hmiddle : .kset ::ₘ (ifaceObjs HweIface.all + m.allDevObjs) + ({.cdev} + unitObjs below) =
        {.cdev} + (HweUnit.sysfs.objs + m.allDevObjs + unitObjs below) := by
      rw [← Multiset.cons_add, add_left_comm]
      rfl
    have hlast : unitObjs below + {.cdev} = 0 + ({.cdev} + unitObjs below) := by
      rw [zero_add, add_comm]
    exact (hfirst.cast hsum rfl).trans ((hsecond.cast hmiddle rfl).trans (hthird.cast hlast (zero_add _)))

/-! ### Runs -/

/-- What belongs to the state of the module. -/
def ModuleState.owned (s : ModuleState w) : Multiset KernelObj :=
  if s.loaded then unitObjs HweUnit.all + s.m.allDevObjs else 0

/-- No failure that leaves something behind, in the lists of the module or registered. -/
def ModuleEvent.Careful (s : ModuleState w) : ModuleEvent w → Prop
  | .insmod env => ¬env.LeavesObjs
  | .rmmod => True
  | .op o => ¬o.FailsAfterSetup s.m ∧ ¬o.LeavesMaster s.m

def ModuleEvent.isRmmod : ModuleEvent w → Bool
  | .rmmod => true
  | _ => false

/-- The character devices that unloading has left. -/
def cdevs (es : List (ModuleEvent w)) : Multiset KernelObj := Multiset.replicate (es.countP (·.isRmmod)) .cdev

theorem Quiet.reloaded (m : HwemuModule w) : Quiet m.reloaded := by
  refine ⟨⟨.of_empty rfl, DriversInv.empty _ _, fun iface => ?_⟩, fun iface => rfl⟩
  rw [HwemuModule.reloaded, HwemuModule.table_empty]
  exact List.Perm.nil

def ModuleState.Inv (s : ModuleState w) : Prop := s.loaded = true → ModuleInv s.m

/-- **One event.** -/
theorem ModuleState.step {s s' : ModuleState w} {e : ModuleEvent w} (h : s.Inv) (hcareful : e.Careful s)
    (hnext : s.next HZ e = some s') :
    s'.Inv ∧ Registry.Trades s.owned (s'.owned + cdevs [e]) s.m.objs s'.m.objs := by
  cases e with
  | insmod env =>
      rw [ModuleState.next, Option.ite_none_left_eq_some] at hnext
      obtain ⟨hloaded, hnext⟩ := hnext
      have hdriver : env.ttyAllocDriver ≠ .errPtr := fun herr => by
        rw [hwemuInit_errPtr herr] at hnext
        exact absurd hnext (Option.some_ne_none s').symm
      obtain ⟨err, m', hrun, hquiet, hup, hfail⟩ := hwemuInit_spec (Quiet.reloaded s.m) hdriver hcareful
      rw [hrun] at hnext
      obtain rfl := Option.some.inj hnext
      refine ⟨fun _ => hquiet.inv, ?_⟩
      unfold ModuleState.owned
      rw [if_neg hloaded]
      by_cases herr : err = 0
      · refine (hup herr).cast rfl ?_
        simp [herr, hquiet.allDevObjs, cdevs, ModuleEvent.isRmmod]
      · refine (hfail herr).cast rfl ?_
        simp [herr, cdevs, ModuleEvent.isRmmod]
  | rmmod =>
      rw [ModuleState.next, Option.ite_none_left_eq_some] at hnext
      obtain ⟨hloaded, hnext⟩ := hnext
      have hloaded : s.loaded = true := by simpa using hloaded
      obtain ⟨m', hrun, hquiet, hback⟩ := hwemuExit_spec (h hloaded)
      rw [hrun] at hnext
      obtain rfl := Option.some.inj hnext
      refine ⟨fun hfalse => absurd hfalse Bool.false_ne_true, ?_⟩
      unfold ModuleState.owned
      rw [if_pos hloaded]
      exact hback.cast rfl (zero_add _).symm
  | op o =>
      rw [ModuleState.next, Option.ite_none_left_eq_some] at hnext
      obtain ⟨hloaded, hnext⟩ := hnext
      have hloaded : s.loaded = true := by simpa using hloaded
      obtain ⟨m', hm', hs'⟩ := Option.map_eq_some_iff.mp hnext
      obtain ⟨ret, hrun⟩ := HwemuModule.next_eq_some.mp hm'
      have hdone := (h hloaded).exec hcareful.1 hrun
      obtain ⟨leak, hevolved, hleak⟩ := hdone.evolved
      obtain rfl : leak = 0 := not_not.mp fun hne => hcareful.2 (hleak hne)
      subst hs'
      refine ⟨fun _ => hdone.inv (h hloaded), ?_⟩
      unfold ModuleState.owned
      rw [if_pos hloaded, if_pos rfl]
      refine ((hevolved.trades (h hloaded)).frame (unitObjs HweUnit.all)).cast (add_comm _ _) ?_
      rw [zero_add, add_comm]
      exact (add_zero _).symm

/-- Every run of careful events: what is registered belongs to the state, but for a character device for
each time the module was unloaded. -/
theorem ModuleState.run_holds {s s' : ModuleState w} {es : List (ModuleEvent w)}
    (hrun : Run (fun s e s' => s.next HZ e = some s' ∧ e.Careful s) s es s') (h : s.Inv) :
    Registry.Trades s.owned (s'.owned + cdevs es) s.m.objs s'.m.objs := by
  induction hrun with
  | nil s => exact (Registry.Trades.refl _ _).cast rfl (add_zero _).symm
  | cons hfirst hrest ih =>
      rename_i s s₁ s' e es
      obtain ⟨hinv, htrades⟩ := ModuleState.step h hfirst.2 hfirst.1
      refine htrades.trans (((ih hinv).frame (cdevs [e])).cast rfl ?_)
      rw [add_assoc]
      congr 1
      rw [cdevs, cdevs, cdevs, ← Multiset.replicate_add, ← List.countP_append]
      rw [(List.perm_append_singleton e es).countP_eq]

theorem ModuleState.initial_inv : (ModuleState.initial w).Inv := fun h => absurd h Bool.false_ne_true

theorem ModuleState.initial_holds : (ModuleState.initial w).m.objs.Holds (ModuleState.initial w).owned :=
  .empty

theorem cdevs_eq_zero_iff {es : List (ModuleEvent w)} : cdevs es = 0 ↔ ∀ e ∈ es, e.isRmmod = false := by
  rw [cdevs, ← Multiset.card_eq_zero, Multiset.card_replicate, List.countP_eq_zero]
  exact forall₂_congr fun e _ => Bool.not_eq_true e.isRmmod ▸ Iff.rfl

theorem ModuleState.initial_run_holds {es : List (ModuleEvent w)} {s : ModuleState w}
    (h : Run (fun s e s' => s.next HZ e = some s' ∧ e.Careful s) (ModuleState.initial w) es s) :
    s.m.objs.Holds (s.owned + cdevs es) := by
  have hholds := ModuleState.run_holds h ModuleState.initial_inv 0
  rw [add_zero, add_zero] at hholds
  exact hholds ModuleState.initial_holds

/-- **Nothing is left registered, or released twice.** In a run without the failures that leave something
behind, what is registered is what belongs to the state of the module and a character device for each time
it was unloaded; so it is what belongs to the state just when the module has not been unloaded. -/
theorem registered_iff_owned {es : List (ModuleEvent w)} {s : ModuleState w}
    (h : Run (fun s e s' => s.next HZ e = some s' ∧ e.Careful s) (ModuleState.initial w) es s) :
    s.m.objs.Holds (s.owned + cdevs es) ∧ (s.m.objs.Holds s.owned ↔ ∀ e ∈ es, e.isRmmod = false) := by
  have hholds := ModuleState.initial_run_holds h
  refine ⟨hholds, ?_⟩
  rw [← cdevs_eq_zero_iff]
  constructor
  · intro howned
    exact add_eq_left.mp (hholds.unique howned)
  · intro hzero
    rw [hzero, add_zero] at hholds
    exact hholds

theorem LoadEnv.not_leavesObjs {env : LoadEnv} (hkobject : ∀ iface, env.kobjectInitAndAdd iface = none)
    (hdevice : env.deviceCreate = none) : ¬env.LeavesObjs := by
  rintro ⟨done, unit, todo, _, _, hslips⟩
  cases unit with
  | sysfs =>
      obtain ⟨_, iface, hfails⟩ := hslips
      exact hfails (hkobject iface)
  | ioctl => exact hslips.2.2.2 hdevice
  | _ => exact hslips

/-- A load that fails, one that does not, a few devices, an unload and another load. -/
def loadEvents : List (ModuleEvent 64) :=
  [.insmod { LoadEnv.succeeds with cdevAdd := some Errno.enomem }, .insmod .succeeds,
    .op (.hweAddDevice .spi .succeeds), .op (.hweAddDevice .net .succeeds), .op (.hweDeleteDevice .spi 0), .rmmod,
    .insmod .succeeds, .op (.hweAddDevice .i2c .succeeds)]

theorem hweAddDevice_careful (iface : HweIface) (s : ModuleState w) :
    (ModuleEvent.op (.hweAddDevice iface .succeeds)).Careful s :=
  ⟨fun hfails => AllocNetdev.noConfusion hfails.2.2, fun hleaves => Bool.noConfusion hleaves.2.2.2.2⟩

theorem loadEvents_careful {e : ModuleEvent 64} (he : e ∈ loadEvents) (s : ModuleState 64) : e.Careful s := by
  simp only [loadEvents, List.mem_cons, List.not_mem_nil, or_false] at he
  rcases he with rfl | rfl | rfl | rfl | rfl | rfl | rfl | rfl
  · exact LoadEnv.not_leavesObjs (fun _ => rfl) rfl
  · exact LoadEnv.not_leavesObjs (fun _ => rfl) rfl
  · exact hweAddDevice_careful .spi s
  · exact hweAddDevice_careful .net s
  · exact ⟨id, id⟩
  · trivial
  · exact LoadEnv.not_leavesObjs (fun _ => rfl) rfl
  · exact hweAddDevice_careful .i2c s

theorem ModuleState.run_of_isSome {es : List (ModuleEvent w)} {s : ModuleState w}
    (hes : ∀ e ∈ es, ∀ s : ModuleState w, e.Careful s) (h : (es.foldlM (ModuleState.next HZ) s).isSome = true) :
    ∃ s', Run (fun s e s' => s.next HZ e = some s' ∧ e.Careful s) s es s' := by
  obtain ⟨s', hs'⟩ := Option.isSome_iff_exists.mp h
  have hstep : ∀ s (e : ModuleEvent w) s', True → (∀ s, e.Careful s) → s.next HZ e = some s' →
      (s.next HZ e = some s' ∧ e.Careful s) ∧ True :=
    fun s e s' _ hcareful hnext => ⟨⟨hnext, hcareful s⟩, trivial⟩
  exact ⟨s', Run.restrict hstep (Run.of_foldlM hs') hes trivial⟩

/-- The character device of the unload is left in `loadEvents`. -/
theorem registered_iff_owned_applies : ∃ s : ModuleState 64,
    s.m.objs.Holds (s.owned + cdevs loadEvents) ∧ ¬s.m.objs.Holds s.owned := by
  have hsome : (loadEvents.foldlM (ModuleState.next 250) (ModuleState.initial 64)).isSome = true := by
    decide +kernel
  obtain ⟨s, hrun⟩ := ModuleState.run_of_isSome (fun e he => loadEvents_careful he) hsome
  obtain ⟨hholds, hiff⟩ := registered_iff_owned hrun
  refine ⟨s, hholds, fun howned => ?_⟩
  have hunloaded : ModuleEvent.rmmod ∈ loadEvents := by simp [loadEvents]
  exact absurd (hiff.mp howned .rmmod hunloaded) (by decide)

/-- Loading and unloading the module. -/
def reloadEvents : List (ModuleEvent 64) := [.insmod .succeeds, .rmmod]

theorem unload_leaves_cdev : ∃ s : ModuleState 64,
    Run (fun s e s' => s.next 250 e = some s') (ModuleState.initial 64) reloadEvents s ∧ ¬s.m.objs.Holds s.owned := by
  have hsome : (reloadEvents.foldlM (ModuleState.next 250) (ModuleState.initial 64)).isSome = true := by
    decide +kernel
  have hcareful : ∀ e ∈ reloadEvents, ∀ s : ModuleState 64, e.Careful s := by
    intro e he s
    simp only [reloadEvents, List.mem_cons, List.not_mem_nil, or_false] at he
    rcases he with rfl | rfl
    · exact LoadEnv.not_leavesObjs (fun _ => rfl) rfl
    · trivial
  obtain ⟨s, hrun⟩ := ModuleState.run_of_isSome hcareful hsome
  refine ⟨s, hrun.mono fun _ _ _ hstep => hstep.1, fun howned => ?_⟩
  have hzero : cdevs reloadEvents = 0 :=
    add_eq_left.mp ((ModuleState.initial_run_holds hrun).unique howned)
  exact absurd (cdevs_eq_zero_iff.mp hzero .rmmod (by simp [reloadEvents])) (by decide)

end Hwemu
