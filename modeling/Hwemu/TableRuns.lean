import Hwemu.PrivateTables

/-!
# The tables of the drivers over whole runs

The operations take the lock, and what they do under it is one change of the store and of the tables.
The tables agree with the store as long as no net device fails after `hwenet_init` has entered it: its
entry stays in the list of the driver when its memory is freed.
-/

namespace Hwemu

variable {w : Nat} {HZ : Nat} {m m' m₁ : HwemuModule w} {leak : Multiset KernelObj} {iface : HweIface} {ret : Int}

/-! ### Under the lock -/

theorem HwemuModule.withLock_eq_ok {α : Type} {body : HwemuModule w → Except Fault (α × HwemuModule w)} {a : α} :
    m.withLock iface body = .ok (a, m') ↔
      m.k.sems iface ≠ 0 ∧
        ∃ m₁, body (m.setKernel (m.k.setSem iface (m.k.sems iface - 1))) = .ok (a, m₁) ∧
          m' = m₁.setKernel (unlockIfaceDevs iface m₁.k) := by
  unfold HwemuModule.withLock lockIfaceDevs
  by_cases hsem : m.k.sems iface = 0
  · simp [hsem]
  · rw [if_neg hsem, Except.ok_bind, Except.bind_eq_ok_iff]
    constructor
    · rintro ⟨⟨a', m₁⟩, hbody, hret⟩
      obtain ⟨rfl, rfl⟩ := Prod.mk.inj (Except.ok.inj hret)
      exact ⟨hsem, m₁, hbody, rfl⟩
    · rintro ⟨_, m₁, hbody, rfl⟩
      exact ⟨(a, m₁), hbody, rfl⟩

theorem ModuleInv.setSem (h : ModuleInv m) (iface : HweIface) (n : Nat) :
    ModuleInv (m.setKernel (m.k.setSem iface n)) :=
  ⟨h.store.setSem iface n, h.drivers.congr ⟨rfl, rfl, rfl, rfl⟩ le_rfl, h.matched⟩

/-- What is done under the lock is done, with the lock as it was. -/
theorem Evolved.unlock (hsem : m.k.sems iface ≠ 0)
    (h : Evolved leak (m.setKernel (m.k.setSem iface (m.k.sems iface - 1))) m₁) :
    Evolved leak m (m₁.setKernel (unlockIfaceDevs iface m₁.k)) := by
  cases h with
  | same hc hpairs htable hobjs => exact .same (hc.unlock hsem) hpairs htable hobjs
  | added hc hkey hself hothers hobjs => exact .added (hc.unlock hsem) hkey hself hothers hobjs
  | removed hc hkey hself hothers hobjs => exact .removed (hc.unlock hsem) hkey hself hothers hobjs

/-! ### Operations -/

/-- The operation adds a net device whose allocation fails after `hwenet_init` has run. -/
def ModuleOp.FailsAfterSetup (m : HwemuModule w) : ModuleOp w → Prop
  | .hweAddDevice iface env => env.FailsAfterSetup iface m.k
  | .ifaceAddStore iface buf env => buf.length ≠ 0 ∧ env.FailsAfterSetup iface m.k
  | _ => False

/-- The operation adds an SPI device, and the master stays registered for which `spi_new_device` fails. -/
def ModuleOp.LeavesMaster (m : HwemuModule w) : ModuleOp w → Prop
  | .hweAddDevice iface env => env.LeavesMaster iface m.k
  | .ifaceAddStore iface buf env => buf.length ≠ 0 ∧ env.LeavesMaster iface m.k
  | _ => False

/-- What an operation in a good state did. -/
structure Completed (op : ModuleOp w) (m m' : HwemuModule w) : Prop where
  drivers : DriversInv m'
  evolved : ∃ leak, Evolved leak m m' ∧ (leak ≠ 0 → op.LeavesMaster m)

theorem Completed.inv {op : ModuleOp w} (h : Completed op m m') (hinv : ModuleInv m) : ModuleInv m' := by
  obtain ⟨leak, hevolved, _⟩ := h.evolved
  exact hinv.evolve hevolved h.drivers

theorem Completed.refl {op : ModuleOp w} (h : ModuleInv m) : Completed op m m :=
  ⟨h.drivers, 0, .refl m, absurd rfl⟩

/-- `new_dev` is called under the lock. -/
def LockedNewDev (iface : HweIface) (env : AddDeviceEnv) (m m' : HwemuModule w) : Prop :=
  m.k.sems iface ≠ 0 ∧ ∃ r m₁, (m.setKernel (m.k.setSem iface (m.k.sems iface - 1))).newDev env iface = .ok (r, m₁) ∧
    m' = m₁.setKernel (unlockIfaceDevs iface m₁.k)

theorem hweAddDevice_locked {env : AddDeviceEnv} (hrun : m.hweAddDevice iface env = .ok (ret, m')) :
    LockedNewDev iface env m m' := by
  obtain ⟨hsem, m₁, hbody, rfl⟩ := HwemuModule.withLock_eq_ok.mp hrun
  obtain ⟨⟨r, m₂⟩, hnew, hret⟩ := Except.bind_eq_ok_iff.mp hbody
  obtain ⟨_, rfl⟩ := Prod.mk.inj (Except.ok.inj hret)
  exact ⟨hsem, r, m₂, hnew, rfl⟩

theorem ifaceAddStore_locked {buf : List UInt8} {env : AddDeviceEnv} (hbuf : buf.length ≠ 0)
    (hrun : m.ifaceAddStore iface buf env = .ok (ret, m')) : LockedNewDev iface env m m' := by
  rw [HwemuModule.ifaceAddStore, if_neg hbuf] at hrun
  obtain ⟨hsem, m₁, hbody, rfl⟩ := HwemuModule.withLock_eq_ok.mp hrun
  obtain ⟨⟨r, m₂⟩, hnew, hret⟩ := Except.bind_eq_ok_iff.mp hbody
  obtain ⟨_, rfl⟩ := Prod.mk.inj (Except.ok.inj hret)
  exact ⟨hsem, r, m₂, hnew, rfl⟩

theorem ModuleInv.lockedNewDev (h : ModuleInv m) {op : ModuleOp w} {env : AddDeviceEnv}
    (hsetup : ¬env.FailsAfterSetup iface m.k) (hleaves : env.LeavesMaster iface m.k → op.LeavesMaster m)
    (hadd : LockedNewDev iface env m m') : Completed op m m' := by
  obtain ⟨hsem, r, m₁, hnew, rfl⟩ := hadd
  obtain ⟨leak, r', m₂, hnew', hevolved, hdrivers, hleak⟩ :=
    @ModuleInv.newDev _ _ (h.setSem iface _) env iface hsetup
  obtain ⟨rfl, rfl⟩ := Prod.mk.inj (Except.ok.inj (hnew.symm.trans hnew'))
  exact ⟨hdrivers.congr ⟨rfl, rfl, rfl, rfl⟩ le_rfl, leak, hevolved.unlock hsem, fun hne => hleaves (hleak hne)⟩

/-- A removal under the lock. -/
theorem ModuleInv.lockedShutdownDev (h : ModuleInv m) {op : ModuleOp w} {find : Kernel w → Option (Dev w)}
    {missing removed : Int} (hfind : ∀ k d, find k = some d → d ∈ k.devs)
    (hrun : (m.withLock iface fun m =>
      match find m.k with
      | none => return (missing, m)
      | some dev => do
          let m ← m.shutdownDev dev
          return (removed, m)) = .ok (ret, m')) : Completed op m m' := by
  obtain ⟨hsem, m₁, hbody, rfl⟩ := HwemuModule.withLock_eq_ok.mp hrun
  have hlocked := h.setSem iface (m.k.sems iface - 1)
  cases hd : find (m.setKernel (m.k.setSem iface (m.k.sems iface - 1))).k with
  | none =>
      rw [hd] at hbody
      obtain ⟨_, rfl⟩ := Prod.mk.inj (Except.ok.inj hbody)
      exact ⟨h.drivers.congr ⟨rfl, rfl, rfl, rfl⟩ le_rfl, 0, (Evolved.refl _).unlock hsem, absurd rfl⟩
  | some d =>
      rw [hd] at hbody
      obtain ⟨m₂, hshut, _, hevolved, hdrivers⟩ := hlocked.shutdownDev (hfind _ d hd)
      dsimp only at hbody
      rw [hshut] at hbody
      obtain ⟨_, rfl⟩ := Prod.mk.inj (Except.ok.inj hbody)
      exact ⟨hdrivers.congr ⟨rfl, rfl, rfl, rfl⟩ le_rfl, 0, hevolved.unlock hsem, absurd rfl⟩

/-- **One operation.** -/
theorem ModuleInv.exec (h : ModuleInv m) {op : ModuleOp w} (hsetup : ¬op.FailsAfterSetup m)
    (hrun : m.exec HZ op = .ok (ret, m')) : Completed op m m' := by
  cases op with
  | hweAddDevice iface env => exact h.lockedNewDev hsetup id (hweAddDevice_locked hrun)
  | ifaceAddStore iface buf env =>
      by_cases hbuf : buf.length = 0
      · rw [HwemuModule.exec, HwemuModule.ifaceAddStore, if_pos hbuf] at hrun
        obtain ⟨_, rfl⟩ := Prod.mk.inj (Except.ok.inj hrun)
        exact .refl h
      · exact h.lockedNewDev (fun hfails => hsetup ⟨hbuf, hfails⟩) (fun hleaves => ⟨hbuf, hleaves⟩)
          (ifaceAddStore_locked hbuf hrun)
  | hweDeleteDevice iface devIndex =>
      exact h.lockedShutdownDev (fun k d hd => (findDeviceByIndex_some hd).1) hrun
  | ifaceUninstallStore iface buf =>
      rw [HwemuModule.exec, HwemuModule.ifaceUninstallStore] at hrun
      split at hrun
      · obtain ⟨_, rfl⟩ := Prod.mk.inj (Except.ok.inj hrun)
        exact .refl h
      · exact h.lockedShutdownDev (fun k d hd => findDevice_some hd) hrun
  | onPairs op =>
      obtain ⟨⟨_, k⟩, hpairs, hret⟩ := Except.bind_eq_ok_iff.mp hrun
      obtain ⟨rfl, rfl⟩ := Prod.mk.inj (Except.ok.inj hret)
      obtain ⟨c, honpairs, hc⟩ := exec_onPairs h.store op.property hpairs
      have hsame : SameDrivers m (m.setKernel k) := ⟨rfl, rfl, rfl, rfl⟩
      refine ⟨h.drivers.congr hsame hc.next, 0, .same hc honpairs (fun j => ?_) (.refl 0 m.objs), absurd rfl⟩
      rw [hsame.table]

/-! ### Agreement -/

/-- The tables of the drivers agree with the store: a slot of the tty driver is taken just when a device
has its index, the private devices are those of the store's devices, one to one and with the same record
and index, and no two devices share one. -/
structure HwemuModule.Agree (m : HwemuModule w) : Prop where
  tty : ∀ i, (m.ttyDevices i).isSome = true ↔ ∃ d ∈ (m.k.ifaces .tty).devList, d.index = i
  matched : m.Matched
  apart : ∀ d ∈ m.k.devs, ∀ d' ∈ m.k.devs, d.device = d'.device → d = d'

theorem mem_addrs {p : PrivDev} (hp : p ∈ m.table iface) : p.addr ∈ m.addrs iface := by
  cases iface with
  | i2c =>
      obtain ⟨e, he, rfl⟩ := List.mem_map.mp hp
      exact List.mem_map_of_mem (List.mem_filter.mp he).1
  | _ => exact List.mem_map_of_mem hp

theorem DriversInv.nodup_table (h : DriversInv m) (iface : HweIface) : ((m.table iface).map (·.addr)).Nodup := by
  cases iface with
  | i2c =>
      have hsub : ((m.table .i2c).map (·.addr)).Sublist (m.addrs .i2c) := by
        rw [HwemuModule.table, List.map_map]
        exact List.filter_sublist.map I2cEntry.addr
      exact (h.nodup .i2c).sublist hsub
  | tty => exact h.nodup .tty
  | net => exact h.nodup .net
  | spi => exact h.nodup .spi

theorem ModuleInv.agree (h : ModuleInv m) : m.Agree := by
  refine ⟨fun i => ⟨?_, ?_⟩, h.matched, ?_⟩
  · intro hslot
    obtain ⟨p, hp⟩ := Option.isSome_iff_exists.mp hslot
    obtain ⟨hindex, hlt⟩ := h.drivers.slot i p hp
    obtain ⟨d, hd, hkey⟩ := h.exists_dev (mem_table_tty.mpr ⟨i, hlt, hp⟩)
    exact ⟨d, hd, (congrArg (fun key => key.2.2) hkey).trans hindex⟩
  · rintro ⟨d, hd, rfl⟩
    obtain ⟨p, hp, hkey⟩ := h.exists_priv (Kernel.mem_devs_of_mem hd)
    rw [h.store.iface .tty d hd] at hp
    obtain ⟨i, _, hslot⟩ := mem_table_tty.mp hp
    obtain ⟨hindex, _⟩ := h.drivers.slot i p hslot
    have hkeys : p.index = d.index := congrArg (fun key => key.2.2) hkey
    rw [← hkeys, hindex, hslot]
    rfl
  · intro d hd d' hd' hdevice
    obtain ⟨p, hp, hkey⟩ := h.exists_priv hd
    obtain ⟨p', hp', hkey'⟩ := h.exists_priv hd'
    have haddr : p.addr = p'.addr :=
      Option.some.inj (((congrArg Prod.fst hkey).trans hdevice).trans (congrArg Prod.fst hkey').symm)
    have hiface : d.iface = d'.iface := by
      refine h.drivers.apart d.iface d'.iface p.addr (mem_addrs hp) ?_
      rw [haddr]
      exact mem_addrs hp'
    rw [← hiface] at hp'
    obtain rfl := List.inj_on_of_nodup_map (h.drivers.nodup_table d.iface) hp hp' haddr
    exact h.store.devAddr d hd d' hd' (congrArg (fun key => key.2.1) (hkey.symm.trans hkey'))

/-- The entry of the device stays in the list. -/
theorem hweCreateNetDevice_failsAfter (h : DriversInv m) {env : CreateEnv} (hfails : env.allocNetdev = .failsAfter)
    (hwedev index : Nat) :
    ∃ m', hweCreateNetDevice env hwedev index m = .ok (none, m') ∧ SameStore m.k m'.k ∧
      (m'.table .net).length = (m.table .net).length + 1 := by
  unfold hweCreateNetDevice
  rw [hfails]
  dsimp only
  rw [netListAdd_kept h _]
  exact ⟨_, rfl, (SameStore.alloc m.k).trans (.kfree _ _), rfl⟩

theorem newDev_failsAfterSetup (h : ModuleInv m) {env : AddDeviceEnv}
    (hsetup : env.FailsAfterSetup iface m.k) :
    ∃ m', m.newDev env iface = .ok (none, m') ∧ m'.k.ifaces = m.k.ifaces ∧
      (m'.table .net).length = (m.table .net).length + 1 := by
  obtain ⟨rfl, ⟨hfree, hkzalloc⟩, hfails⟩ := hsetup
  obtain ⟨idx, hfree⟩ := Option.isSome_iff_exists.mp hfree
  obtain ⟨hidx, _⟩ := findFreeDevIndex_eq_some hfree
  obtain ⟨e, k₁, hadd, ⟨haddr, hiface, rfl, _⟩, hk₁, _, hnext⟩ := addDev_some .net idx m.k
  have hsame : SameDrivers m (m.setKernel k₁) := ⟨rfl, rfl, rfl, rfl⟩
  have hdrivers := h.drivers.congr hsame (hnext ▸ Nat.le_succ _)
  obtain ⟨m', hcreate, hstore, hlength⟩ := hweCreateNetDevice_failsAfter hdrivers hfails e.addr e.index
  unfold HwemuModule.newDev
  rw [hfree, hkzalloc]
  simp only [hadd, createPriv]
  rw [hcreate]
  refine ⟨_, rfl, ?_, hlength⟩
  rw [← hiface] at hidx
  exact h.store.unlinkDev_addDev haddr.ge hidx (hstore.ifaces.trans hk₁)

/-- Then there are more entries than net devices. -/
theorem ModuleInv.not_agree_of_locked (h : ModuleInv m) {env : AddDeviceEnv}
    (hsetup : env.FailsAfterSetup iface m.k) (hadd : LockedNewDev iface env m m') : ¬m'.Agree := by
  obtain ⟨hsem, r, m₁, hnew, rfl⟩ := hadd
  obtain ⟨m₂, hnew', hifaces, hlength⟩ := newDev_failsAfterSetup (h.setSem iface _) hsetup
  obtain ⟨rfl, rfl⟩ := Prod.mk.inj (Except.ok.inj (hnew.symm.trans hnew'))
  intro hagree
  have hbefore := (h.matched .net).length_eq
  have hafter := (hagree.matched .net).length_eq
  rw [List.length_map, List.length_map] at hbefore hafter
  change (m₁.table .net).length = (m₁.k.ifaces .net).devList.length at hafter
  change (m₁.table .net).length = (m.table .net).length + 1 at hlength
  rw [hifaces] at hafter
  change (m₁.table .net).length = (m.k.ifaces .net).devList.length at hafter
  omega

theorem ModuleInv.not_agree (h : ModuleInv m) {op : ModuleOp w} (hsetup : op.FailsAfterSetup m)
    (hrun : m.exec HZ op = .ok (ret, m')) : ¬m'.Agree := by
  cases op with
  | hweAddDevice iface env => exact h.not_agree_of_locked hsetup (hweAddDevice_locked hrun)
  | ifaceAddStore iface buf env => exact h.not_agree_of_locked hsetup.2 (ifaceAddStore_locked hsetup.1 hrun)
  | _ => exact absurd hsetup id

/-! ### Runs -/

theorem ModuleInv.empty (objs : Registry KernelObj) :
    ModuleInv (HwemuModule.empty (Kernel.loaded w) objs) := by
  refine ⟨StoreInv.loaded, DriversInv.empty _ _, fun iface => ?_⟩
  rw [HwemuModule.table_empty]
  exact List.Perm.nil

theorem HwemuModule.next_eq_some {op : ModuleOp w} :
    m.next HZ op = some m' ↔ ∃ ret, m.exec HZ op = .ok (ret, m') := by
  unfold HwemuModule.next
  cases m.exec HZ op with
  | error fault => simp [Except.toOption]
  | ok r => simp [Except.toOption, Prod.ext_iff]

/-- **The tables of the drivers agree with the store** in every state of a run just when no step of the
run adds a net device whose allocation fails after `hwenet_init` has run. -/
theorem tables_agree_iff {objs : Registry KernelObj} {ops : List (ModuleOp w)}
    (h : Run (fun m op m' => m.next HZ op = some m') (HwemuModule.empty (Kernel.loaded w) objs) ops m) :
    (∀ ops' m', ops' <+: ops → Run (fun m op m' => m.next HZ op = some m')
        (HwemuModule.empty (Kernel.loaded w) objs) ops' m' → m'.Agree) ↔
      Run (fun m op m' => m.next HZ op = some m' ∧ ¬op.FailsAfterSetup m)
        (HwemuModule.empty (Kernel.loaded w) objs) ops m := by
  refine Run.good_iff_careful ?_ (fun m hinv => hinv.agree) ?_ h (ModuleInv.empty objs)
  · intro m op m' hinv hnext hsetup
    obtain ⟨ret, hrun⟩ := HwemuModule.next_eq_some.mp hnext
    exact (hinv.exec hsetup hrun).inv hinv
  · intro m op m' hinv hnext hsetup
    obtain ⟨ret, hrun⟩ := HwemuModule.next_eq_some.mp hnext
    exact hinv.not_agree (not_not.mp hsetup) hrun

/-- A device of every interface, then one removed and its index taken again, with two failures between. -/
def tableOps : List (ModuleOp 64) :=
  [.hweAddDevice .tty .succeeds, .hweAddDevice .i2c .succeeds, .hweAddDevice .net .succeeds,
    .ifaceAddStore .spi (bytes "1") .succeeds, .hweDeleteDevice .i2c 0,
    .hweAddDevice .i2c { AddDeviceEnv.succeeds with kobjectInitAndAdd := some Errno.enomem },
    .hweAddDevice .net { AddDeviceEnv.succeeds with create := { CreateEnv.succeeds with allocNetdev := .failsBefore } },
    .hweAddDevice .i2c .succeeds, .ifaceUninstallStore .net (bytes "net0")]

theorem tableOps_careful (m : HwemuModule 64) {op : ModuleOp 64} (hop : op ∈ tableOps) : ¬op.FailsAfterSetup m := by
  have hspi : ¬(ModuleOp.ifaceAddStore .spi (bytes "1") .succeeds).FailsAfterSetup m := fun hfails =>
    absurd hfails.2.1 (by decide)
  have hadd : ∀ (iface : HweIface) (env : AddDeviceEnv), env.create.allocNetdev ≠ .failsAfter →
      ¬(ModuleOp.hweAddDevice iface env).FailsAfterSetup m := fun iface env henv hfails => henv hfails.2.2
  simp only [tableOps, List.mem_cons, List.not_mem_nil, or_false] at hop
  rcases hop with rfl | rfl | rfl | rfl | rfl | rfl | rfl | rfl | rfl
  · exact hadd .tty _ AllocNetdev.noConfusion
  · exact hadd .i2c _ AllocNetdev.noConfusion
  · exact hadd .net _ AllocNetdev.noConfusion
  · exact hspi
  · exact id
  · exact hadd .i2c _ AllocNetdev.noConfusion
  · exact hadd .net _ AllocNetdev.noConfusion
  · exact hadd .i2c _ AllocNetdev.noConfusion
  · exact id

theorem tables_agree_iff_applies : ∃ m : HwemuModule 64,
    Run (fun m op m' => m.next 250 op = some m') (HwemuModule.empty (Kernel.loaded 64) .empty) tableOps m ∧
      ∀ ops' m', ops' <+: tableOps → Run (fun m op m' => m.next 250 op = some m')
        (HwemuModule.empty (Kernel.loaded 64) .empty) ops' m' → m'.Agree := by
  have hsome : (tableOps.foldlM (HwemuModule.next 250) (HwemuModule.empty (Kernel.loaded 64) .empty)).isSome =
      true := by decide +kernel
  obtain ⟨m, hm⟩ := Option.isSome_iff_exists.mp hsome
  have hrun := Run.of_foldlM hm
  have hcareful : Run (fun m op m' => m.next 250 op = some m' ∧ ¬op.FailsAfterSetup m)
      (HwemuModule.empty (Kernel.loaded 64) .empty) tableOps m :=
    Run.restrict (I := fun _ => True) (fun m _ _ _ hop hstep => ⟨⟨hstep, tableOps_careful m hop⟩, trivial⟩) hrun
      (fun _ hop => hop) trivial
  exact ⟨m, hrun, (tables_agree_iff hrun).mpr hcareful⟩

/-- A net device whose allocation fails after `hwenet_init` has run. -/
def setupFails : AddDeviceEnv :=
  { AddDeviceEnv.succeeds with create := { CreateEnv.succeeds with allocNetdev := .failsAfter } }

theorem tables_disagree : ∃ m : HwemuModule 64,
    Run (fun m op m' => m.next 250 op = some m') (HwemuModule.empty (Kernel.loaded 64) .empty)
      [.hweAddDevice .net setupFails] m ∧ ¬m.Agree := by
  have hsome : ((HwemuModule.empty (Kernel.loaded 64) .empty).next 250 (.hweAddDevice .net setupFails)).isSome =
      true := by decide +kernel
  obtain ⟨m, hm⟩ := Option.isSome_iff_exists.mp hsome
  obtain ⟨ret, hrun⟩ := HwemuModule.next_eq_some.mp hm
  have hsetup : setupFails.FailsAfterSetup .net (Kernel.loaded 64) := ⟨rfl, ⟨by decide +kernel, rfl⟩, rfl⟩
  have hbad := @ModuleInv.not_agree _ _ _ _ _ (ModuleInv.empty .empty) (.hweAddDevice .net setupFails) hsetup hrun
  exact ⟨m, Run.single hm, hbad⟩

end Hwemu
