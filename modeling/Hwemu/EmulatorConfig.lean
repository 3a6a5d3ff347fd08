import Hwemu.BenchRuns
import Hwemu.ConfigSysfs

/-!
# Configuring the emulator

What is written to the files of the module are operations of the emulator. When no kernel service fails, the
store with the drivers is the store that the writes alone lead to.
-/

namespace Hwemu

variable {w : Nat} {HZ : Nat} {m m' : HwemuModule w} {k k' : Kernel w} {iface : HweIface} {ret : Int}

/-! ### Additions that succeed -/

/-- The i2c driver has no device to take again. -/
def HwemuModule.AllUsed (m : HwemuModule w) : Prop := ∀ e ∈ m.i2cDevices, e.priv.inUse = true

theorem HwemuModule.AllUsed.findUnusedDev (h : m.AllUsed) : findUnusedDev m.i2cDevices = none := by
  refine List.find?_eq_none.mpr fun e he => ?_
  rw [h e he]
  decide

/-- The private device is in the block that was asked for. -/
theorem createPriv_succeeds (h : DriversInv m) (hused : m.AllUsed) (hwedev : Nat) {index : Nat}
    (hindex : index < hweMaxDevices) (iface : HweIface) :
    ∃ m', createPriv iface .succeeds hwedev index m = .ok (some m.k.alloc.1, m') ∧ m'.k = m.k.alloc.2 ∧ m'.AllUsed := by
  cases iface with
  | tty => exact ⟨_, congrArg Except.ok (if_neg (by omega)), rfl, hused⟩
  | i2c =>
      let e : I2cEntry := { addr := m.k.alloc.1, priv := I2cPriv.zeroed.initDev hwedev index }
      let m' : HwemuModule w := { m with k := m.k.alloc.2, i2cDevices := e :: m.i2cDevices }
      refine ⟨m'.register (.i2cAdapter m.k.alloc.1), ?_, rfl, ?_⟩
      · simp only [createPriv, hweCreateI2cDevice, allocDev, hused.findUnusedDev, if_neg (show ¬hweMaxDevices ≤ index by omega)]
        rfl
      · intro e' he'
        rcases List.mem_cons.mp he' with rfl | hold
        · rfl
        · exact hused e' hold
  | net =>
      let e : NetEntry := { priv := { addr := m.k.alloc.1, hwedev := hwedev, index := index }, freed := false }
      have hfreed : m.netDevices.head?.any (·.freed) = false := by
        cases hhead : m.netDevices.head? with
        | none => rfl
        | some e' => exact h.kept e' (List.mem_of_mem_head? hhead)
      have hadd : netListAdd e m.netDevices = .ok (e :: m.netDevices) := by
        rw [netListAdd, hfreed]
        rfl
      let m' : HwemuModule w := { m with k := m.k.alloc.2, netDevices := e :: m.netDevices }
      refine ⟨m'.register (.netDevice m.k.alloc.1), ?_, rfl, hused⟩
      change (netListAdd e m.netDevices >>= _) = _
      rw [hadd]
      rfl
  | spi => exact ⟨_, rfl, rfl, hused⟩

/-- **A device is added** to the store as without the drivers. -/
theorem newDev_withDrivers (h : DriversInv m) (hused : m.AllUsed) (iface : HweIface) {ret : Option (Dev w)}
    (hrun : newDev .succeeds iface m.k = .ok (ret, k')) :
    ∃ m', m.newDev .succeeds iface = .ok (ret, m') ∧ m'.k = k' ∧ m'.AllUsed := by
  unfold Hwemu.newDev at hrun
  unfold HwemuModule.newDev
  cases hfree : findFreeDevIndex iface m.k with
  | none =>
      rw [hfree] at hrun
      obtain ⟨rfl, rfl⟩ := Prod.mk.inj (Except.ok.inj hrun)
      exact ⟨m, rfl, rfl, hused⟩
  | some idx =>
      obtain ⟨hidx, hne⟩ := findFreeDevIndex_eq_some hfree
      have hlt : idx < hweMaxDevices := lt_of_le_of_ne (hidx ▸ Bitmap.findFirstZeroBit_le _) hne
      obtain ⟨e, k₁, hadd, _, _, _, hnext⟩ := addDev_some iface idx m.k
      have hdrivers : DriversInv (m.setKernel k₁) :=
        h.congr ⟨rfl, rfl, rfl, rfl⟩ (hnext ▸ Nat.le_succ _)
      obtain ⟨m₁, hcreate, hk₁, hused₁⟩ := createPriv_succeeds hdrivers hused e.addr hlt iface
      rw [hfree] at hrun
      simp only [NewDevEnv.succeeds, hadd, createDevice, if_true] at hrun
      obtain ⟨rfl, rfl⟩ := Prod.mk.inj (Except.ok.inj hrun)
      simp only [AddDeviceEnv.succeeds, hadd]
      rw [hcreate]
      refine ⟨_, rfl, ?_, hused₁⟩
      change ((m₁.k.modifyDev _ _).modifyDev _ _).modifyDev _ _ = _
      rw [hk₁]
      rfl

theorem ifaceAddStore_withDrivers (h : DriversInv m) (hused : m.AllUsed) {buf : List UInt8} {ret : Int}
    (hrun : ifaceAddStore iface buf .succeeds m.k = .ok (ret, k')) :
    ∃ m', m.ifaceAddStore iface buf .succeeds = .ok (ret, m') ∧ m'.k = k' ∧ m'.AllUsed := by
  unfold Hwemu.ifaceAddStore at hrun
  unfold HwemuModule.ifaceAddStore
  by_cases hbuf : buf.length = 0
  · rw [if_pos hbuf] at hrun ⊢
    obtain ⟨rfl, rfl⟩ := Prod.mk.inj (Except.ok.inj hrun)
    exact ⟨m, rfl, rfl, hused⟩
  · rw [if_neg hbuf] at hrun ⊢
    rw [strToIface_ifaceToStr] at hrun
    obtain ⟨hsem, k₁, hbody, rfl⟩ := withLock_eq_ok.mp hrun
    obtain ⟨⟨dev, k₂⟩, hnew, hret⟩ := Except.bind_eq_ok_iff.mp hbody
    obtain ⟨rfl, rfl⟩ := Prod.mk.inj (Except.ok.inj hret)
    have hlocked : DriversInv (m.setKernel (m.k.setSem iface (m.k.sems iface - 1))) :=
      h.congr ⟨rfl, rfl, rfl, rfl⟩ le_rfl
    obtain ⟨m₁, hrun₁, rfl, hused₁⟩ := newDev_withDrivers hlocked hused iface hnew
    refine ⟨m₁.setKernel (unlockIfaceDevs iface m₁.k), HwemuModule.withLock_eq_ok.mpr ⟨hsem, m₁, ?_, rfl⟩, rfl, hused₁⟩
    rw [hrun₁]
    rfl

/-! ### Writing to the emulator -/

/-- The emulator, with what was done to it and what came of it. -/
structure Traced (w : Nat) where
  emu : Emulator w
  trace : List (EmuEvent w × EmuOutput)

namespace Traced

/-- The module is loaded and nothing has been done yet. -/
def loaded (w : Nat) (objs : Registry KernelObj) : Traced w := { emu := .loaded w objs, trace := [] }

/-- The handler of a file does an operation. -/
def store (HZ : Nat) (op : ModuleOp w) (t : Traced w) : Except Fault (Int × Traced w) := do
  let (ret, m) ← t.emu.m.exec HZ op
  return (ret, { emu := { t.emu with m := m }, trace := t.trace ++ [(.op op, .ret ret)] })

/-- `on_dev` of `write_config`. -/
def writeDev (HZ : Nat) (iface : HweIface) (t : Traced w) : Except PyError (Traced w) :=
  writeFile (fun buf t => t.store HZ (.ifaceAddStore iface buf .succeeds)) ['1'] t

/-- `on_pair` of `write_config`. -/
def writePair (HZ : Nat) (mem : Nat → Pair w) (iface : HweIface) (devName pair : Str) (t : Traced w) :
    Except PyError (Traced w) :=
  match findDevice iface (utf8 devName) t.emu.m.k with
  | none => .error .fileNotFound
  | some d => writeFile (fun buf t =>
      t.store HZ (.onPairs ⟨.devAddStore d.addr buf ((SysfsEnv.succeeds mem).addPair t.emu.m.k), rfl⟩)) pair t

/-- `write_config`, when no kernel service fails. -/
def writeConfig (py : Python) (HZ : Nat) (mem : Nat → Pair w) (config : Config) (t : Traced w) :
    Except PyError (Traced w) :=
  traverseConfig py (fun iface _ t => t.writeDev HZ iface)
    (fun iface devName _ pair t => t.writePair HZ mem iface devName pair) config t

end Traced

/-! ### Configurations -/

/-- Where the visits have their counterparts, so has the traversal. -/
theorem traverseConfig_sim {σ τ : Type} {R : σ → τ → Prop} {py : Python} {onDev : HweIface → Str → σ → Except PyError σ}
    {onPair : HweIface → Str → Int → Str → σ → Except PyError σ} {onDev' : HweIface → Str → τ → Except PyError τ}
    {onPair' : HweIface → Str → Int → Str → τ → Except PyError τ}
    (hdev : ∀ iface devName s s' t, R s t → onDev iface devName s = .ok s' →
      ∃ t', onDev' iface devName t = .ok t' ∧ R s' t')
    (hpair : ∀ iface devName n pair s s' t, R s t → onPair iface devName n pair s = .ok s' →
      ∃ t', onPair' iface devName n pair t = .ok t' ∧ R s' t')
    {config : Config} {s s' : σ} {t : τ} (h : R s t) (hrun : traverseConfig py onDev onPair config s = .ok s') :
    ∃ t', traverseConfig py onDev' onPair' config t = .ok t' ∧ R s' t' := by
  refine Except.foldlM_sim ?_ h hrun
  rintro s s' ⟨iface, devs⟩ t ht hiface
  obtain ⟨devNames, hsorted, hdevs⟩ := Except.bind_eq_ok_iff.mp hiface
  dsimp only [traverseDevs]
  rw [hsorted, Except.ok_bind]
  refine Except.foldlM_sim ?_ ht hdevs
  intro s s' devName t ht hvisit
  dsimp only at hvisit ⊢
  split at hvisit
  · obtain rfl := Except.ok.inj hvisit
    rename_i hskip
    exact ⟨t, if_pos hskip, ht⟩
  · rename_i hskip
    obtain ⟨s₁, hfirst, hpairs⟩ := Except.bind_eq_ok_iff.mp hvisit
    obtain ⟨t₁, hfirst', ht₁⟩ := hdev iface devName s s₁ t ht hfirst
    rw [if_neg hskip, hfirst', Except.ok_bind]
    cases hget : devs.get? devName with
    | none =>
        rw [hget] at hpairs
        exact absurd hpairs (by simp)
    | some dev =>
        rw [hget] at hpairs
        refine Except.foldlM_sim ?_ ht₁ hpairs
        intro s s' n t ht hn
        cases hpairText : dev.get? (.num n) with
        | none =>
            rw [hpairText] at hn
            exact absurd hn (by simp)
        | some pair =>
            rw [hpairText] at hn
            exact hpair iface devName n pair s s' t ht hn

/-- An operation that is accepted, and where no net device fails after its setup. -/
def Accepted (e : EmuEvent w × EmuOutput) : Prop := e.1.SetUp ∧ ∃ op ret, e = (.op op, .ret ret) ∧ 0 ≤ ret

/-- The emulator has the store `k`, its drivers have what belongs to it, and its trace is a run. -/
structure Traced.Stores (HZ : Nat) (s₀ : Emulator w) (k : Kernel w) (t : Traced w) : Prop where
  kernel : t.emu.m.k = k
  inv : ModuleInv t.emu.m
  used : t.emu.m.AllUsed
  run : Run (Emulator.Step HZ) s₀ t.trace t.emu
  accepted : ∀ e ∈ t.trace, Accepted e

section

variable {s₀ : Emulator w} {t : Traced w} {mem : Nat → Pair w}

theorem Traced.Stores.loaded (w HZ : Nat) (objs : Registry KernelObj) :
    (Traced.loaded w objs).Stores HZ (Emulator.loaded w objs) (Kernel.loaded w) :=
  ⟨rfl, .empty objs, fun _ he => absurd he List.not_mem_nil, .nil _, fun _ he => absurd he List.not_mem_nil⟩

/-- An operation that does with the drivers what the store does alone. -/
theorem Traced.Stores.store (h : t.Stores HZ s₀ k) {op : ModuleOp w} (hsetup : (EmuEvent.op op).SetUp)
    (hrun : t.emu.m.exec HZ op = .ok (ret, m')) (hret : 0 ≤ ret) (hk : m'.k = k') (hused : m'.AllUsed) :
    ∃ t', t.store HZ op = .ok (ret, t') ∧ t'.Stores HZ s₀ k' := by
  refine ⟨_, Except.bind_of_eq_ok hrun _, hk, (h.inv.exec (EmuEvent.SetUp.careful hsetup t.emu.m) hrun).inv h.inv, hused,
    Run.snoc_iff.mpr ⟨t.emu, h.run, Except.bind_of_eq_ok hrun _⟩, fun e he => ?_⟩
  rcases List.mem_append.mp he with hold | hnew
  · exact h.accepted e hold
  · rw [List.mem_singleton.mp hnew]
    exact ⟨hsetup, op, ret, rfl, hret⟩

theorem Traced.Stores.writeFile {store : List UInt8 → Kernel w → Except Fault (Int × Kernel w)}
    {store' : List UInt8 → Traced w → Except Fault (Int × Traced w)}
    (hstore : ∀ (page : List UInt8) (k k' : Kernel w) (t : Traced w) (ret : Int), t.Stores HZ s₀ k →
      store page k = .ok (ret, k') → 0 ≤ ret → ∃ t', store' page t = .ok (ret, t') ∧ t'.Stores HZ s₀ k')
    (h : t.Stores HZ s₀ k) {data : Str} (hrun : writeFile store data k = .ok k') :
    ∃ t', Hwemu.writeFile store' data t = .ok t' ∧ t'.Stores HZ s₀ k' := by
  refine Except.foldlM_sim (R := fun k (t : Traced w) => t.Stores HZ s₀ k) ?_ h hrun
  intro k k' page t ht hwrite
  split at hwrite
  · exact absurd hwrite (by simp)
  · rename_i ret k₁ hok
    split at hwrite
    · exact absurd hwrite (by simp)
    · rename_i hret
      obtain rfl := Except.ok.inj hwrite
      obtain ⟨t', hstore', ht'⟩ := hstore page k k₁ t ret ht hok (Int.not_lt.mp hret)
      refine ⟨t', ?_, ht'⟩
      rw [hstore']
      exact if_neg hret

/-- **A device that is written** to the file `add` of an interface. -/
theorem Traced.Stores.writeDev (h : t.Stores HZ s₀ k) (hrun : Hwemu.writeDev (.succeeds mem) iface k = .ok k') :
    ∃ t', t.writeDev HZ iface = .ok t' ∧ t'.Stores HZ s₀ k' := by
  refine Traced.Stores.writeFile ?_ h hrun
  intro page k k' t ret ht hstore hret
  have hstore' : ifaceAddStore iface page .succeeds t.emu.m.k = .ok (ret, k') := ht.kernel ▸ hstore
  obtain ⟨m', hadd, hk', hused⟩ := ifaceAddStore_withDrivers ht.inv.drivers ht.used hstore'
  have hexec : t.emu.m.exec HZ (.ifaceAddStore iface page .succeeds) = .ok (ret, m') := hadd
  refine ht.store ?_ hexec hret hk' hused
  cases iface with
  | net => exact fun hfails => AllocNetdev.noConfusion hfails
  | _ => trivial

/-- **A pair that is written** to the file `add` of a device. -/
theorem Traced.Stores.writePair (h : t.Stores HZ s₀ k) {devName pair : Str}
    (hrun : Hwemu.writePair HZ (.succeeds mem) iface devName pair k = .ok k') :
    ∃ t', t.writePair HZ mem iface devName pair = .ok t' ∧ t'.Stores HZ s₀ k' := by
  unfold Hwemu.writePair at hrun
  unfold Traced.writePair
  rw [h.kernel]
  cases hfind : findDevice iface (utf8 devName) k with
  | none =>
      rw [hfind] at hrun
      exact absurd hrun (by simp)
  | some d =>
      rw [hfind] at hrun
      refine Traced.Stores.writeFile ?_ h hrun
      intro page k k' t ret ht hstore hret
      rw [ht.kernel]
      let op : Op w := .devAddStore d.addr page ((SysfsEnv.succeeds mem).addPair k)
      have hstore' : Hwemu.exec HZ op t.emu.m.k = .ok (ret, k') := ht.kernel ▸ hstore
      have hexec : t.emu.m.exec HZ (.onPairs ⟨op, rfl⟩) = .ok (ret, t.emu.m.setKernel k') :=
        Except.bind_of_eq_ok hstore' _
      exact ht.store trivial hexec hret rfl ht.used

/-- **A configuration that is written** to the store alone is written to the emulator, by a run of it. -/
theorem Traced.Stores.writeConfig (h : t.Stores HZ s₀ k) {py : Python} {config : Config}
    (hrun : Hwemu.writeConfig py HZ (.succeeds mem) config k = .ok k') :
    ∃ t', t.writeConfig py HZ mem config = .ok t' ∧ t'.Stores HZ s₀ k' := by
  refine traverseConfig_sim (R := fun k (t : Traced w) => t.Stores HZ s₀ k) ?_ ?_ h hrun
  · exact fun iface _ k k' t ht hdev => ht.writeDev hdev
  · exact fun iface devName _ pair k k' t ht hpair => ht.writePair hpair

end

end Hwemu
