import Hwemu.TableRuns

/-!
# What operations leave alone of the drivers' memory

An operation on devices and pairs works on at most one private device. The others stay as they are, down to
the response that is pending and the registers; one that is new is as `init_dev` or `kzalloc` leaves it.
-/

namespace Hwemu

variable {w : Nat} {HZ : Nat} {m m₁ m' : HwemuModule w} {iface : HweIface} {ret : Int}

/-- The buffer holds a response, or what is left of one. -/
def I2cPriv.Sound (priv : I2cPriv) : Prop := ∃ acts, priv.buffer.Holds (Chunked.held acts)

/-- No response is pending, and the registers are empty. -/
structure I2cPriv.Fresh (priv : I2cPriv) : Prop where
  respSize : priv.buffer.respSize = 0
  chip : priv.chip = .zeroed

theorem I2cPriv.Sound.zeroed : I2cPriv.zeroed.Sound := ⟨[], RespBuffer.Holds.zeroed⟩

theorem I2cPriv.Sound.initDev {priv : I2cPriv} (h : priv.Sound) (hwedev index : Nat) :
    (priv.initDev hwedev index).Sound := by
  obtain ⟨acts, hholds⟩ := h
  exact ⟨[], hholds.discard⟩

theorem I2cPriv.Fresh.initDev (priv : I2cPriv) (hwedev index : Nat) : (priv.initDev hwedev index).Fresh :=
  ⟨rfl, rfl⟩

/-- The pool of the i2c driver is in order. -/
def HwemuModule.PoolSound (m : HwemuModule w) : Prop := ∀ e ∈ m.i2cDevices, e.priv.Sound

/-- Private devices were destroyed, or nothing happened to them. -/
structure Shrunk (m m' : HwemuModule w) : Prop where
  pool : m.PoolSound → m'.PoolSound
  live : ∀ e ∈ m'.i2cDevices, e.priv.inUse = true → e ∈ m.i2cDevices
  table : ∀ iface, m'.table iface ⊆ m.table iface

/-- Private devices that were there before are as they were, and those that were not are new. -/
structure Kept (m m' : HwemuModule w) : Prop where
  pool : m.PoolSound → m'.PoolSound
  live : ∀ e ∈ m'.i2cDevices, e.priv.inUse = true → e ∈ m.i2cDevices ∨
    e.priv.Fresh ∧ ∀ e' ∈ m.i2cDevices, e'.priv.inUse = true → e'.addr ≠ e.addr
  fresh : ∀ iface, iface ≠ .i2c → ∀ p ∈ m'.table iface, p ∈ m.table iface ∨ m.k.heap.next ≤ p.addr

theorem Shrunk.of_same (h : SameDrivers m m') : Shrunk m m' := by
  refine ⟨fun hpool => ?_, fun e he _ => ?_, fun iface => ?_⟩
  · unfold HwemuModule.PoolSound
    rw [h.i2c]
    exact hpool
  · rwa [h.i2c] at he
  · rw [h.table]
    exact List.Subset.refl _

theorem Shrunk.trans (h : Shrunk m m₁) (h' : Shrunk m₁ m') : Shrunk m m' :=
  ⟨fun hpool => h'.pool (h.pool hpool), fun e he huse => h.live e (h'.live e he huse) huse,
    fun iface => List.Subset.trans (h'.table iface) (h.table iface)⟩

theorem Shrunk.kept (h : Shrunk m m') : Kept m m' :=
  ⟨h.pool, fun e he huse => Or.inl (h.live e he huse), fun iface _ _ hp => Or.inl (h.table iface hp)⟩

theorem Kept.of_same (h : SameDrivers m m') : Kept m m' := (Shrunk.of_same h).kept

theorem Kept.shrink (h : Kept m m₁) (h' : Shrunk m₁ m') : Kept m m' :=
  ⟨fun hpool => h'.pool (h.pool hpool), fun e he huse => h.live e (h'.live e he huse) huse,
    fun iface hne p hp => h.fresh iface hne p (h'.table iface hp)⟩

/-- Memory was taken from the heap before. -/
theorem Kept.after (hsame : SameDrivers m m₁) (hnext : m.k.heap.next ≤ m₁.k.heap.next) (h : Kept m₁ m') :
    Kept m m' := by
  refine ⟨fun hpool => h.pool ((Shrunk.of_same hsame).pool hpool), fun e he huse => ?_, fun iface hne p hp => ?_⟩
  · rw [← hsame.i2c]
    exact h.live e he huse
  · rw [← hsame.table]
    exact (h.fresh iface hne p hp).imp_right hnext.trans

/-! ### Creation -/

theorem mem_filterMap_update {devices : Nat → Option PrivDev} {index : Nat} {dev : Option PrivDev} {p : PrivDev}
    (hp : p ∈ (List.range hweMaxDevices).filterMap (Function.update devices index dev)) :
    p ∈ (List.range hweMaxDevices).filterMap devices ∨ dev = some p := by
  obtain ⟨i, hi, hslot⟩ := List.mem_filterMap.mp hp
  by_cases heq : i = index
  · subst heq
    rw [Function.update_self] at hslot
    exact Or.inr hslot
  · rw [Function.update_of_ne heq] at hslot
    exact Or.inl (List.mem_filterMap.mpr ⟨i, hi, hslot⟩)

theorem hweCreateTtyDevice_kept (env : CreateEnv) (hwedev index : Nat) (m : HwemuModule w) :
    Kept m (hweCreateTtyDevice env hwedev index m).2 := by
  unfold hweCreateTtyDevice
  split
  · exact .of_same ⟨rfl, rfl, rfl, rfl⟩
  · split
    · exact .of_same ⟨rfl, rfl, rfl, rfl⟩
    · dsimp only
      split
      · refine ⟨id, fun e he _ => Or.inl he, fun iface hne p hp => ?_⟩
        cases iface with
        | tty =>
            rcases mem_filterMap_update hp with hold | hnone
            · exact (mem_filterMap_update hold).imp_right fun hnew => by
                obtain rfl := Option.some.inj hnew
                exact le_rfl
            · exact absurd hnone (Option.some_ne_none p).symm
        | i2c => exact absurd rfl hne
        | net => exact Or.inl hp
        | spi => exact Or.inl hp
      · refine ⟨id, fun e he _ => Or.inl he, fun iface hne p hp => ?_⟩
        cases iface with
        | tty =>
            refine (mem_filterMap_update hp).imp_right fun hnew => ?_
            obtain rfl := Option.some.inj hnew
            exact le_rfl
        | i2c => exact absurd rfl hne
        | net => exact Or.inl hp
        | spi => exact Or.inl hp

/-- A device comes into use, with a record that was not in use or new memory. -/
theorem allocDev_kept (h : DriversInv m) {kzalloc : Bool} {hwedev index dev : Nat} {devices : List I2cEntry}
    (halloc : allocDev (if kzalloc then some m.k.alloc.1 else none) hwedev index m.i2cDevices =
      some (dev, devices)) :
    (m.PoolSound → ∀ e ∈ devices, e.priv.Sound) ∧
      ∀ e ∈ devices, e.priv.inUse = true → e ∈ m.i2cDevices ∨
        e.priv.Fresh ∧ ∀ e' ∈ m.i2cDevices, e'.priv.inUse = true → e'.addr ≠ e.addr := by
  cases hret : findUnusedDev m.i2cDevices with
  | some ret =>
      obtain ⟨pre, post, hlist, hunused, hpre, hpost, halloc'⟩ :=
        allocDev_recycled h hret (if kzalloc then some m.k.alloc.1 else none) hwedev index
      obtain ⟨_, rfl⟩ := Prod.mk.inj (Option.some.inj (halloc.symm.trans halloc'))
      have hmem : ∀ e, e ∈ pre ++ post → e ∈ m.i2cDevices := by
        intro e he
        rw [hlist]
        exact List.mem_append.mpr ((List.mem_append.mp he).imp_right (List.mem_cons_of_mem ret))
      have hsplit : ∀ e, e ∈ pre ++ { ret with priv := ret.priv.initDev hwedev index } :: post →
          e ∈ pre ++ post ∨ e = { ret with priv := ret.priv.initDev hwedev index } := by
        intro e he
        rcases List.mem_append.mp he with hin | hin
        · exact Or.inl (List.mem_append_left _ hin)
        · rcases List.mem_cons.mp hin with rfl | hin
          · exact Or.inr rfl
          · exact Or.inl (List.mem_append_right _ hin)
      have hretMem : ret ∈ m.i2cDevices := by
        rw [hlist]
        exact List.mem_append_right pre List.mem_cons_self
      refine ⟨fun hpool e he => ?_, fun e he _ => ?_⟩
      · rcases hsplit e he with hin | rfl
        · exact hpool e (hmem e hin)
        · exact (hpool ret hretMem).initDev hwedev index
      · rcases hsplit e he with hin | rfl
        · exact Or.inl (hmem e hin)
        · refine Or.inr ⟨.initDev _ _ _, fun e' he' huse haddr => ?_⟩
          have hsame := List.inj_on_of_nodup_map (h.nodup .i2c) he' hretMem haddr
          rw [hsame, hunused] at huse
          exact Bool.false_ne_true huse
  | none =>
      unfold allocDev at halloc
      rw [hret] at halloc
      cases kzalloc with
      | false => exact absurd halloc (by simp)
      | true =>
          obtain ⟨rfl, rfl⟩ := Prod.mk.inj (Option.some.inj halloc)
          refine ⟨fun hpool e he => ?_, fun e he _ => ?_⟩
          · rcases List.mem_cons.mp he with rfl | hin
            · exact I2cPriv.Sound.zeroed.initDev hwedev index
            · exact hpool e hin
          · rcases List.mem_cons.mp he with rfl | hin
            · refine Or.inr ⟨.initDev _ _ _, fun e' he' _ => ?_⟩
              exact (h.fresh .i2c e'.addr (List.mem_map_of_mem he')).ne
            · exact Or.inl hin

theorem hweCreateI2cDevice_kept (h : DriversInv m) (env : CreateEnv) (hwedev index : Nat) :
    Kept m (hweCreateI2cDevice env hwedev index m).2 := by
  unfold hweCreateI2cDevice
  split
  · exact .of_same ⟨rfl, rfl, rfl, rfl⟩
  · dsimp only
    split
    · exact .of_same ⟨rfl, rfl, rfl, rfl⟩
    · rename_i dev devices halloc
      obtain ⟨hpool, hlive⟩ := allocDev_kept h halloc
      have htable : ∀ (devices : List I2cEntry) (k : Kernel w) (objs : Registry KernelObj),
          ∀ j, j ≠ .i2c → ∀ p ∈ ({ m with k := k, i2cDevices := devices, objs := objs } : HwemuModule w).table j,
            p ∈ m.table j ∨ m.k.heap.next ≤ p.addr := by
        intro devices k objs j hj p hp
        cases j with
        | i2c => exact absurd rfl hj
        | _ => exact Or.inl hp
      split
      · refine ⟨fun hsound e he => ?_, fun e he huse => ?_, htable _ _ _⟩
        · exact hpool hsound e (List.mem_filter.mp he).1
        · exact hlive e (List.mem_filter.mp he).1 huse
      · exact ⟨hpool, hlive, htable _ _ _⟩

theorem mem_of_netListDel {dev : Nat} {devices devices' : List NetEntry} {e : NetEntry}
    (hdel : netListDel dev devices = .ok devices') (he : e ∈ devices') : e ∈ devices := by
  unfold netListDel at hdel
  dsimp only at hdel
  split at hdel
  · exact absurd hdel (by simp)
  · obtain rfl := Except.ok.inj hdel
    rcases List.mem_append.mp he with hin | hin
    · exact (List.takeWhile_sublist _).subset hin
    · exact (List.dropWhile_sublist _).subset (List.mem_of_mem_drop hin)

theorem mem_of_netListAdd {e e' : NetEntry} {devices devices' : List NetEntry}
    (hadd : netListAdd e devices = .ok devices') (he' : e' ∈ devices') : e' = e ∨ e' ∈ devices := by
  unfold netListAdd at hadd
  split at hadd
  · exact absurd hadd (by simp)
  · obtain rfl := Except.ok.inj hadd
    exact List.mem_cons.mp he'

/-- The net driver puts nothing in its list but the device it was asked for. -/
theorem Kept.of_netDevices {k : Kernel w} {devices : List NetEntry} {objs : Registry KernelObj} {p : PrivDev}
    (hp : m.k.heap.next ≤ p.addr) (hdevices : ∀ e ∈ devices, e.priv = p ∨ e ∈ m.netDevices) :
    Kept m { m with k := k, netDevices := devices, objs := objs } := by
  refine ⟨id, fun e he _ => Or.inl he, fun iface hne q hq => ?_⟩
  cases iface with
  | i2c => exact absurd rfl hne
  | net =>
      obtain ⟨e, he, rfl⟩ := List.mem_map.mp hq
      rcases hdevices e he with hnew | hold
      · rw [hnew]
        exact Or.inr hp
      · exact Or.inl (List.mem_map_of_mem hold)
  | tty => exact Or.inl hq
  | spi => exact Or.inl hq

theorem hweCreateNetDevice_kept {env : CreateEnv} {hwedev index : Nat} {r : Option Nat}
    (hcreate : hweCreateNetDevice env hwedev index m = .ok (r, m')) : Kept m m' := by
  unfold hweCreateNetDevice at hcreate
  dsimp only at hcreate
  split at hcreate
  · obtain ⟨_, rfl⟩ := Prod.mk.inj (Except.ok.inj hcreate)
    exact .of_same ⟨rfl, rfl, rfl, rfl⟩
  · obtain ⟨devices, hadd, hret⟩ := Except.bind_eq_ok_iff.mp hcreate
    obtain ⟨_, rfl⟩ := Prod.mk.inj (Except.ok.inj hret)
    refine .of_netDevices (p := { addr := m.k.alloc.1, hwedev := 0, index := 0 }) le_rfl fun e he => ?_
    exact (mem_of_netListAdd hadd he).imp_left fun heq => congrArg NetEntry.priv heq
  · obtain ⟨devices, hadd, hrest⟩ := Except.bind_eq_ok_iff.mp hcreate
    have hmem : ∀ e ∈ devices, e.priv = { addr := m.k.alloc.1, hwedev := hwedev, index := index } ∨
        e ∈ m.netDevices := fun e he =>
      (mem_of_netListAdd hadd he).imp_left fun heq => congrArg NetEntry.priv heq
    split at hrest
    · obtain ⟨devices', hdel, hret⟩ := Except.bind_eq_ok_iff.mp hrest
      obtain ⟨_, rfl⟩ := Prod.mk.inj (Except.ok.inj hret)
      exact .of_netDevices (p := { addr := m.k.alloc.1, hwedev := hwedev, index := index }) le_rfl
        fun e he => hmem e (mem_of_netListDel hdel he)
    · obtain ⟨_, rfl⟩ := Prod.mk.inj (Except.ok.inj hrest)
      exact .of_netDevices (p := { addr := m.k.alloc.1, hwedev := hwedev, index := index }) le_rfl hmem

theorem newSpiDev_kept (env : CreateEnv) (hwedev index : Nat) (m : HwemuModule w) :
    Kept m (newSpiDev env hwedev index m).2 := by
  unfold newSpiDev
  dsimp only
  split
  · exact .of_same ⟨rfl, rfl, rfl, rfl⟩
  · split
    · exact .of_same ⟨rfl, rfl, rfl, rfl⟩
    · split
      · exact .of_same ⟨rfl, rfl, rfl, rfl⟩
      · refine ⟨id, fun e he _ => Or.inl he, fun iface hne p hp => ?_⟩
        cases iface with
        | i2c => exact absurd rfl hne
        | spi =>
            rcases List.mem_cons.mp hp with rfl | hold
            · exact Or.inr le_rfl
            · exact Or.inl hold
        | tty => exact Or.inl hp
        | net => exact Or.inl hp

/-- **A call of `create`.** -/
theorem createPriv_kept (h : DriversInv m) {env : CreateEnv} {hwedev index : Nat} {r : Option Nat}
    (hcreate : createPriv iface env hwedev index m = .ok (r, m')) : Kept m m' := by
  cases iface with
  | tty =>
      have hkept := hweCreateTtyDevice_kept env hwedev index m
      rwa [Except.ok.inj hcreate] at hkept
  | i2c =>
      have hkept := hweCreateI2cDevice_kept h env hwedev index
      rwa [Except.ok.inj hcreate] at hkept
  | net => exact hweCreateNetDevice_kept hcreate
  | spi =>
      have hkept := newSpiDev_kept env hwedev index m
      rwa [Except.ok.inj hcreate] at hkept

/-! ### Destruction -/

theorem hweDestroyTtyDevice_shrunk {device : Nat} (hdestroy : hweDestroyTtyDevice device m = .ok m') :
    Shrunk m m' := by
  unfold hweDestroyTtyDevice at hdestroy
  split at hdestroy
  · exact absurd hdestroy (by simp)
  · obtain rfl := Except.ok.inj hdestroy
    refine ⟨id, fun e he _ => he, fun iface p hp => ?_⟩
    cases iface with
    | tty =>
        rcases mem_filterMap_update hp with hold | hnone
        · exact hold
        · exact absurd hnone (Option.some_ne_none p).symm
    | _ => exact hp

theorem hweDestroyI2c_shrunk {device : Nat} (hdestroy : hweDestroyI2c device m = .ok m') : Shrunk m m' := by
  unfold hweDestroyI2c at hdestroy
  split at hdestroy
  · exact absurd hdestroy (by simp)
  · obtain rfl := Except.ok.inj hdestroy
    have hlive : ∀ e ∈ m.i2cDevices.map (fun e : I2cEntry =>
        if e.addr = device then { e with priv := hweDestroyI2cDevice e.priv } else e),
        e.priv.inUse = true → e ∈ m.i2cDevices := by
      intro e he huse
      obtain ⟨e₀, he₀, rfl⟩ := List.mem_map.mp he
      split at huse
      · exact absurd huse Bool.false_ne_true
      · rename_i hne
        rwa [if_neg hne]
    refine ⟨fun hpool e he => ?_, hlive, fun iface p hp => ?_⟩
    · obtain ⟨e₀, he₀, rfl⟩ := List.mem_map.mp he
      split
      · exact hpool e₀ he₀
      · exact hpool e₀ he₀
    · cases iface with
      | i2c =>
          obtain ⟨e, he, rfl⟩ := List.mem_map.mp hp
          obtain ⟨hin, huse⟩ := List.mem_filter.mp he
          exact List.mem_map_of_mem (List.mem_filter.mpr ⟨hlive e hin huse, huse⟩)
      | _ => exact hp

theorem hweDestroyNetDevice_shrunk {device : Nat} (hdestroy : hweDestroyNetDevice device m = .ok m') :
    Shrunk m m' := by
  unfold hweDestroyNetDevice at hdestroy
  split at hdestroy
  · exact absurd hdestroy (by simp)
  · split at hdestroy
    · exact absurd hdestroy (by simp)
    · obtain ⟨devices, hdel, hret⟩ := Except.bind_eq_ok_iff.mp hdestroy
      obtain rfl := Except.ok.inj hret
      refine ⟨id, fun e he _ => he, fun iface p hp => ?_⟩
      cases iface with
      | net =>
          obtain ⟨e, he, rfl⟩ := List.mem_map.mp hp
          exact List.mem_map_of_mem (mem_of_netListDel hdel he)
      | _ => exact hp

theorem delSpiDev_shrunk {device : Nat} (hdestroy : delSpiDev device m = .ok m') : Shrunk m m' := by
  unfold delSpiDev at hdestroy
  split at hdestroy
  · exact absurd hdestroy (by simp)
  · obtain rfl := Except.ok.inj hdestroy
    refine ⟨id, fun e he _ => he, fun iface p hp => ?_⟩
    cases iface with
    | spi => exact (List.mem_filter.mp hp).1
    | _ => exact hp

/-- **A call of `destroy`.** -/
theorem destroyPriv_shrunk {device : Nat} (hdestroy : destroyPriv iface device m = .ok m') : Shrunk m m' := by
  cases iface with
  | tty => exact hweDestroyTtyDevice_shrunk hdestroy
  | i2c => exact hweDestroyI2c_shrunk hdestroy
  | net => exact hweDestroyNetDevice_shrunk hdestroy
  | spi => exact delSpiDev_shrunk hdestroy

theorem shutdownDev_shrunk {d : Dev w} (hshut : m.shutdownDev d = .ok m') : Shrunk m m' := by
  -- after the private device only the store and the directories are worked on
  have hrest : ∀ m₁ : HwemuModule w, (do
      let k ← clearPairs d m₁.k
      let m := m₁.setKernel (putDevIndex d.iface d.index (unlinkDev d k))
      let m := if d.pairsKobj then m.unregister (.pairsKobj d.addr) else m
      return (m.unregister (.devKobj d.addr)).kfree d.addr) = Except.ok m' → Shrunk m₁ m' := by
    intro m₁ hwork
    obtain ⟨k, _, hret⟩ := Except.bind_eq_ok_iff.mp hwork
    obtain rfl := Except.ok.inj hret
    split
    · exact .of_same ⟨rfl, rfl, rfl, rfl⟩
    · exact .of_same ⟨rfl, rfl, rfl, rfl⟩
  unfold HwemuModule.shutdownDev at hshut
  cases hdevice : d.device with
  | none =>
      rw [hdevice] at hshut
      exact hrest m hshut
  | some device =>
      rw [hdevice] at hshut
      obtain ⟨m₁, hdestroy, hwork⟩ := Except.bind_eq_ok_iff.mp hshut
      exact (destroyPriv_shrunk hdestroy).trans (hrest m₁ hwork)

/-! ### Operations -/

theorem newDev_kept (h : DriversInv m) {env : AddDeviceEnv} {r : Option (Dev w)}
    (hnew : m.newDev env iface = .ok (r, m')) : Kept m m' := by
  unfold HwemuModule.newDev at hnew
  split at hnew
  · obtain ⟨_, rfl⟩ := Prod.mk.inj (Except.ok.inj hnew)
    exact .of_same ⟨rfl, rfl, rfl, rfl⟩
  · rename_i idx _
    split at hnew
    · obtain ⟨_, rfl⟩ := Prod.mk.inj (Except.ok.inj hnew)
      exact .of_same ⟨rfl, rfl, rfl, rfl⟩
    · rename_i e k hadd
      obtain ⟨⟨device, m₁⟩, hcreate, hrest⟩ := Except.bind_eq_ok_iff.mp hnew
      have hnext : m.k.heap.next ≤ k.heap.next := by
        unfold addDev at hadd
        split at hadd
        · exact absurd (congrArg Prod.fst hadd) (by simp)
        · obtain ⟨_, rfl⟩ := Prod.mk.inj hadd
          exact Nat.le_succ _
      have hsame : SameDrivers m (m.setKernel k) := ⟨rfl, rfl, rfl, rfl⟩
      have hkept : Kept m m₁ := .after hsame hnext (createPriv_kept (h.congr hsame hnext) hcreate)
      -- what follows is at most a call of `shutdown_dev`
      dsimp only at hrest
      split at hrest
      · obtain ⟨_, rfl⟩ := Prod.mk.inj (Except.ok.inj hrest)
        exact hkept.shrink (.of_same ⟨rfl, rfl, rfl, rfl⟩)
      · split at hrest
        · obtain ⟨m₂, hshut, hret⟩ := Except.bind_eq_ok_iff.mp hrest
          obtain ⟨_, rfl⟩ := Prod.mk.inj (Except.ok.inj hret)
          refine hkept.shrink (Shrunk.trans ?_ (shutdownDev_shrunk hshut))
          exact .of_same ⟨rfl, rfl, rfl, rfl⟩
        · split at hrest
          · obtain ⟨m₂, hshut, hret⟩ := Except.bind_eq_ok_iff.mp hrest
            obtain ⟨_, rfl⟩ := Prod.mk.inj (Except.ok.inj hret)
            refine hkept.shrink (Shrunk.trans ?_ (shutdownDev_shrunk hshut))
            exact .of_same ⟨rfl, rfl, rfl, rfl⟩
          · obtain ⟨_, rfl⟩ := Prod.mk.inj (Except.ok.inj hrest)
            exact hkept.shrink (.of_same ⟨rfl, rfl, rfl, rfl⟩)

/-- Work under the lock. -/
theorem Kept.withLock {α : Type} {body : HwemuModule w → Except Fault (α × HwemuModule w)} {a : α}
    (hrun : m.withLock iface body = .ok (a, m'))
    (hbody : ∀ m₁ m₂, SameDrivers m m₁ → m.k.heap.next ≤ m₁.k.heap.next → body m₁ = .ok (a, m₂) → Kept m₁ m₂) :
    Kept m m' := by
  obtain ⟨_, m₁, hwork, rfl⟩ := HwemuModule.withLock_eq_ok.mp hrun
  have hsame : SameDrivers m (m.setKernel (m.k.setSem iface (m.k.sems iface - 1))) := ⟨rfl, rfl, rfl, rfl⟩
  have hkept := hbody _ m₁ hsame le_rfl hwork
  exact (Kept.after hsame le_rfl hkept).shrink (.of_same ⟨rfl, rfl, rfl, rfl⟩)

/-- **An operation.** -/
theorem exec_kept (h : DriversInv m) {op : ModuleOp w} (hrun : m.exec HZ op = .ok (ret, m')) : Kept m m' := by
  cases op with
  | hweAddDevice iface env =>
      rw [HwemuModule.exec, HwemuModule.hweAddDevice] at hrun
      refine Kept.withLock hrun fun m₁ m₂ hsame hnext hbody => ?_
      obtain ⟨⟨r, m₃⟩, hnew, hret⟩ := Except.bind_eq_ok_iff.mp hbody
      obtain ⟨_, rfl⟩ := Prod.mk.inj (Except.ok.inj hret)
      exact newDev_kept (h.congr hsame hnext) hnew
  | ifaceAddStore iface buf env =>
      rw [HwemuModule.exec, HwemuModule.ifaceAddStore] at hrun
      split at hrun
      · obtain ⟨_, rfl⟩ := Prod.mk.inj (Except.ok.inj hrun)
        exact .of_same ⟨rfl, rfl, rfl, rfl⟩
      · refine Kept.withLock hrun fun m₁ m₂ hsame hnext hbody => ?_
        obtain ⟨⟨r, m₃⟩, hnew, hret⟩ := Except.bind_eq_ok_iff.mp hbody
        obtain ⟨_, rfl⟩ := Prod.mk.inj (Except.ok.inj hret)
        exact newDev_kept (h.congr hsame hnext) hnew
  | hweDeleteDevice iface devIndex =>
      rw [HwemuModule.exec, HwemuModule.hweDeleteDevice] at hrun
      refine Kept.withLock hrun fun m₁ m₂ _ _ hbody => ?_
      split at hbody
      · obtain ⟨_, rfl⟩ := Prod.mk.inj (Except.ok.inj hbody)
        exact .of_same ⟨rfl, rfl, rfl, rfl⟩
      · obtain ⟨m₃, hshut, hret⟩ := Except.bind_eq_ok_iff.mp hbody
        obtain ⟨_, rfl⟩ := Prod.mk.inj (Except.ok.inj hret)
        exact (shutdownDev_shrunk hshut).kept
  | ifaceUninstallStore iface buf =>
      rw [HwemuModule.exec, HwemuModule.ifaceUninstallStore] at hrun
      split at hrun
      · obtain ⟨_, rfl⟩ := Prod.mk.inj (Except.ok.inj hrun)
        exact .of_same ⟨rfl, rfl, rfl, rfl⟩
      · refine Kept.withLock hrun fun m₁ m₂ _ _ hbody => ?_
        split at hbody
        · obtain ⟨_, rfl⟩ := Prod.mk.inj (Except.ok.inj hbody)
          exact .of_same ⟨rfl, rfl, rfl, rfl⟩
        · obtain ⟨m₃, hshut, hret⟩ := Except.bind_eq_ok_iff.mp hbody
          obtain ⟨_, rfl⟩ := Prod.mk.inj (Except.ok.inj hret)
          exact (shutdownDev_shrunk hshut).kept
  | onPairs op =>
      obtain ⟨⟨_, k⟩, _, hret⟩ := Except.bind_eq_ok_iff.mp hrun
      obtain ⟨_, rfl⟩ := Prod.mk.inj (Except.ok.inj hret)
      exact .of_same ⟨rfl, rfl, rfl, rfl⟩

end Hwemu
