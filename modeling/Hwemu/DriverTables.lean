import Hwemu.Drivers
import Hwemu.Lib.Keyed

/-!
# The tables of the drivers

Each driver enters a private device in its table at its own moment of creation and takes it out again
when something fails after that. What matters is the same for all four: a device that is created is one
more entry of the table, one that is destroyed one less, and nothing else changes.
-/

namespace Hwemu

variable {w : Nat}

/-! ### Entries -/

def I2cEntry.privDev (e : I2cEntry) : PrivDev :=
  { addr := e.addr, hwedev := e.priv.hwedev, index := e.priv.index }

/-- What a driver has registered for a private device. -/
def PrivDev.objs (p : PrivDev) : HweIface → Multiset KernelObj
  | .tty => {.ttyDevice p.index}
  | .i2c => {.i2cAdapter p.addr}
  | .net => {.netDevice p.addr}
  | .spi => {.spiDevice p.addr, .spiMaster p.addr}

namespace HwemuModule

/-- The private devices in use, of each driver. -/
def table (m : HwemuModule w) : HweIface → List PrivDev
  | .tty => (List.range hweMaxDevices).filterMap m.ttyDevices
  | .i2c => (m.i2cDevices.filter (·.priv.inUse)).map I2cEntry.privDev
  | .net => m.netDevices.map (·.priv)
  | .spi => m.spiDevices

/-- The memory of each driver; the i2c driver keeps devices that are not in use. -/
def addrs (m : HwemuModule w) : HweIface → List Nat
  | .i2c => m.i2cDevices.map (·.addr)
  | iface => (m.table iface).map (·.addr)

theorem table_empty (k : Kernel w) (objs : Registry KernelObj) (iface : HweIface) :
    (HwemuModule.empty k objs).table iface = [] := by
  cases iface with
  | tty => simp [table, HwemuModule.empty]
  | _ => rfl

theorem addrs_empty (k : Kernel w) (objs : Registry KernelObj) (iface : HweIface) :
    (HwemuModule.empty k objs).addrs iface = [] := by
  cases iface with
  | tty => exact congrArg (List.map PrivDev.addr) (table_empty k objs .tty)
  | _ => rfl

end HwemuModule

/-- Every private device has memory and, in the tty driver, a slot of its own; nothing in a list has
been freed. -/
structure DriversInv (m : HwemuModule w) : Prop where
  slot : ∀ i p, m.ttyDevices i = some p → p.index = i ∧ i < hweMaxDevices
  nodup : ∀ iface, (m.addrs iface).Nodup
  apart : ∀ iface iface' a, a ∈ m.addrs iface → a ∈ m.addrs iface' → iface = iface'
  fresh : ∀ iface, ∀ a ∈ m.addrs iface, a < m.k.heap.next
  kept : ∀ e ∈ m.netDevices, e.freed = false

/-- The store is the same, but for memory taken from the heap. -/
structure SameStore (k k' : Kernel w) : Prop where
  ifaces : k'.ifaces = k.ifaces
  sems : k'.sems = k.sems
  next : k.heap.next ≤ k'.heap.next

/-- The tables of the drivers are the same. -/
structure SameDrivers (m m' : HwemuModule w) : Prop where
  tty : m'.ttyDevices = m.ttyDevices
  i2c : m'.i2cDevices = m.i2cDevices
  net : m'.netDevices = m.netDevices
  spi : m'.spiDevices = m.spiDevices

/-- The tables of the other drivers are the same. -/
structure SameBut (iface : HweIface) (m m' : HwemuModule w) : Prop where
  tty : iface ≠ .tty → m'.ttyDevices = m.ttyDevices
  i2c : iface ≠ .i2c → m'.i2cDevices = m.i2cDevices
  net : iface ≠ .net → m'.netDevices = m.netDevices
  spi : iface ≠ .spi → m'.spiDevices = m.spiDevices

/-- One more private device of an interface. -/
structure Entered (iface : HweIface) (p : PrivDev) (m m' : HwemuModule w) : Prop where
  inv : DriversInv m'
  store : SameStore m.k m'.k
  table : (m'.table iface).Perm (p :: m.table iface)
  others : SameBut iface m m'
  objs : Registry.Trades 0 (p.objs iface) m.objs m'.objs

/-- The private devices are the same, and `leak` stays registered. -/
structure Untouched (leak : Multiset KernelObj) (m m' : HwemuModule w) : Prop where
  inv : DriversInv m'
  store : SameStore m.k m'.k
  table : m'.table = m.table
  objs : Registry.Trades 0 leak m.objs m'.objs

/-- A private device of an interface less. -/
structure Left (iface : HweIface) (p : PrivDev) (m m' : HwemuModule w) : Prop where
  inv : DriversInv m'
  store : SameStore m.k m'.k
  table : (p :: m'.table iface).Perm (m.table iface)
  others : SameBut iface m m'
  objs : Registry.Trades (p.objs iface) 0 m.objs m'.objs

namespace SameStore

variable {k k' k'' : Kernel w}

theorem refl (k : Kernel w) : SameStore k k := ⟨rfl, rfl, le_rfl⟩

theorem trans (h : SameStore k k') (h' : SameStore k' k'') : SameStore k k'' :=
  ⟨h'.ifaces.trans h.ifaces, h'.sems.trans h.sems, h.next.trans h'.next⟩

theorem alloc (k : Kernel w) : SameStore k k.alloc.2 := ⟨rfl, rfl, Nat.le_succ _⟩

theorem kfree (addr : Nat) (k : Kernel w) : SameStore k (k.kfree addr) := ⟨rfl, rfl, le_rfl⟩

end SameStore

namespace SameDrivers

variable {m m' : HwemuModule w}

theorem table (h : SameDrivers m m') : m'.table = m.table := by
  funext iface
  cases iface <;> simp only [HwemuModule.table, h.tty, h.i2c, h.net, h.spi]

theorem addrs (h : SameDrivers m m') : m'.addrs = m.addrs := by
  funext iface
  cases iface <;> simp only [HwemuModule.addrs, h.table, h.i2c]

end SameDrivers

namespace SameBut

variable {m m' : HwemuModule w} {iface j : HweIface}

theorem tty_only (hi2c : m'.i2cDevices = m.i2cDevices) (hnet : m'.netDevices = m.netDevices)
    (hspi : m'.spiDevices = m.spiDevices) : SameBut .tty m m' :=
  ⟨absurd rfl, fun _ => hi2c, fun _ => hnet, fun _ => hspi⟩

theorem i2c_only (htty : m'.ttyDevices = m.ttyDevices) (hnet : m'.netDevices = m.netDevices)
    (hspi : m'.spiDevices = m.spiDevices) : SameBut .i2c m m' :=
  ⟨fun _ => htty, absurd rfl, fun _ => hnet, fun _ => hspi⟩

theorem net_only (htty : m'.ttyDevices = m.ttyDevices) (hi2c : m'.i2cDevices = m.i2cDevices)
    (hspi : m'.spiDevices = m.spiDevices) : SameBut .net m m' :=
  ⟨fun _ => htty, fun _ => hi2c, absurd rfl, fun _ => hspi⟩

theorem spi_only (htty : m'.ttyDevices = m.ttyDevices) (hi2c : m'.i2cDevices = m.i2cDevices)
    (hnet : m'.netDevices = m.netDevices) : SameBut .spi m m' :=
  ⟨fun _ => htty, fun _ => hi2c, fun _ => hnet, absurd rfl⟩

theorem table (h : SameBut iface m m') (hj : j ≠ iface) : m'.table j = m.table j := by
  cases j with
  | tty => simp only [HwemuModule.table, h.tty hj.symm]
  | i2c => simp only [HwemuModule.table, h.i2c hj.symm]
  | net => simp only [HwemuModule.table, h.net hj.symm]
  | spi => simp only [HwemuModule.table, h.spi hj.symm]

theorem addrs (h : SameBut iface m m') (hj : j ≠ iface) : m'.addrs j = m.addrs j := by
  cases j with
  | i2c => simp only [HwemuModule.addrs, h.i2c hj.symm]
  | _ => simp only [HwemuModule.addrs, h.table hj]

/-- The memory of one driver is a part of what it was. -/
theorem subperm (h : SameBut iface m m') (hself : (m'.addrs iface).Subperm (m.addrs iface)) (j : HweIface) :
    (m'.addrs j).Subperm (m.addrs j) := by
  by_cases hj : j = iface
  · subst hj
    exact hself
  · rw [h.addrs hj]

end SameBut

namespace DriversInv

variable {m m' : HwemuModule w} {a : Nat}

theorem empty (k : Kernel w) (objs : Registry KernelObj) : DriversInv (HwemuModule.empty k objs) := by
  have haddrs := HwemuModule.addrs_empty k objs
  refine ⟨fun i p h => absurd h (Option.some_ne_none p).symm, ?_, ?_, ?_, fun e he => absurd he List.not_mem_nil⟩
  · intro iface
    rw [haddrs]
    exact List.nodup_nil
  · intro iface iface' a ha
    rw [haddrs] at ha
    exact absurd ha List.not_mem_nil
  · intro iface a ha
    rw [haddrs] at ha
    exact absurd ha List.not_mem_nil

/-- Memory that was just taken from the heap. -/
theorem enter (h : DriversInv m) (iface : HweIface) (hlow : m.k.heap.next ≤ a) (hhigh : a < m'.k.heap.next)
    (hself : (m'.addrs iface).Perm (a :: m.addrs iface)) (hothers : SameBut iface m m')
    (hslot : ∀ i p, m'.ttyDevices i = some p → p.index = i ∧ i < hweMaxDevices)
    (hkept : ∀ e ∈ m'.netDevices, e.freed = false) : DriversInv m' := by
  have hnew : ∀ j, a ∉ m.addrs j := fun j ha => absurd (h.fresh j a ha) (by omega)
  have hmem : ∀ j b, b ∈ m'.addrs j → (j = iface ∧ b = a) ∨ b ∈ m.addrs j := by
    intro j b hb
    by_cases hj : j = iface
    · subst hj
      exact (List.mem_cons.mp (hself.mem_iff.mp hb)).imp_left fun heq => ⟨rfl, heq⟩
    · rw [hothers.addrs hj] at hb
      exact Or.inr hb
  refine ⟨hslot, ?_, ?_, ?_, hkept⟩
  · intro j
    by_cases hj : j = iface
    · subst hj
      exact hself.nodup_iff.mpr (List.nodup_cons.mpr ⟨hnew j, h.nodup j⟩)
    · rw [hothers.addrs hj]
      exact h.nodup j
  · intro j j' b hb hb'
    rcases hmem j b hb with ⟨rfl, rfl⟩ | hold
    · rcases hmem j' b hb' with ⟨rfl, _⟩ | hold'
      · rfl
      · exact absurd hold' (hnew j')
    · rcases hmem j' b hb' with ⟨rfl, rfl⟩ | hold'
      · exact absurd hold (hnew j)
      · exact h.apart j j' b hold hold'
  · intro j b hb
    rcases hmem j b hb with ⟨rfl, rfl⟩ | hold
    · exact hhigh
    · exact lt_trans (h.fresh j b hold) (lt_of_le_of_lt hlow hhigh)

/-- Nothing new. -/
theorem leave (h : DriversInv m) (hnext : m.k.heap.next ≤ m'.k.heap.next)
    (haddrs : ∀ j, (m'.addrs j).Subperm (m.addrs j))
    (hslot : ∀ i p, m'.ttyDevices i = some p → p.index = i ∧ i < hweMaxDevices)
    (hkept : ∀ e ∈ m'.netDevices, e.freed = false) : DriversInv m' := by
  refine ⟨hslot, ?_, ?_, ?_, hkept⟩
  · intro j
    obtain ⟨l, hperm, hsub⟩ := haddrs j
    exact hperm.nodup_iff.mp ((h.nodup j).sublist hsub)
  · exact fun j j' b hb hb' => h.apart j j' b ((haddrs j).subset hb) ((haddrs j').subset hb')
  · exact fun j b hb => lt_of_lt_of_le (h.fresh j b ((haddrs j).subset hb)) hnext

/-- Only the heap has grown. -/
theorem congr (h : DriversInv m) (hsame : SameDrivers m m') (hnext : m.k.heap.next ≤ m'.k.heap.next) :
    DriversInv m' := by
  refine h.leave hnext ?_ ?_ ?_
  · intro j
    rw [hsame.addrs]
  · rw [hsame.tty]
    exact h.slot
  · rw [hsame.net]
    exact h.kept

end DriversInv

/-! ### Creation -/

/-- The master is registered and `spi_new_device` fails. -/
def CreateEnv.LeavesMaster (env : CreateEnv) : Prop :=
  env.spiAllocMaster = true ∧ env.spiRegisterMaster = none ∧ env.spiNewDevice = false

/-- A call of `create` leaves the drivers as they were, or enters a private device for the index. -/
def Created (iface : HweIface) (env : CreateEnv) (hwedev index : Nat) (m : HwemuModule w)
    (r : Except Fault (Option Nat × HwemuModule w)) : Prop :=
  (∃ leak m', r = .ok (none, m') ∧ Untouched leak m m' ∧ (leak ≠ 0 → iface = .spi ∧ env.LeavesMaster)) ∨
    ∃ a m', r = .ok (some a, m') ∧ Entered iface { addr := a, hwedev := hwedev, index := index } m m'

section

variable {m : HwemuModule w} {hwedev index : Nat}

theorem Untouched.of_eq {m' : HwemuModule w} (h : DriversInv m) (hk : SameStore m.k m'.k)
    (hsame : SameDrivers m m') (hobjs : m'.objs = m.objs) : Untouched 0 m m' :=
  ⟨h.congr hsame hk.next, hk, hsame.table, hobjs ▸ Registry.Trades.refl 0 m.objs⟩

theorem Untouched.refl (h : DriversInv m) : Untouched 0 m m := .of_eq h (.refl m.k) ⟨rfl, rfl, rfl, rfl⟩ rfl

/-- A failure that leaves nothing behind. -/
theorem Created.of_untouched {iface : HweIface} {env : CreateEnv} {m' : HwemuModule w}
    {r : Except Fault (Option Nat × HwemuModule w)} (hr : r = .ok (none, m')) (h : Untouched 0 m m') :
    Created iface env hwedev index m r := Or.inl ⟨0, m', hr, h, absurd rfl⟩

theorem hweCreateTtyDevice_created (h : DriversInv m) (env : CreateEnv) (hindex : index < hweMaxDevices)
    (hfree : m.ttyDevices index = none) :
    Created .tty env hwedev index m (.ok (hweCreateTtyDevice env hwedev index m)) := by
  unfold hweCreateTtyDevice
  rw [if_neg (by omega)]
  cases env.kzalloc with
  | false => exact .of_untouched rfl (.refl h)
  | true =>
      cases env.ttyPortRegisterDevice with
      | some err =>
          refine .of_untouched rfl (.of_eq h ((SameStore.alloc m.k).trans (.kfree m.k.alloc.1 _))
            ⟨?_, rfl, rfl, rfl⟩ rfl)
          change Function.update (Function.update m.ttyDevices index _) index none = m.ttyDevices
          rw [Function.update_idem, ← hfree, Function.update_eq_self]
      | none =>
          refine Or.inr ⟨_, _, rfl, ?_⟩
          let p : PrivDev := { addr := m.k.alloc.1, hwedev := hwedev, index := index }
          have htable := Keyed.filterMap_fill List.nodup_range (List.mem_range.mpr hindex) hfree p
          refine ⟨h.enter .tty le_rfl (Nat.lt_succ_self _) (htable.map _) (.tty_only rfl rfl rfl) ?_ h.kept,
            .alloc m.k, htable, .tty_only rfl rfl rfl, .acquire _ 0 m.objs⟩
          intro i q hq
          by_cases hi : i = index
          · subst hi
            change Function.update m.ttyDevices i (some p) i = some q at hq
            rw [Function.update_self] at hq
            obtain rfl := Option.some.inj hq
            exact ⟨rfl, hindex⟩
          · change Function.update m.ttyDevices index (some p) i = some q at hq
            rw [Function.update_of_ne hi] at hq
            exact h.slot i q hq

/-- The list of the i2c driver around a device that is not in use. -/
theorem DriversInv.split_i2c (h : DriversInv m) {e : I2cEntry} (he : e ∈ m.i2cDevices) :
    ∃ pre post, m.i2cDevices = pre ++ e :: post ∧ (∀ b ∈ pre, b.addr ≠ e.addr) ∧
      ∀ b ∈ post, b.addr ≠ e.addr :=
  Keyed.split (h.nodup .i2c) he

/-- Taking a device that is not in use. -/
theorem allocDev_recycled (h : DriversInv m) {ret : I2cEntry} (hret : findUnusedDev m.i2cDevices = some ret)
    (kzalloc : Option Nat) (hwedev index : Nat) :
    ∃ pre post, m.i2cDevices = pre ++ ret :: post ∧ ret.priv.inUse = false ∧
      (∀ b ∈ pre, b.addr ≠ ret.addr) ∧ (∀ b ∈ post, b.addr ≠ ret.addr) ∧
      allocDev kzalloc hwedev index m.i2cDevices =
        some (ret.addr, pre ++ { ret with priv := ret.priv.initDev hwedev index } :: post) := by
  obtain ⟨pre, post, hlist, hpre, hpost⟩ := h.split_i2c (List.mem_of_find?_eq_some hret)
  have hunused : ret.priv.inUse = false := by simpa using List.find?_some hret
  refine ⟨pre, post, hlist, hunused, hpre, hpost, ?_⟩
  unfold allocDev
  rw [hret]
  dsimp only
  rw [hlist]
  have hmap := Keyed.map_split hpre hpost fun dev : I2cEntry =>
    { dev with priv := dev.priv.initDev hwedev index }
  rw [← hmap]

theorem filter_inUse_drop {pre post : List I2cEntry} {e : I2cEntry} (he : e.priv.inUse = false) :
    (pre ++ e :: post).filter (·.priv.inUse) = (pre ++ post).filter (·.priv.inUse) := by
  rw [List.filter_append, List.filter_append, List.filter_cons_of_neg (by simp [he])]

theorem filter_inUse_perm {pre post : List I2cEntry} {e : I2cEntry} (he : e.priv.inUse = true) :
    ((pre ++ e :: post).filter (·.priv.inUse)).Perm (e :: (pre ++ post).filter (·.priv.inUse)) := by
  rw [List.filter_append, List.filter_append, List.filter_cons_of_pos (by simp [he])]
  exact List.perm_middle

theorem delI2cDev_i2cDevices (dev : Nat) (m : HwemuModule w) :
    (delI2cDev dev m).i2cDevices = m.i2cDevices.filter fun e => e.addr ≠ dev := rfl

theorem hweCreateI2cDevice_created (h : DriversInv m) (env : CreateEnv) (hindex : index < hweMaxDevices) :
    Created .i2c env hwedev index m (.ok (hweCreateI2cDevice env hwedev index m)) := by
  unfold hweCreateI2cDevice
  rw [if_neg (by omega)]
  dsimp only
  cases hret : findUnusedDev m.i2cDevices with
  | some ret =>
      obtain ⟨pre, post, hlist, hunused, hpre, hpost, halloc⟩ :=
        allocDev_recycled h hret (if env.kzalloc then some m.k.alloc.1 else none) hwedev index
      rw [halloc]
      have hold : m.table .i2c = ((pre ++ post).filter (·.priv.inUse)).map I2cEntry.privDev := by
        rw [HwemuModule.table, hlist, filter_inUse_drop hunused]
      have haddrs : m.addrs .i2c = (pre ++ ret :: post).map (·.addr) := congrArg _ hlist
      cases env.i2cAddAdapter with
      | some err =>
          have hdel := @Keyed.filter_split _ _ _ I2cEntry.addr pre post
            { ret with priv := ret.priv.initDev hwedev index } hpre hpost
          have hbut : SameBut .i2c m (delI2cDev ret.addr { m with
              i2cDevices := pre ++ { ret with priv := ret.priv.initDev hwedev index } :: post }) :=
            .i2c_only rfl rfl rfl
          refine .of_untouched rfl ⟨h.leave le_rfl (hbut.subperm ?_) h.slot h.kept, .kfree _ m.k, ?_, .refl 0 m.objs⟩
          · rw [haddrs, HwemuModule.addrs, delI2cDev_i2cDevices, hdel]
            exact (((List.sublist_cons_self ret post).append_left pre).map _).subperm
          · funext j
            by_cases hj : j = .i2c
            · subst hj
              rw [hold, HwemuModule.table, delI2cDev_i2cDevices, hdel]
            · exact hbut.table hj
      | none =>
          refine Or.inr ⟨_, _, rfl, ?_⟩
          let e : I2cEntry := { ret with priv := ret.priv.initDev hwedev index }
          have hbut : SameBut .i2c m { m with i2cDevices := pre ++ e :: post } := .i2c_only rfl rfl rfl
          refine ⟨h.leave le_rfl (hbut.subperm ?_) h.slot h.kept, .refl m.k, ?_, .i2c_only rfl rfl rfl,
            .acquire _ 0 m.objs⟩
          · have hsame : (pre ++ e :: post).map (·.addr) = (pre ++ ret :: post).map (·.addr) := by
              rw [List.map_append, List.map_append]
              rfl
            rw [haddrs, ← hsame]
            exact List.Subperm.refl _
          · rw [hold]
            exact (@filter_inUse_perm pre post e rfl).map I2cEntry.privDev
  | none =>
      have hnone : allocDev none hwedev index m.i2cDevices = none := by
        unfold allocDev
        rw [hret]
      cases env.kzalloc with
      | false =>
          refine .of_untouched ?_ (.refl h)
          simp [hnone]
      | true =>
          let e : I2cEntry := { addr := m.k.alloc.1, priv := I2cPriv.zeroed.initDev hwedev index }
          have halloc : allocDev (some m.k.alloc.1) hwedev index m.i2cDevices =
              some (m.k.alloc.1, e :: m.i2cDevices) := by
            unfold allocDev
            rw [hret]
          rw [if_pos rfl, halloc]
          cases env.i2cAddAdapter with
          | some err =>
              refine .of_untouched rfl (.of_eq h ((SameStore.alloc m.k).trans (.kfree _ _))
                ⟨rfl, ?_, rfl, rfl⟩ rfl)
              change (e :: m.i2cDevices).filter (fun b => b.addr ≠ m.k.alloc.1) = m.i2cDevices
              rw [List.filter_cons_of_neg (by simp [e])]
              refine @Keyed.filter_of_ne _ _ _ I2cEntry.addr _ _ fun b hb => ?_
              exact (h.fresh .i2c b.addr (List.mem_map_of_mem hb)).ne
          | none =>
              refine Or.inr ⟨_, _, rfl, ?_⟩
              exact ⟨h.enter .i2c le_rfl (Nat.lt_succ_self _) (List.Perm.refl _) (.i2c_only rfl rfl rfl) h.slot h.kept,
                .alloc m.k, List.Perm.refl _, .i2c_only rfl rfl rfl, .acquire _ 0 m.objs⟩

theorem netListAdd_kept (h : DriversInv m) (e : NetEntry) :
    netListAdd e m.netDevices = .ok (e :: m.netDevices) := by
  have hhead : m.netDevices.head?.any (·.freed) = false := by
    cases hlist : m.netDevices with
    | nil => rfl
    | cons e₀ es => exact h.kept e₀ (by rw [hlist]; exact List.mem_cons_self)
  unfold netListAdd
  rw [if_neg (by simp [hhead])]

/-- Taking an entry out of a list in which nothing was freed. -/
theorem netListDel_kept {pre post : List NetEntry} {e : NetEntry} (hpre : ∀ b ∈ pre, b.priv.addr ≠ e.priv.addr)
    (hkept : ∀ b ∈ pre ++ post, b.freed = false) :
    netListDel e.priv.addr (pre ++ e :: post) = .ok (pre ++ post) := by
  have htake : (pre ++ e :: post).takeWhile (fun b => b.priv.addr ≠ e.priv.addr) = pre := by
    rw [List.takeWhile_append_of_pos fun b hb => decide_eq_true (hpre b hb)]
    simp
  have hdrop : (pre ++ e :: post).dropWhile (fun b => b.priv.addr ≠ e.priv.addr) = e :: post := by
    rw [List.dropWhile_append_of_pos fun b hb => decide_eq_true (hpre b hb)]
    simp
  have hbefore : pre.getLast?.any (·.freed) = false := by
    cases hlast : pre.getLast? with
    | none => rfl
    | some b => exact hkept b (List.mem_append_left _ (List.mem_of_getLast? hlast))
  have hafter : post.head?.any (·.freed) = false := by
    cases hhead : post.head? with
    | none => rfl
    | some b => exact hkept b (List.mem_append_right _ (List.mem_of_head? hhead))
  unfold netListDel
  rw [htake, hdrop]
  change (if pre.getLast?.any (·.freed) || post.head?.any (·.freed) then _ else _) = _
  rw [hbefore, hafter]
  rfl

theorem hweCreateNetDevice_created (h : DriversInv m) {env : CreateEnv} (hsetup : env.allocNetdev ≠ .failsAfter) :
    Created .net env hwedev index m (hweCreateNetDevice env hwedev index m) := by
  unfold hweCreateNetDevice
  dsimp only
  cases halloc : env.allocNetdev with
  | failsAfter => exact absurd halloc hsetup
  | failsBefore => exact .of_untouched rfl (.refl h)
  | succeeds =>
      let e : NetEntry :=
        { priv := { addr := m.k.alloc.1, hwedev := hwedev, index := index }, freed := false }
      dsimp only
      rw [netListAdd_kept h e, Except.ok_bind]
      cases env.registerNetdev with
      | some err =>
          have hdel := @netListDel_kept [] m.netDevices e (fun b hb => absurd hb List.not_mem_nil) h.kept
          refine .of_untouched (Except.bind_of_eq_ok hdel _) ?_
          exact .of_eq h ((SameStore.alloc m.k).trans (.kfree _ _)) ⟨rfl, rfl, rfl, rfl⟩ rfl
      | none =>
          refine Or.inr ⟨_, _, rfl, ?_⟩
          exact ⟨h.enter .net le_rfl (Nat.lt_succ_self _) (List.Perm.refl _) (.net_only rfl rfl rfl) h.slot
              (List.forall_mem_cons.mpr ⟨rfl, h.kept⟩),
            .alloc m.k, List.Perm.refl _, .net_only rfl rfl rfl, .acquire _ 0 m.objs⟩

theorem newSpiDev_created (h : DriversInv m) (env : CreateEnv) :
    Created .spi env hwedev index m (.ok (newSpiDev env hwedev index m)) := by
  unfold newSpiDev
  cases halloc : env.spiAllocMaster with
  | false => exact .of_untouched rfl (.refl h)
  | true =>
      cases hregister : env.spiRegisterMaster with
      | some err =>
          exact .of_untouched rfl
            (.of_eq h ((SameStore.alloc m.k).trans (.kfree _ _)) ⟨rfl, rfl, rfl, rfl⟩ rfl)
      | none =>
          cases hnew : env.spiNewDevice with
          | false =>
              refine Or.inl ⟨{.spiMaster m.k.alloc.1}, _, rfl, ?_, fun _ => ⟨rfl, halloc, hregister, hnew⟩⟩
              have hsame : SameDrivers m ((m.setKernel m.k.alloc.2).register (.spiMaster m.k.alloc.1)) :=
                ⟨rfl, rfl, rfl, rfl⟩
              exact ⟨h.congr hsame (SameStore.alloc m.k).next, .alloc m.k, hsame.table, .acquire _ 0 m.objs⟩
          | true =>
              refine Or.inr ⟨_, _, rfl, ?_⟩
              exact ⟨h.enter .spi le_rfl (Nat.lt_succ_self _) (List.Perm.refl _) (.spi_only rfl rfl rfl) h.slot h.kept,
                .alloc m.k, List.Perm.refl _, .spi_only rfl rfl rfl,
                (Registry.Trades.acquire _ 0 m.objs).trans (.acquire _ _ _)⟩

/-- **Creation.** -/
theorem createPriv_created (h : DriversInv m) (iface : HweIface) {env : CreateEnv} (hindex : index < hweMaxDevices)
    (hfree : iface = .tty → m.ttyDevices index = none)
    (hsetup : iface = .net → env.allocNetdev ≠ .failsAfter) :
    Created iface env hwedev index m (createPriv iface env hwedev index m) := by
  cases iface with
  | tty => exact hweCreateTtyDevice_created h env hindex (hfree rfl)
  | i2c => exact hweCreateI2cDevice_created h env hindex
  | net => exact hweCreateNetDevice_created h (hsetup rfl)
  | spi => exact newSpiDev_created h env

/-! ### Destruction -/

theorem subperm_addrs {p : PrivDev} {l l' : List PrivDev} (h : (p :: l).Perm l') :
    (l.map (·.addr)).Subperm (l'.map (·.addr)) := by
  refine List.Subperm.trans ?_ (h.map PrivDev.addr).subperm
  exact (List.sublist_cons_self p.addr _).subperm

theorem mem_table_tty {p : PrivDev} : p ∈ m.table .tty ↔ ∃ i < hweMaxDevices, m.ttyDevices i = some p := by
  rw [HwemuModule.table, List.mem_filterMap]
  exact exists_congr fun i => and_congr_left fun _ => List.mem_range

/-- The table leads from the address of a private device to its record. -/
theorem findTtyDevice_eq (h : DriversInv m) {p : PrivDev} (hp : p ∈ m.table .tty) :
    findTtyDevice p.addr m = some p := by
  obtain ⟨i, hi, hslot⟩ := mem_table_tty.mp hp
  unfold findTtyDevice
  cases hfind : (List.range hweMaxDevices).findSome? fun i =>
      (m.ttyDevices i).filter fun dev => dev.addr == p.addr with
  | none =>
      have hnone := List.findSome?_eq_none_iff.mp hfind i (List.mem_range.mpr hi)
      rw [hslot] at hnone
      simp at hnone
  | some q =>
      obtain ⟨j, hj, hq⟩ := List.exists_of_findSome?_eq_some hfind
      obtain ⟨hq, haddr⟩ := Option.filter_eq_some_iff.mp hq
      have hmem : q ∈ m.table .tty := mem_table_tty.mpr ⟨j, List.mem_range.mp hj, hq⟩
      rw [List.inj_on_of_nodup_map (h.nodup .tty) hmem hp (by simpa using haddr)]

theorem hweDestroyTtyDevice_left (h : DriversInv m) {p : PrivDev} (hp : p ∈ m.table .tty) :
    ∃ m', hweDestroyTtyDevice p.addr m = .ok m' ∧ Left .tty p m m' := by
  obtain ⟨i, hi, hslot⟩ := mem_table_tty.mp hp
  obtain ⟨rfl, _⟩ := h.slot i p hslot
  have htable := Keyed.filterMap_empty List.nodup_range (List.mem_range.mpr hi) hslot
  unfold hweDestroyTtyDevice
  rw [findTtyDevice_eq h hp]
  refine ⟨_, rfl, h.leave le_rfl (SameBut.subperm (.tty_only rfl rfl rfl) (subperm_addrs htable)) ?_ h.kept,
    .kfree _ m.k, htable, .tty_only rfl rfl rfl, .release _ 0 m.objs⟩
  intro i q hq
  change Function.update m.ttyDevices p.index none i = some q at hq
  by_cases hi : i = p.index
  · rw [hi, Function.update_self] at hq
    exact absurd hq (Option.some_ne_none q).symm
  · rw [Function.update_of_ne hi] at hq
    exact h.slot i q hq

theorem hweDestroyI2c_left (h : DriversInv m) {p : PrivDev} (hp : p ∈ m.table .i2c) :
    ∃ m', hweDestroyI2c p.addr m = .ok m' ∧ Left .i2c p m m' := by
  obtain ⟨e, he, rfl⟩ := List.mem_map.mp hp
  obtain ⟨hmem, huse⟩ := List.mem_filter.mp he
  obtain ⟨pre, post, hlist, hpre, hpost⟩ := h.split_i2c hmem
  let e' : I2cEntry := { e with priv := hweDestroyI2cDevice e.priv }
  have hmap := @Keyed.map_split _ _ _ I2cEntry.addr pre post e hpre hpost fun e =>
    { e with priv := hweDestroyI2cDevice e.priv }
  rw [← hlist] at hmap
  unfold hweDestroyI2c
  rw [show m.i2cDevices.find? (fun b => b.addr == e.privDev.addr) = some e from
    Keyed.find?_eq_some (h.nodup .i2c) hmem]
  refine ⟨_, rfl, h.leave le_rfl (SameBut.subperm (.i2c_only rfl rfl rfl) ?_) h.slot h.kept, .refl m.k, ?_,
    .i2c_only rfl rfl rfl, .release _ 0 m.objs⟩
  · have hsame : (pre ++ e' :: post).map I2cEntry.addr = (pre ++ e :: post).map I2cEntry.addr := by
      rw [List.map_append, List.map_append]
      rfl
    rw [← hmap, ← hlist] at hsame
    change (List.map I2cEntry.addr _).Subperm (List.map I2cEntry.addr _)
    exact hsame ▸ List.Subperm.refl _
  · change (e.privDev :: (List.filter _ (List.map _ m.i2cDevices)).map I2cEntry.privDev).Perm
      ((m.i2cDevices.filter (·.priv.inUse)).map I2cEntry.privDev)
    have hnew : (m.i2cDevices.map fun b => if b.addr = e.addr then
        { b with priv := hweDestroyI2cDevice b.priv } else b).filter (·.priv.inUse) =
        (pre ++ post).filter (·.priv.inUse) := by
      rw [hmap]
      exact @filter_inUse_drop pre post e' rfl
    have hold := (@filter_inUse_perm pre post e huse).map I2cEntry.privDev
    rw [← hlist] at hold
    exact hnew ▸ hold.symm

theorem hweDestroyNetDevice_left (h : DriversInv m) {p : PrivDev} (hp : p ∈ m.table .net) :
    ∃ m', hweDestroyNetDevice p.addr m = .ok m' ∧ Left .net p m m' := by
  obtain ⟨e, he, rfl⟩ := List.mem_map.mp hp
  have hnodup : (m.netDevices.map fun e => e.priv.addr).Nodup := by
    have haddrs : ((m.netDevices.map (·.priv)).map PrivDev.addr).Nodup := h.nodup .net
    rwa [List.map_map] at haddrs
  obtain ⟨pre, post, hlist, hpre, hpost⟩ := Keyed.split hnodup he
  have hkept : ∀ b ∈ pre ++ post, b.freed = false := by
    intro b hb
    refine h.kept b ?_
    rw [hlist]
    exact ((List.sublist_cons_self e post).append_left pre).subset hb
  have hdel : netListDel e.priv.addr m.netDevices = .ok (pre ++ post) := by
    rw [hlist]
    exact netListDel_kept hpre hkept
  unfold hweDestroyNetDevice
  rw [Keyed.find?_eq_some hnodup he]
  dsimp only
  rw [h.kept e he, if_neg Bool.false_ne_true, hdel]
  have htable : (e.priv :: (pre ++ post).map (·.priv)).Perm (m.netDevices.map (·.priv)) := by
    rw [hlist]
    exact (List.perm_middle (a := e)).symm.map (·.priv)
  exact ⟨_, rfl, h.leave le_rfl (SameBut.subperm (.net_only rfl rfl rfl) (subperm_addrs htable)) h.slot hkept,
    .kfree _ m.k, htable, .net_only rfl rfl rfl, .release _ 0 m.objs⟩

theorem delSpiDev_left (h : DriversInv m) {p : PrivDev} (hp : p ∈ m.table .spi) :
    ∃ m', delSpiDev p.addr m = .ok m' ∧ Left .spi p m m' := by
  have htable := Keyed.perm_cons_filter_ne (h.nodup .spi) hp
  unfold delSpiDev
  rw [show m.spiDevices.find? (fun b => b.addr == p.addr) = some p from
    Keyed.find?_eq_some (h.nodup .spi) hp]
  exact ⟨_, rfl, h.leave le_rfl (SameBut.subperm (.spi_only rfl rfl rfl) (subperm_addrs htable)) h.slot h.kept,
    .kfree _ m.k, htable, .spi_only rfl rfl rfl,
    (Registry.Trades.release _ _ m.objs).trans (.release _ 0 _)⟩

/-- **Destruction.** -/
theorem destroyPriv_left (h : DriversInv m) {iface : HweIface} {p : PrivDev} (hp : p ∈ m.table iface) :
    ∃ m', destroyPriv iface p.addr m = .ok m' ∧ Left iface p m m' := by
  cases iface with
  | tty => exact hweDestroyTtyDevice_left h hp
  | i2c => exact hweDestroyI2c_left h hp
  | net => exact hweDestroyNetDevice_left h hp
  | spi => exact delSpiDev_left h hp

end

end Hwemu
