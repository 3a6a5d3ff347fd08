import Hwemu.Bench
import Hwemu.DriverMemory

/-!
# What the bench shows of the emulator

A place on the bench shows the device of the store with its index, with the private device that the store's
pointer leads to. An operation on devices and pairs is one change to the bench.
-/

namespace Hwemu

variable {w : Nat} {HZ : Nat} {s s' : Emulator w} {b b' : Bench w} {d : Dev w} {dev : BenchDev w}
  {iface : HweIface}

/-- The private device at `a` is that of the device `dev`. -/
def Emulator.Wired (iface : HweIface) (a : Nat) (dev : BenchDev w) (s : Emulator w) : Prop :=
  match iface with
  | .tty => True
  | .i2c => ∃ e ∈ s.m.i2cDevices, e.addr = a ∧ e.priv.inUse = true ∧ e.priv.buffer.Holds dev.held ∧
      e.priv.chip = dev.chip
  | .net => s.net a = dev.net
  | .spi => (s.spi a).Holds dev.held

structure Emulator.ShowsDev (s : Emulator w) (d : Dev w) (dev : BenchDev w) : Prop where
  dir : dev.dir = d.addr
  lines : dev.lines = d.pairList.map Pair.line
  wired : ∃ a, d.device = some a ∧ s.Wired d.iface a dev

/-- What the bench shows, with what is always true of the emulator besides. -/
structure Emulator.Shows (s : Emulator w) (b : Bench w) : Prop where
  inv : ModuleInv s.m
  sems : ∀ iface, s.m.k.sems iface = 1
  pool : s.m.PoolSound
  fresh : ∀ a, s.m.k.heap.next ≤ a → s.spi a = .zeroed ∧ s.net a = .zeroed
  ttys : s.ttys = b.ttys
  ports : s.ports = b.ports
  devs : ∀ iface, ∀ d ∈ (s.m.k.ifaces iface).devList, ∃ dev, b.devs iface d.index = some dev ∧ s.ShowsDev d dev
  places : ∀ iface index, (b.devs iface index).isSome = true →
    ∃ d ∈ (s.m.k.ifaces iface).devList, d.index = index

theorem Emulator.Shows.loaded (w : Nat) (objs : Registry KernelObj) : (Emulator.loaded w objs).Shows Bench.empty :=
  ⟨.empty objs, fun _ => rfl, fun _ he => absurd he List.not_mem_nil, fun _ _ => ⟨rfl, rfl⟩, rfl, rfl,
    fun _ _ hd => absurd hd List.not_mem_nil, fun _ _ hsome => absurd hsome Bool.false_ne_true⟩

namespace Bench

@[simp]
theorem devs_setDev_self (iface : HweIface) (index : Nat) (dev : Option (BenchDev w)) (b : Bench w) :
    (b.setDev iface index dev).devs iface index = dev := if_pos ⟨rfl, rfl⟩

theorem devs_setDev_of_ne {iface i : HweIface} {index n : Nat} (h : i = iface → n ≠ index)
    (dev : Option (BenchDev w)) (b : Bench w) : (b.setDev iface index dev).devs i n = b.devs i n :=
  if_neg fun hboth => h hboth.1 hboth.2

theorem setDev_setDev (iface : HweIface) (index : Nat) (dev dev' : Option (BenchDev w)) (b : Bench w) :
    (b.setDev iface index dev).setDev iface index dev' = b.setDev iface index dev' := by
  unfold setDev
  congr 1
  funext i n
  dsimp only
  split
  · rfl
  · rfl

end Bench

namespace Emulator.Shows

variable {index : Nat}

/-- The device that a place shows. -/
theorem dev_of (h : s.Shows b) (hdev : b.devs iface index = some dev) :
    ∃ d ∈ (s.m.k.ifaces iface).devList, d.index = index ∧ s.ShowsDev d dev := by
  obtain ⟨d, hd, rfl⟩ := h.places iface index (by rw [hdev]; rfl)
  obtain ⟨dev', hdev', hshows⟩ := h.devs iface d hd
  obtain rfl := Option.some.inj (hdev.symm.trans hdev')
  exact ⟨d, hd, rfl, hshows⟩

theorem empty_of (h : s.Shows b) (hnone : b.devs iface index = none) :
    ∀ d ∈ (s.m.k.ifaces iface).devList, d.index ≠ index := by
  rintro d hd rfl
  obtain ⟨dev, hdev, _⟩ := h.devs iface d hd
  rw [hnone] at hdev
  exact absurd hdev.symm (Option.some_ne_none dev)

theorem isSome_iff (h : s.Shows b) :
    (b.devs iface index).isSome = true ↔ ∃ d ∈ (s.m.k.ifaces iface).devList, d.index = index := by
  refine ⟨h.places iface index, ?_⟩
  rintro ⟨d, hd, rfl⟩
  obtain ⟨dev, hdev, _⟩ := h.devs iface d hd
  rw [hdev]
  rfl

/-- The private device that the driver keeps for a device. -/
theorem priv_of (h : s.Shows b) (hd : d ∈ (s.m.k.ifaces iface).devList) :
    ∃ p ∈ s.m.table iface, d.device = some p.addr ∧ p.hwedev = d.addr ∧ p.index = d.index := by
  obtain ⟨p, hp, hkey⟩ := h.inv.exists_priv (Kernel.mem_devs_of_mem hd)
  rw [h.inv.store.iface iface d hd] at hp
  exact ⟨p, hp, (congrArg Prod.fst hkey).symm, congrArg (fun key => key.2.1) hkey,
    congrArg (fun key => key.2.2) hkey⟩

/-- Devices of an interface are told apart by their index. -/
theorem eq_of_index (h : s.Shows b) {d' : Dev w} (hd : d ∈ (s.m.k.ifaces iface).devList)
    (hd' : d' ∈ (s.m.k.ifaces iface).devList) (hindex : d.index = d'.index) : d = d' :=
  List.inj_on_of_nodup_map (h.inv.store.indexes iface).nodup hd hd' hindex

end Emulator.Shows

/-! ### Operations -/

/-- The private device of a device that stays is as it was. -/
theorem Kept.wired {m' : HwemuModule w} {a : Nat} (h : s.Shows b) (hkept : Kept s.m m') (hinv' : ModuleInv m')
    {d' : Dev w} (hd' : d' ∈ (m'.k.ifaces iface).devList) (hdevice : d'.device = some a)
    (hwired : s.Wired iface a dev) : ({ s with m := m' } : Emulator w).Wired iface a dev := by
  cases iface with
  | tty => trivial
  | net => exact hwired
  | spi => exact hwired
  | i2c =>
      obtain ⟨e, he, haddr, huse, hrest⟩ := hwired
      obtain ⟨p, hp, hkey⟩ := hinv'.exists_priv (Kernel.mem_devs_of_mem hd')
      rw [hinv'.store.iface .i2c d' hd'] at hp
      obtain ⟨e', he', rfl⟩ := List.mem_map.mp hp
      obtain ⟨hin, huse'⟩ := List.mem_filter.mp he'
      have haddr' : e'.addr = e.addr := by
        have hsame : some e'.addr = d'.device := congrArg Prod.fst hkey
        rw [hdevice, ← haddr] at hsame
        exact Option.some.inj hsame
      have hold : e' ∈ s.m.i2cDevices := by
        rcases hkept.live e' hin huse' with hold | ⟨_, hnew⟩
        · exact hold
        · exact absurd haddr'.symm (hnew e he huse)
      obtain rfl := List.inj_on_of_nodup_map (h.inv.drivers.nodup .i2c) hold he haddr'
      exact ⟨e', hin, haddr, huse, hrest⟩

theorem Emulator.ShowsDev.kept {m' : HwemuModule w} (h : s.Shows b) (hkept : Kept s.m m') (hinv' : ModuleInv m')
    (hshows : s.ShowsDev d dev) {d' : Dev w} (hd' : d' ∈ m'.k.devs) (haddr : d'.addr = d.addr) (hiface : d'.iface = d.iface)
    (hdevice : d'.device = d.device) {dev' : BenchDev w} (hlines : dev'.lines = d'.pairList.map Pair.line)
    (hsame : dev' = { dev with lines := dev'.lines }) :
    ({ s with m := m' } : Emulator w).ShowsDev d' dev' := by
  obtain ⟨a, ha, hwired⟩ := hshows.wired
  have hdir : dev'.dir = dev.dir := by rw [hsame]
  refine ⟨hdir.trans (hshows.dir.trans haddr.symm), hlines, a, hdevice.trans ha, ?_⟩
  rw [hiface, hsame]
  have hlist : d' ∈ (m'.k.ifaces d.iface).devList := by
    rw [← hiface]
    exact hinv'.store.mem_devs.mp hd'
  have hkept' := hkept.wired h hinv' hlist (hdevice.trans ha) hwired
  cases hi : d.iface with
  | tty => trivial
  | i2c =>
      rw [hi] at hkept'
      exact hkept'
  | net =>
      rw [hi] at hkept'
      exact hkept'
  | spi =>
      rw [hi] at hkept'
      exact hkept'

/-- A new device has nothing to say and nothing pending. -/
theorem Kept.wired_new {m' : HwemuModule w} (h : s.Shows b) (hkept : Kept s.m m') (hinv' : ModuleInv m')
    {d' : Dev w} (hd' : d' ∈ (m'.k.ifaces iface).devList) (hfresh : s.m.k.heap.next ≤ d'.addr) :
    ∃ a, d'.device = some a ∧ ({ s with m := m' } : Emulator w).Wired iface a (.new d'.addr) := by
  obtain ⟨p, hp, hkey⟩ := hinv'.exists_priv (Kernel.mem_devs_of_mem hd')
  rw [hinv'.store.iface iface d' hd'] at hp
  have howner : p.hwedev = d'.addr := congrArg (fun key => key.2.1) hkey
  -- a private device that was there before belongs to a device that was there before
  have hnew : p ∉ s.m.table iface := by
    intro hold
    obtain ⟨d₀, hd₀, hkey₀⟩ := h.inv.exists_dev hold
    have howner₀ : d₀.addr = p.hwedev := congrArg (fun key => key.2.1) hkey₀
    have hlt := h.inv.store.devFresh d₀ (Kernel.mem_devs_of_mem hd₀)
    omega
  refine ⟨p.addr, (congrArg Prod.fst hkey).symm, ?_⟩
  cases iface with
  | tty => trivial
  | net =>
      rcases hkept.fresh .net (by decide) p hp with hold | hlow
      · exact absurd hold hnew
      · exact (h.fresh p.addr hlow).2
  | spi =>
      rcases hkept.fresh .spi (by decide) p hp with hold | hlow
      · exact absurd hold hnew
      · change (s.spi p.addr).Holds .empty
        rw [(h.fresh p.addr hlow).1]
        exact RespBuffer.Holds.zeroed
  | i2c =>
      obtain ⟨e, he, rfl⟩ := List.mem_map.mp hp
      obtain ⟨hin, huse⟩ := List.mem_filter.mp he
      rcases hkept.live e hin huse with hold | ⟨hclean, _⟩
      · exact absurd (List.mem_map_of_mem (List.mem_filter.mpr ⟨hold, huse⟩)) hnew
      · obtain ⟨acts, hholds⟩ := hkept.pool h.pool e hin
        refine ⟨e, hin, rfl, huse, ?_, hclean.chip⟩
        have hdiscard : e.priv.buffer.discard = e.priv.buffer := by
          have hzero := hclean.respSize
          generalize e.priv.buffer = buffer at hzero
          cases buffer
          obtain rfl : _ = 0 := hzero
          rfl
        rw [← hdiscard]
        exact hholds.discard

/-- What does not depend on the change. -/
theorem Emulator.Shows.of_changed {m' : HwemuModule w} {c : Change w} (h : s.Shows b) (hc : Changed c s.m.k m'.k)
    (hkept : Kept s.m m') (hinv' : ModuleInv m') (httys : b'.ttys = b.ttys) (hports : b'.ports = b.ports)
    (hdevs : ∀ iface, ∀ d ∈ (m'.k.ifaces iface).devList, ∃ dev, b'.devs iface d.index = some dev ∧
      ({ s with m := m' } : Emulator w).ShowsDev d dev)
    (hplaces : ∀ iface index, (b'.devs iface index).isSome = true →
      ∃ d ∈ (m'.k.ifaces iface).devList, d.index = index) : ({ s with m := m' } : Emulator w).Shows b' :=
  ⟨hinv', fun iface => (congrFun hc.sems iface).trans (h.sems iface), hkept.pool h.pool,
    fun a ha => h.fresh a (hc.next.trans ha), h.ttys.trans httys.symm, h.ports.trans hports.symm, hdevs, hplaces⟩

/-- The devices after a change to pairs. -/
theorem Changed.devList_onPairs {k k' : Kernel w} {c : Change w} (hc : Changed c k k') (hpairs : c.OnPairs)
    (iface : HweIface) : (k'.ifaces iface).devList = (k.ifaces iface).devList.map c.onDev := by
  rw [hc.ifaces]
  cases c with
  | keep => exact (List.map_id _).symm
  | addDev d => exact absurd hpairs id
  | removeDev d => exact absurd hpairs id
  | addPair dev p => rfl
  | removePair dev p => rfl
  | clearPairs dev => rfl

section

variable {m' : HwemuModule w} {c : Change w}

/-- Nothing was changed. -/
theorem Emulator.Shows.keep (h : s.Shows b) (hc : Changed .keep s.m.k m'.k) (hkept : Kept s.m m')
    (hinv' : ModuleInv m') : ({ s with m := m' } : Emulator w).Shows b := by
  have hlist : ∀ iface, (m'.k.ifaces iface).devList = (s.m.k.ifaces iface).devList :=
    fun iface => congrArg Iface.devList (congrFun hc.ifaces iface)
  refine h.of_changed hc hkept hinv' rfl rfl (fun iface d hd => ?_) (fun iface index hsome => ?_)
  · have hold := hd
    rw [hlist] at hold
    obtain ⟨dev, hdev, hshows⟩ := h.devs iface d hold
    exact ⟨dev, hdev, hshows.kept h hkept hinv' (Kernel.mem_devs_of_mem hd) rfl rfl rfl hshows.lines rfl⟩
  · rw [hlist]
    exact h.places iface index hsome

/-- The pairs of one device were changed. -/
theorem Emulator.Shows.modify (h : s.Shows b) (hc : Changed c s.m.k m'.k) (hpairs : c.OnPairs)
    (hkept : Kept s.m m') (hinv' : ModuleInv m') {d₀ : Dev w} (hd₀ : d₀ ∈ s.m.k.devs)
    (hothers : ∀ d, d.addr ≠ d₀.addr → c.onDev d = d) {f : List (Line w) → List (Line w)}
    (hf : (c.onDev d₀).pairList.map Pair.line = f (d₀.pairList.map Pair.line)) :
    ({ s with m := m' } : Emulator w).Shows
      (b.modifyDev d₀.iface d₀.index fun dev => { dev with lines := f dev.lines }) := by
  have hlist := hc.devList_onPairs hpairs
  have hlist₀ := h.inv.store.mem_devs.mp hd₀
  have hplace : ∀ iface, ∀ d ∈ (s.m.k.ifaces iface).devList, d ≠ d₀ → iface = d₀.iface → d.index ≠ d₀.index := by
    rintro iface d hd hne rfl hindex
    exact hne (h.eq_of_index hd hlist₀ hindex)
  refine h.of_changed hc hkept hinv' rfl rfl (fun iface d' hd' => ?_) (fun iface index hsome => ?_)
  · have hmem := hd'
    rw [hlist] at hmem
    obtain ⟨d, hd, rfl⟩ := List.mem_map.mp hmem
    obtain ⟨haddr, hiface, hindex, hdevice⟩ := c.onDev_same d
    obtain ⟨dev, hdev, hshows⟩ := h.devs iface d hd
    rw [hindex]
    by_cases heq : d = d₀
    · subst heq
      rw [← h.inv.store.iface iface d hd] at hdev
      refine ⟨{ dev with lines := f dev.lines }, ?_, ?_⟩
      · rw [← h.inv.store.iface iface d hd, Bench.modifyDev, Bench.devs_setDev_self, hdev]
        rfl
      · refine hshows.kept h hkept hinv' (Kernel.mem_devs_of_mem hd') haddr hiface hdevice ?_ rfl
        rw [hf, hshows.lines]
    · have hne : d.addr ≠ d₀.addr := fun haddr =>
        heq (h.inv.store.devAddr d (Kernel.mem_devs_of_mem hd) d₀ hd₀ haddr)
      refine ⟨dev, ?_, ?_⟩
      · rw [Bench.modifyDev, Bench.devs_setDev_of_ne (hplace iface d hd heq)]
        exact hdev
      · refine hshows.kept h hkept hinv' (Kernel.mem_devs_of_mem hd') haddr hiface hdevice ?_ rfl
        rw [hothers d hne]
        exact hshows.lines
  · have hold : (b.devs iface index).isSome = true := by
      by_cases hboth : iface = d₀.iface ∧ index = d₀.index
      · obtain ⟨rfl, rfl⟩ := hboth
        rw [Bench.modifyDev, Bench.devs_setDev_self, Option.isSome_map] at hsome
        exact hsome
      · rwa [Bench.modifyDev, Bench.devs_setDev_of_ne fun hi hn => hboth ⟨hi, hn⟩] at hsome
    obtain ⟨d, hd, hindex⟩ := h.places iface index hold
    refine ⟨c.onDev d, ?_, (c.onDev_same d).2.2.1.trans hindex⟩
    rw [hlist]
    exact List.mem_map_of_mem hd

theorem BenchDev.Accepts.of_pair (hshows : s.ShowsDev d dev) (hok : d.Ok) {p : Pair w} (hp : d.Accepts p) :
    dev.Accepts p.line := by
  have hmem : ∀ l, l ∈ dev.lines ↔ ∃ q ∈ d.pairList, q.line = l := by
    intro l
    rw [hshows.lines, List.mem_map]
  have hlt : p.index < hweMaxPairs := by
    have hle := Bitmap.findFirstZeroBit_le d.pairsIndexes
    have hroom := hp.room
    rw [← hp.index] at hle
    omega
  refine ⟨hlt, ?_, ?_, ⟨hp.valid.resp_pos, hp.valid.resp_le⟩, ?_, hp.unfired⟩
  · intro l hl hindex
    obtain ⟨q, hq, rfl⟩ := (hmem l).mp hl
    have hused := List.mem_map_of_mem (f := (·.index)) hq
    rw [show q.index = p.index from hindex, hp.index] at hused
    exact hok.indexes.notMem_findFirstZeroBit hused
  · intro j hj
    have hset := Bitmap.getLsbD_of_lt_findFirstZeroBit (b := d.pairsIndexes) (j := j) (hp.index ▸ hj)
    obtain ⟨q, hq, hindex⟩ := List.mem_map.mp ((hok.indexes.mem j).mp hset)
    exact ⟨q.line, (hmem _).mpr ⟨q, hq, rfl⟩, hindex⟩
  · intro hsync l hl hsync'
    obtain ⟨q, hq, rfl⟩ := (hmem l).mp hl
    exact findPair_eq_none_iff.mp hp.unmatched q hq hsync'

/-- **A pair was added.** -/
theorem Emulator.Shows.learned (h : s.Shows b) (hd : d ∈ s.m.k.devs) {p : Pair w}
    (hc : Changed (.addPair d.addr p) s.m.k m'.k) (hkept : Kept s.m m') (hinv' : ModuleInv m') :
    (BenchChange.learn d.iface d.index p.line).Allowed b ∧
      ({ s with m := m' } : Emulator w).Shows ((BenchChange.learn d.iface d.index p.line).apply b) := by
  obtain ⟨⟨d', hd', haddr, haccepts⟩, _⟩ := hc.allowed
  obtain rfl := h.inv.store.devAddr d' hd' d hd haddr
  obtain ⟨dev, hdev, hshows⟩ := h.devs d'.iface d' (h.inv.store.mem_devs.mp hd)
  refine ⟨⟨dev, hdev, .of_pair hshows (h.inv.store.ok d' hd) haccepts⟩,
    h.modify hc trivial hkept hinv' hd (fun d' hne => if_neg hne) (f := fun lines => lines ++ [p.line]) ?_⟩
  rw [Change.onDev, if_pos rfl, Dev.addPair, List.map_append]
  rfl

/-- **A pair was deleted.** -/
theorem Emulator.Shows.forgot (h : s.Shows b) (hd : d ∈ s.m.k.devs) {p : Pair w} (hp : p ∈ d.pairList)
    (hc : Changed (.removePair d.addr p) s.m.k m'.k) (hkept : Kept s.m m') (hinv' : ModuleInv m') :
    (BenchChange.forget d.iface d.index p.index : BenchChange w).Allowed b ∧
      ({ s with m := m' } : Emulator w).Shows
        ((BenchChange.forget d.iface d.index p.index : BenchChange w).apply b) := by
  obtain ⟨dev, hdev, hshows⟩ := h.devs d.iface d (h.inv.store.mem_devs.mp hd)
  refine ⟨⟨dev, hdev, p.line, ?_, rfl⟩, h.modify hc trivial hkept hinv' hd (fun d' hne => if_neg hne)
    (f := fun lines => lines.filter fun l => l.index ≠ p.index) ?_⟩
  · rw [hshows.lines]
    exact List.mem_map_of_mem hp
  · rw [Change.onDev, if_pos rfl, Dev.removePair, List.filter_map]
    congr 1
    apply List.filter_congr
    intro q hq
    exact decide_eq_decide.mpr ((h.inv.store.ok d hd).addr_ne_iff hp hq)

/-- **The pairs of a device were deleted.** -/
theorem Emulator.Shows.cleared (h : s.Shows b) (hd : d ∈ s.m.k.devs)
    (hc : Changed (.clearPairs d.addr) s.m.k m'.k) (hkept : Kept s.m m') (hinv' : ModuleInv m') :
    (BenchChange.clear d.iface d.index : BenchChange w).Allowed b ∧
      ({ s with m := m' } : Emulator w).Shows ((BenchChange.clear d.iface d.index : BenchChange w).apply b) := by
  refine ⟨h.isSome_iff.mpr ⟨d, h.inv.store.mem_devs.mp hd, rfl⟩, h.modify hc trivial hkept hinv' hd
    (fun d' hne => if_neg hne) (f := fun _ => []) ?_⟩
  rw [Change.onDev, if_pos rfl]
  rfl

/-- **A device was added.** -/
theorem Emulator.Shows.added (h : s.Shows b) (hc : Changed (.addDev d) s.m.k m'.k) (hkept : Kept s.m m')
    (hinv' : ModuleInv m') :
    (BenchChange.attach d.iface d.index d.addr : BenchChange w).Allowed b ∧
      ({ s with m := m' } : Emulator w).Shows
        ((BenchChange.attach d.iface d.index d.addr : BenchChange w).apply b) := by
  obtain ⟨hpairs, _, _, hfresh, _, hroom, hindex⟩ := hc.allowed
  have htracks := h.inv.store.indexes d.iface
  have hself : (m'.k.ifaces d.iface).devList = d :: (s.m.k.ifaces d.iface).devList := by
    rw [hc.ifaces]
    simp only [Change.apply, Kernel.setIface, Function.update_self]
  have hother : ∀ iface, iface ≠ d.iface → (m'.k.ifaces iface).devList = (s.m.k.ifaces iface).devList := by
    intro iface hne
    rw [hc.ifaces]
    simp only [Change.apply, Kernel.setIface, Function.update_of_ne hne]
  have hsub : ∀ iface, ∀ d' ∈ (s.m.k.ifaces iface).devList, d' ∈ (m'.k.ifaces iface).devList := by
    intro iface d' hd'
    by_cases hi : iface = d.iface
    · subst hi
      rw [hself]
      exact List.mem_cons_of_mem d hd'
    · rwa [hother iface hi]
  have hfree : ∀ d' ∈ (s.m.k.ifaces d.iface).devList, d'.index ≠ d.index := by
    intro d' hd' heq
    have hused := List.mem_map_of_mem (f := (·.index)) hd'
    rw [heq, hindex] at hused
    exact htracks.notMem_findFirstZeroBit hused
  refine ⟨⟨?_, ?_, ?_, ?_⟩, ?_⟩
  · have hle := Bitmap.findFirstZeroBit_le (s.m.k.ifaces d.iface).devIndexes
    rw [← hindex] at hle
    omega
  · cases hdev : b.devs d.iface d.index with
    | none => rfl
    | some dev =>
        obtain ⟨d', hd', heq⟩ := h.places d.iface d.index (by rw [hdev]; rfl)
        exact absurd heq (hfree d' hd')
  · intro j hj
    have hset := Bitmap.getLsbD_of_lt_findFirstZeroBit (b := (s.m.k.ifaces d.iface).devIndexes) (hindex ▸ hj)
    obtain ⟨d', hd', heq⟩ := List.mem_map.mp ((htracks.mem j).mp hset)
    exact h.isSome_iff.mpr ⟨d', hd', heq⟩
  · intro iface index dev hdev hdir
    obtain ⟨d', hd', _, hshows⟩ := h.dev_of hdev
    have hlt := h.inv.store.devFresh d' (Kernel.mem_devs_of_mem hd')
    have haddr : d'.addr = d.addr := hshows.dir.symm.trans hdir
    omega
  · refine h.of_changed hc hkept hinv' rfl rfl (fun iface d' hd' => ?_) (fun iface index hsome => ?_)
    · have hcases : (iface = d.iface ∧ d' = d) ∨ d' ∈ (s.m.k.ifaces iface).devList := by
        by_cases hi : iface = d.iface
        · subst hi
          rw [hself] at hd'
          exact (List.mem_cons.mp hd').imp_left fun heq => ⟨rfl, heq⟩
        · rw [hother iface hi] at hd'
          exact Or.inr hd'
      rcases hcases with ⟨rfl, rfl⟩ | hold
      · refine ⟨.new d'.addr, Bench.devs_setDev_self .., rfl, ?_, hkept.wired_new h hinv' hd' hfresh⟩
        rw [hpairs]
        rfl
      · obtain ⟨dev, hdev, hshows⟩ := h.devs iface d' hold
        refine ⟨dev, ?_, hshows.kept h hkept hinv' (Kernel.mem_devs_of_mem hd') rfl rfl rfl hshows.lines rfl⟩
        rw [BenchChange.apply, Bench.devs_setDev_of_ne]
        · exact hdev
        · rintro rfl
          exact hfree d' hold
    · by_cases hboth : iface = d.iface ∧ index = d.index
      · obtain ⟨rfl, rfl⟩ := hboth
        exact ⟨d, by rw [hself]; exact List.mem_cons_self, rfl⟩
      · rw [BenchChange.apply, Bench.devs_setDev_of_ne fun hi hn => hboth ⟨hi, hn⟩] at hsome
        obtain ⟨d', hd', heq⟩ := h.places iface index hsome
        exact ⟨d', hsub iface d' hd', heq⟩

/-- **A device was removed.** -/
theorem Emulator.Shows.removed (h : s.Shows b) (hc : Changed (.removeDev d) s.m.k m'.k) (hkept : Kept s.m m')
    (hinv' : ModuleInv m') :
    (BenchChange.detach d.iface d.index : BenchChange w).Allowed b ∧
      ({ s with m := m' } : Emulator w).Shows ((BenchChange.detach d.iface d.index : BenchChange w).apply b) := by
  have hd : d ∈ s.m.k.devs := hc.allowed
  have hlist := h.inv.store.mem_devs.mp hd
  have hself : (m'.k.ifaces d.iface).devList =
      (s.m.k.ifaces d.iface).devList.filter fun d' => d'.addr ≠ d.addr := by
    rw [hc.ifaces]
    simp only [Change.apply, Kernel.setIface, Function.update_self]
  have hother : ∀ iface, iface ≠ d.iface → (m'.k.ifaces iface).devList = (s.m.k.ifaces iface).devList := by
    intro iface hne
    rw [hc.ifaces]
    simp only [Change.apply, Kernel.setIface, Function.update_of_ne hne]
  have hmem : ∀ iface d', d' ∈ (m'.k.ifaces iface).devList ↔
      d' ∈ (s.m.k.ifaces iface).devList ∧ (iface = d.iface → d'.index ≠ d.index) := by
    intro iface d'
    by_cases hi : iface = d.iface
    · subst hi
      rw [hself, List.mem_filter]
      refine and_congr_right fun hd' => ?_
      simp only [decide_eq_true_eq, forall_const]
      apply not_congr
      constructor
      · intro haddr
        rw [h.inv.store.devAddr d' (Kernel.mem_devs_of_mem hd') d hd haddr]
      · intro hindex
        rw [h.eq_of_index hd' hlist hindex]
    · rw [hother iface hi]
      exact ⟨fun hd' => ⟨hd', fun heq => absurd heq hi⟩, And.left⟩
  refine ⟨h.isSome_iff.mpr ⟨d, hlist, rfl⟩, ?_⟩
  refine h.of_changed hc hkept hinv' rfl rfl (fun iface d' hd' => ?_) (fun iface index hsome => ?_)
  · obtain ⟨hold, hne⟩ := (hmem iface d').mp hd'
    obtain ⟨dev, hdev, hshows⟩ := h.devs iface d' hold
    refine ⟨dev, ?_, hshows.kept h hkept hinv' (Kernel.mem_devs_of_mem hd') rfl rfl rfl hshows.lines rfl⟩
    rw [BenchChange.apply, Bench.devs_setDev_of_ne hne]
    exact hdev
  · have hne : ¬(iface = d.iface ∧ index = d.index) := by
      rintro ⟨rfl, rfl⟩
      rw [BenchChange.apply, Bench.devs_setDev_self] at hsome
      exact Bool.false_ne_true hsome
    rw [BenchChange.apply, Bench.devs_setDev_of_ne fun hi hn => hne ⟨hi, hn⟩] at hsome
    obtain ⟨d', hd', rfl⟩ := h.places iface index hsome
    exact ⟨d', (hmem iface d').mpr ⟨hd', fun hi hn => hne ⟨hi, hn⟩⟩, rfl⟩

end

end Hwemu
