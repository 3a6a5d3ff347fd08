import Hwemu.BenchView
import Hwemu.Uninstall

/-!
# Calls of the drivers

Whoever calls a driver gets what the bench says, and the bench still shows the emulator afterwards. A call
finds the private device of the device in that place, and the pair of a request in the lines of the device.
-/

namespace Hwemu

variable {w : Nat} {HZ : Nat} {s s' : Emulator w} {b : Bench w} {d : Dev w} {dev dev' : BenchDev w}
  {iface : HweIface} {a index tty : Nat}

/-- The call goes through and ends as the bench says. -/
def Emulator.Agrees (r : Except Fault (EmuOutput × Emulator w)) (t : EmuOutput × Bench w) : Prop :=
  ∃ s', r = .ok (t.1, s') ∧ s'.Shows t.2

/-! ### Changes that a call makes -/

/-- What a place shows does not depend on ttys and ports. -/
theorem Emulator.ShowsDev.of_memory (h : s.ShowsDev d dev) (hm : s'.m = s.m) (hspi : s'.spi = s.spi)
    (hnet : s'.net = s.net) : s'.ShowsDev d dev := by
  obtain ⟨a, hdevice, hwired⟩ := h.wired
  refine ⟨h.dir, h.lines, a, hdevice, ?_⟩
  unfold Emulator.Wired at hwired ⊢
  rw [hm, hspi, hnet]
  exact hwired

namespace Emulator.Shows

theorem setTtys (h : s.Shows b) (ttys : Nat → Option Nat) :
    ({ s with ttys := ttys } : Emulator w).Shows { b with ttys := ttys } := by
  refine ⟨h.inv, h.sems, h.pool, h.fresh, rfl, h.ports, fun iface d hd => ?_, h.places⟩
  obtain ⟨dev, hdev, hshows⟩ := h.devs iface d hd
  exact ⟨dev, hdev, hshows.of_memory rfl rfl rfl⟩

theorem pushFlip (h : s.Shows b) (env : RxEnv) (index : Nat) (resp : List UInt8) :
    (s.pushFlip env index resp).Shows (b.hear index (resp.take env.flip)) := by
  refine ⟨h.inv, h.sems, h.pool, h.fresh, h.ttys, ?_, fun iface d hd => ?_, h.places⟩
  · change Function.update s.ports index (s.ports index ++ _) = Function.update b.ports index (b.ports index ++ _)
    rw [h.ports]
  · obtain ⟨dev, hdev, hshows⟩ := h.devs iface d hd
    exact ⟨dev, hdev, hshows.of_memory rfl rfl rfl⟩

/-- One private device was worked on. -/
theorem rewire (h : s.Shows b) (hd : d ∈ (s.m.k.ifaces iface).devList) (hdev : b.devs iface d.index = some dev)
    (hdevice : d.device = some a) (hk : s'.m.k = s.m.k) (hinv : ModuleInv s'.m) (hpool : s'.m.PoolSound)
    (hfresh : ∀ a, s.m.k.heap.next ≤ a → s'.spi a = .zeroed ∧ s'.net a = .zeroed) (httys : s'.ttys = s.ttys)
    (hports : s'.ports = s.ports) (hdir : dev'.dir = dev.dir) (hlines : dev'.lines = dev.lines)
    (hwired : s'.Wired iface a dev') (hothers : ∀ i a' dev, (i = iface → a' ≠ a) → s.Wired i a' dev → s'.Wired i a' dev) :
    s'.Shows (b.setDev iface d.index (some dev')) := by
  refine ⟨hinv, hk ▸ h.sems, hpool, hk ▸ hfresh, httys.trans h.ttys, hports.trans h.ports, ?_, ?_⟩
  · intro i d' hd'
    rw [hk] at hd'
    obtain ⟨dev₁, hdev₁, hshows⟩ := h.devs i d' hd'
    by_cases hsame : i = iface ∧ d' = d
    · obtain ⟨rfl, rfl⟩ := hsame
      obtain rfl := Option.some.inj (hdev.symm.trans hdev₁)
      refine ⟨dev', Bench.devs_setDev_self .., hdir.trans hshows.dir, hlines.trans hshows.lines, a, hdevice, ?_⟩
      rw [h.inv.store.iface i d' hd]
      exact hwired
    · have hne : i = iface → d'.index ≠ d.index := by
        rintro rfl hindex
        exact hsame ⟨rfl, h.eq_of_index hd' hd hindex⟩
      obtain ⟨a', hdevice', hwired'⟩ := hshows.wired
      refine ⟨dev₁, (Bench.devs_setDev_of_ne hne ..).trans hdev₁, hshows.dir, hshows.lines, a', hdevice', ?_⟩
      refine hothers _ a' dev₁ (fun hi haddr => ?_) hwired'
      rw [h.inv.store.iface i d' hd'] at hi
      refine hsame ⟨hi, h.inv.agree.apart d' (Kernel.mem_devs_of_mem hd') d (Kernel.mem_devs_of_mem hd) ?_⟩
      rw [hdevice', hdevice, haddr]
  · intro i n hsome
    rw [hk]
    by_cases hsame : i = iface ∧ n = d.index
    · obtain ⟨rfl, rfl⟩ := hsame
      exact ⟨d, hd, rfl⟩
    · rw [Bench.devs_setDev_of_ne fun hi hn => hsame ⟨hi, hn⟩] at hsome
      exact h.places i n hsome

/-- The memory of a private device is older than what is new. -/
theorem addr_lt (h : s.Shows b) {p : PrivDev} (hp : p ∈ s.m.table iface) : p.addr < s.m.k.heap.next :=
  h.inv.drivers.fresh iface p.addr (mem_addrs hp)

theorem setNet (h : s.Shows b) (hd : d ∈ (s.m.k.ifaces .net).devList) (hdev : b.devs .net d.index = some dev)
    {p : PrivDev} (hp : p ∈ s.m.table .net) (hdevice : d.device = some p.addr) (priv : NetPriv w) :
    (s.setNet p.addr priv).Shows (b.setDev .net d.index (some { dev with net := priv })) := by
  refine h.rewire hd hdev hdevice rfl h.inv h.pool (fun a ha => ⟨(h.fresh a ha).1, ?_⟩) rfl rfl rfl rfl ?_ ?_
  · have hne : a ≠ p.addr := (lt_of_lt_of_le (h.addr_lt hp) ha).ne'
    exact (Function.update_of_ne hne ..).trans (h.fresh a ha).2
  · exact Function.update_self ..
  · intro i a' dev₁ hne hwired
    cases i with
    | net => exact (Function.update_of_ne (hne rfl) ..).trans hwired
    | _ => exact hwired

theorem setSpi (h : s.Shows b) (hd : d ∈ (s.m.k.ifaces .spi).devList) (hdev : b.devs .spi d.index = some dev)
    {p : PrivDev} (hp : p ∈ s.m.table .spi) (hdevice : d.device = some p.addr) {buffer : RespBuffer}
    {acts : List RespAct} (hholds : buffer.Holds (Chunked.held acts)) :
    (s.setSpi p.addr buffer).Shows (b.setDev .spi d.index (some { dev with acts := acts })) := by
  refine h.rewire hd hdev hdevice rfl h.inv h.pool (fun a ha => ⟨?_, (h.fresh a ha).2⟩) rfl rfl rfl rfl ?_ ?_
  · have hne : a ≠ p.addr := (lt_of_lt_of_le (h.addr_lt hp) ha).ne'
    exact (Function.update_of_ne hne ..).trans (h.fresh a ha).1
  · change RespBuffer.Holds (Function.update s.spi p.addr buffer p.addr) _
    rw [Function.update_self]
    exact hholds
  · intro i a' dev₁ hne hwired
    cases i with
    | spi =>
        change RespBuffer.Holds (Function.update s.spi p.addr buffer a') _
        rw [Function.update_of_ne (hne rfl)]
        exact hwired
    | _ => exact hwired

/-- The records of the pool after a write to one that is in use. -/
theorem mem_setI2c {e : I2cEntry} (h : s.Shows b) (he : e ∈ s.m.i2cDevices) (priv : I2cPriv) {e' : I2cEntry} :
    e' ∈ (s.setI2c e.addr priv).m.i2cDevices ↔
      e' = { e with priv := priv } ∨ e' ∈ s.m.i2cDevices ∧ e'.addr ≠ e.addr := by
  have hmem : e' ∈ (s.setI2c e.addr priv).m.i2cDevices ↔
      ∃ e₀ ∈ s.m.i2cDevices, (if e₀.addr = e.addr then { e₀ with priv := priv } else e₀) = e' := List.mem_map
  rw [hmem]
  constructor
  · rintro ⟨e₀, he₀, rfl⟩
    by_cases haddr : e₀.addr = e.addr
    · rw [if_pos haddr, List.inj_on_of_nodup_map (h.inv.drivers.nodup .i2c) he₀ he haddr]
      exact Or.inl rfl
    · rw [if_neg haddr]
      exact Or.inr ⟨he₀, haddr⟩
  · rintro (rfl | ⟨hin, hne⟩)
    · exact ⟨e, he, if_pos rfl⟩
    · exact ⟨e', hin, if_neg hne⟩

/-- A write that leaves alone whose private device it is. -/
theorem inv_setI2c {e : I2cEntry} (h : s.Shows b) (he : e ∈ s.m.i2cDevices) {priv : I2cPriv}
    (hsame : priv.inUse = e.priv.inUse ∧ priv.hwedev = e.priv.hwedev ∧ priv.index = e.priv.index) :
    ModuleInv (s.setI2c e.addr priv).m := by
  obtain ⟨huse, howner, hindex⟩ := hsame
  have hother : ∀ e₀ ∈ s.m.i2cDevices, e₀.addr = e.addr → e₀ = e := fun e₀ he₀ haddr =>
    List.inj_on_of_nodup_map (h.inv.drivers.nodup .i2c) he₀ he haddr
  have htable : (s.setI2c e.addr priv).m.table = s.m.table := by
    funext i
    cases i with
    | i2c =>
        change ((s.m.i2cDevices.map fun e₀ : I2cEntry =>
          if e₀.addr = e.addr then { e₀ with priv := priv } else e₀).filter (·.priv.inUse)).map I2cEntry.privDev = _
        rw [List.filter_map, List.map_map]
        have hfilter : s.m.i2cDevices.filter ((fun e₀ : I2cEntry => e₀.priv.inUse) ∘ fun e₀ : I2cEntry =>
            if e₀.addr = e.addr then { e₀ with priv := priv } else e₀) = s.m.i2cDevices.filter (·.priv.inUse) := by
          apply List.filter_congr
          intro e₀ he₀
          rw [Function.comp_apply]
          split
          · rename_i haddr
            rw [hother e₀ he₀ haddr]
            exact huse
          · rfl
        rw [hfilter]
        apply List.map_congr_left
        intro e₀ he₀
        rw [Function.comp_apply]
        split
        · rename_i haddr
          rw [hother e₀ (List.mem_filter.mp he₀).1 haddr]
          simp only [I2cEntry.privDev, howner, hindex]
        · rfl
    | _ => rfl
  have haddrs : ∀ i, (s.setI2c e.addr priv).m.addrs i = s.m.addrs i := by
    intro i
    cases i with
    | i2c =>
        change (s.m.i2cDevices.map fun e₀ : I2cEntry =>
          if e₀.addr = e.addr then { e₀ with priv := priv } else e₀).map (·.addr) = _
        rw [List.map_map]
        apply List.map_congr_left
        intro e₀ _
        rw [Function.comp_apply]
        split
        · rfl
        · rfl
    | _ => exact congrArg (List.map PrivDev.addr) (congrFun htable _)
  refine ⟨h.inv.store, h.inv.drivers.leave le_rfl (fun i => ?_) h.inv.drivers.slot h.inv.drivers.kept, fun i => ?_⟩
  · rw [haddrs]
  · rw [htable]
    exact h.inv.matched i

theorem setI2c {e : I2cEntry} (h : s.Shows b) (hd : d ∈ (s.m.k.ifaces .i2c).devList)
    (hdev : b.devs .i2c d.index = some dev) (he : e ∈ s.m.i2cDevices) (hdevice : d.device = some e.addr)
    (huse : e.priv.inUse = true) {buffer : RespBuffer} {acts : List RespAct} {chip : I2cChip}
    (hholds : buffer.Holds (Chunked.held acts)) :
    (s.setI2c e.addr { e.priv with buffer := buffer, chip := chip }).Shows
      (b.setDev .i2c d.index (some { dev with acts := acts, chip := chip })) := by
  refine h.rewire hd hdev hdevice rfl (h.inv_setI2c he ⟨rfl, rfl, rfl⟩) ?_ h.fresh rfl rfl rfl rfl ?_ ?_
  · intro e' he'
    rcases (h.mem_setI2c he _).mp he' with rfl | ⟨hold, _⟩
    · exact ⟨acts, hholds⟩
    · exact h.pool e' hold
  · exact ⟨_, (h.mem_setI2c he _).mpr (Or.inl rfl), rfl, huse, hholds, rfl⟩
  · intro i a' dev₁ hne hwired
    cases i with
    | i2c =>
        obtain ⟨e', he', rfl, hrest⟩ := hwired
        exact ⟨e', (h.mem_setI2c he _).mpr (Or.inr ⟨he', hne rfl⟩), rfl, hrest⟩
    | _ => exact hwired

end Emulator.Shows

/-! ### Finding a device -/

/-- A place, the device of the store in it, and the private device that the driver keeps for it. -/
structure Emulator.Found (s : Emulator w) (b : Bench w) (iface : HweIface) (d : Dev w) (dev : BenchDev w)
    (p : PrivDev) : Prop where
  mem : d ∈ (s.m.k.ifaces iface).devList
  place : b.devs iface d.index = some dev
  shown : s.ShowsDev d dev
  priv : p ∈ s.m.table iface
  device : d.device = some p.addr
  owner : p.hwedev = d.addr
  index : p.index = d.index

/-- Outside of the tty driver what is registered for a number is found in the table. -/
theorem HwemuModule.registered_eq {m : HwemuModule w} (h : DriversInv m) (hne : iface ≠ .tty) (index : Nat) :
    m.registered iface index = ((m.table iface).find? fun p => p.index == index).map (·.addr) := by
  cases iface with
  | tty => exact absurd rfl hne
  | i2c =>
      have hboth : (fun e : I2cEntry => e.priv.inUse && e.priv.index == index) =
          fun e => decide (e.priv.inUse = true ∧ ((fun p : PrivDev => p.index == index) ∘ I2cEntry.privDev) e = true) := by
        funext e
        rw [Bool.decide_and, Bool.decide_eq_true, Bool.decide_eq_true]
        rfl
      rw [HwemuModule.registered, hboth, HwemuModule.table, List.find?_map, List.find?_filter, Option.map_map]
      rfl
  | net =>
      have hkept : (m.netDevices.find? fun e => !e.freed && e.priv.index == index) =
          m.netDevices.find? fun e => e.priv.index == index := by
        apply List.find?_congr
        intro e he
        rw [h.kept e he]
        rfl
      rw [HwemuModule.registered, hkept, HwemuModule.table, List.find?_map, Option.map_map]
      rfl
  | spi => rfl

namespace Emulator.Shows

variable {p : PrivDev}

theorem found_of_mem (h : s.Shows b) (hd : d ∈ (s.m.k.ifaces iface).devList) :
    ∃ dev p, s.Found b iface d dev p := by
  obtain ⟨dev, hdev, hshown⟩ := h.devs iface d hd
  obtain ⟨p, hp, hdevice, howner, hindex⟩ := h.priv_of hd
  exact ⟨dev, p, hd, hdev, hshown, hp, hdevice, howner, hindex⟩

theorem found (h : s.Shows b) (hdev : b.devs iface index = some dev) :
    ∃ d p, s.Found b iface d dev p ∧ d.index = index := by
  obtain ⟨d, hd, rfl, _⟩ := h.dev_of hdev
  obtain ⟨dev', p, hfound⟩ := h.found_of_mem hd
  obtain rfl := Option.some.inj (hdev.symm.trans hfound.place)
  exact ⟨d, p, hfound, rfl⟩

/-- The private devices of an interface have numbers of their own. -/
theorem nodup_indexes (h : s.Shows b) (iface : HweIface) : ((s.m.table iface).map (·.index)).Nodup := by
  have hkeys := (h.inv.matched iface).map fun key => key.2.2
  rw [List.map_map, List.map_map] at hkeys
  exact hkeys.nodup_iff.mpr (h.inv.store.indexes iface).nodup

theorem registered_none (h : s.Shows b) (hne : iface ≠ .tty) (hnone : b.devs iface index = none) :
    s.m.registered iface index = none := by
  rw [HwemuModule.registered_eq h.inv.drivers hne, Option.map_eq_none_iff, List.find?_eq_none]
  intro p hp hindex
  obtain ⟨d, hd, hkey⟩ := h.inv.exists_dev hp
  have hsame : d.index = p.index := congrArg (fun key => key.2.2) hkey
  exact h.empty_of hnone d hd (hsame.trans (beq_iff_eq.mp hindex))

/-- An empty slot of the tty driver. -/
theorem slot_none (h : s.Shows b) (hnone : b.devs .tty index = none) : s.m.ttyDevices index = none := by
  cases hslot : s.m.ttyDevices index with
  | none => rfl
  | some p =>
      obtain ⟨d, hd, hindex⟩ := (h.inv.agree.tty index).mp (by rw [hslot]; rfl)
      exact absurd hindex (h.empty_of hnone d hd)

end Emulator.Shows

namespace Emulator.Found

variable {p : PrivDev}

theorem ok (hf : s.Found b iface d dev p) (h : s.Shows b) : d.Ok := h.inv.store.ok d (Kernel.mem_devs_of_mem hf.mem)

theorem registered (hf : s.Found b iface d dev p) (h : s.Shows b) (hne : iface ≠ .tty) :
    s.m.registered iface d.index = some p.addr := by
  rw [HwemuModule.registered_eq h.inv.drivers hne, ← hf.index, Keyed.find?_eq_some (h.nodup_indexes iface) hf.priv]
  rfl

theorem slot (hf : s.Found b .tty d dev p) (h : s.Shows b) : s.m.ttyDevices d.index = some p := by
  obtain ⟨i, _, hslot⟩ := mem_table_tty.mp hf.priv
  rw [← hf.index, (h.inv.drivers.slot i p hslot).1]
  exact hslot

theorem deref (hf : s.Found b iface d dev p) (h : s.Shows b) : s.m.k.deref p.hwedev = .ok d := by
  rw [hf.owner]
  exact h.inv.store.deref_eq (Kernel.mem_devs_of_mem hf.mem)

theorem wired (hf : s.Found b iface d dev p) (h : s.Shows b) : s.Wired iface p.addr dev := by
  obtain ⟨a, hdevice, hwired⟩ := hf.shown.wired
  rw [h.inv.store.iface iface d hf.mem] at hwired
  rw [Option.some.inj (hf.device.symm.trans hdevice)]
  exact hwired

theorem netDev (hf : s.Found b .net d dev p) (h : s.Shows b) : s.netDev p.addr = .ok p := by
  obtain ⟨e, he, rfl⟩ := List.mem_map.mp hf.priv
  have hnodup : (s.m.netDevices.map fun e => e.priv.addr).Nodup := by
    have hnodup := h.inv.drivers.nodup_table .net
    change ((s.m.netDevices.map (·.priv)).map (·.addr)).Nodup at hnodup
    rwa [List.map_map] at hnodup
  unfold Emulator.netDev
  rw [Keyed.find?_eq_some hnodup he]
  dsimp only
  rw [h.inv.drivers.kept e he]
  rfl

theorem spiDev (hf : s.Found b .spi d dev p) (h : s.Shows b) :
    s.spiDev p.addr = .ok { hwedev := p.hwedev, buffer := s.spi p.addr } := by
  have hfind : (s.m.spiDevices.find? fun p' => p'.addr == p.addr) = some p :=
    Keyed.find?_eq_some (h.inv.drivers.nodup .spi) hf.priv
  unfold Emulator.spiDev
  rw [hfind]

/-- The record of the pool, with what it holds. -/
theorem i2cDev (hf : s.Found b .i2c d dev p) (h : s.Shows b) : ∃ e ∈ s.m.i2cDevices, e.addr = p.addr ∧
    s.i2cDev p.addr = .ok e ∧ e.priv.inUse = true ∧ e.priv.hwedev = d.addr ∧ e.priv.buffer.Holds dev.held ∧
    e.priv.chip = dev.chip := by
  obtain ⟨e, he, haddr, huse, hholds, hchip⟩ := hf.wired h
  have hfind := Keyed.find?_eq_some (h.inv.drivers.nodup .i2c) he
  obtain ⟨e', he', hpriv⟩ := List.mem_map.mp hf.priv
  have hin := (List.mem_filter.mp he').1
  obtain rfl : e' = e := by
    refine List.inj_on_of_nodup_map (h.inv.drivers.nodup .i2c) hin he ?_
    rw [haddr, ← hpriv]
    rfl
  refine ⟨e', he, haddr, ?_, huse, ?_, hholds, hchip⟩
  · unfold Emulator.i2cDev
    rw [← haddr, hfind]
  · rw [← hf.owner, ← hpriv]
    rfl

end Emulator.Found

/-- **The pair of a request** is the line that answers it. -/
theorem BenchDev.answer_eq (hlines : dev.lines = d.pairList.map Pair.line) (hok : d.Ok) {buf : List UInt8}
    {len : Nat} (hlen : len ≤ buf.length) (hlt : len < 2 ^ 32) :
    dev.answer (buf.take len) = (findResponse d buf (toInt len)).map Pair.line := by
  rw [BenchDev.answer, hlines, List.find?_map, findResponse_eq hok hlen hlt]
  rfl

/-! ### Ttys -/

/-- The emulator while a handler holds the semaphore of its interface. -/
def Emulator.locked (iface : HweIface) (s : Emulator w) : Emulator w :=
  { s with m := s.m.setKernel (s.m.k.setSem iface (s.m.k.sems iface - 1)) }

/-- Work under the semaphore that leaves the module alone. -/
theorem Emulator.withLock_of_eq_ok {α : Type} {body : Emulator w → Except Fault (α × Emulator w)} {ret : α}
    (h : s.Shows b) (s₁ : Emulator w) (hm : s₁.m = (s.locked iface).m) (hbody : body (s.locked iface) = .ok (ret, s₁)) :
    s.withLock iface body = .ok (ret, { s₁ with m := s.m }) := by
  have hsem : s.m.k.sems iface ≠ 0 := by
    rw [h.sems]
    exact Nat.one_ne_zero
  have hunlock : s₁.m.setKernel (unlockIfaceDevs iface s₁.m.k) = s.m := by
    rw [hm]
    change s.m.setKernel (unlockIfaceDevs iface (s.m.k.setSem iface (s.m.k.sems iface - 1))) = s.m
    rw [unlock_lock hsem]
    rfl
  unfold Emulator.withLock lockIfaceDevs
  rw [if_neg hsem, Except.ok_bind]
  change body (s.locked iface) >>= _ = _
  rw [hbody, Except.ok_bind]
  dsimp only
  rw [hunlock]
  rfl

theorem Emulator.withLock_of_eq_error {α : Type} {body : Emulator w → Except Fault (α × Emulator w)} {fault : Fault}
    (h : s.Shows b) (hbody : body (s.locked iface) = .error fault) : s.withLock iface body = .error fault := by
  have hsem : s.m.k.sems iface ≠ 0 := by
    rw [h.sems]
    exact Nat.one_ne_zero
  unfold Emulator.withLock lockIfaceDevs
  rw [if_neg hsem, Except.ok_bind]
  change body (s.locked iface) >>= _ = _
  rw [hbody]
  rfl

theorem Emulator.ttyDev_eq (htty : s.ttys tty = some index) : s.ttyDev tty = .ok (s.m.ttyDevices index) := by
  unfold Emulator.ttyDev
  rw [htty]

theorem Emulator.ttyDev_opened (s : Emulator w) (tty index : Nat) :
    Emulator.ttyDev tty { s with ttys := Function.update s.ttys tty (some index) } = .ok (s.m.ttyDevices index) :=
  Emulator.ttyDev_eq (Function.update_self tty (some index) s.ttys)

theorem Emulator.ttyDev_closed (htty : s.ttys tty = none) : s.ttyDev tty = .error .nullDeref := by
  unfold Emulator.ttyDev
  rw [htty]

namespace Emulator.Shows

/-- A tty that was never opened. -/
theorem closed (h : s.Shows b) (htty : ¬(b.ttys tty).isSome = true) : (s.locked .tty).ttys tty = none :=
  (congrFun h.ttys tty).trans (Option.not_isSome_iff_eq_none.mp htty)

/-- The slot of the tty driver for a place. -/
theorem isSome_slot (h : s.Shows b) (index : Nat) :
    (s.m.ttyDevices index).isSome = (b.devs .tty index).isSome := by
  rw [Bool.eq_iff_iff, h.inv.agree.tty index, h.isSome_iff]

theorem ttyOpen (h : s.Shows b) (tty : Nat) (index : Fin hweMaxDevices) :
    ∃ s', s.hwettyOpen tty index = .ok (if (b.devs .tty index).isSome then 0 else -enodev, s') ∧
      s'.Shows { b with ttys := Function.update b.ttys tty (some index.val) } := by
  refine ⟨{ s with ttys := Function.update s.ttys tty (some index.val) }, ?_, h.ttys ▸ h.setTtys _⟩
  refine Emulator.withLock_of_eq_ok h
    { s.locked .tty with ttys := Function.update s.ttys tty (some index.val) } rfl ?_
  have hslot : (s.locked .tty).m.ttyDevices index.val = s.m.ttyDevices index.val := rfl
  dsimp only
  rw [(s.locked .tty).ttyDev_opened tty index, Except.ok_bind, ← h.isSome_slot, hslot]
  cases s.m.ttyDevices index.val with
  | none => rfl
  | some p => rfl

theorem ttyClose (h : s.Shows b) (htty : b.ttys tty = some index) :
    s.hwettyClose tty = .ok ((), s) := by
  refine Emulator.withLock_of_eq_ok h (s.locked .tty) rfl ?_
  rw [Emulator.ttyDev_eq (s := s.locked .tty) ((congrFun h.ttys tty).trans htty)]
  rfl

theorem ttyWriteRoom (h : s.Shows b) (htty : b.ttys tty = some index) :
    s.hwettyWriteRoom tty = .ok (if (b.devs .tty index).isSome then pageSize else -enodev, s) := by
  refine Emulator.withLock_of_eq_ok h (s.locked .tty) rfl ?_
  have hslot : (s.locked .tty).m.ttyDevices index = s.m.ttyDevices index := rfl
  rw [Emulator.ttyDev_eq (s := s.locked .tty) ((congrFun h.ttys tty).trans htty), Except.ok_bind, hslot,
    ← h.isSome_slot]
  cases s.m.ttyDevices index with
  | none => rfl
  | some p => rfl

/-- **A write to a tty** is answered at its port. -/
theorem ttyWrite (h : s.Shows b) (htty : b.ttys tty = some index) {buffer : List UInt8}
    (hcount : buffer.length ≤ intMax) (env : HweIface → Nat → Nat → RxEnv) :
    ∃ s', s.hwettyWrite env tty buffer =
        .ok (match b.devs .tty index with
          | none => -enodev
          | some _ => buffer.length, s') ∧
      s'.Shows (match b.devs .tty index with
        | none => b
        | some dev =>
            match dev.answer buffer with
            | none => b
            | some l => b.hear index (l.resp.take (env .tty index l.index).flip)) := by
  have hdev := Emulator.ttyDev_eq (s := s.locked .tty) ((congrFun h.ttys tty).trans htty)
  cases hplace : b.devs .tty index with
  | none =>
      refine ⟨s, Emulator.withLock_of_eq_ok h (s.locked .tty) rfl ?_, h⟩
      have hslot : (s.locked .tty).m.ttyDevices index = none := h.slot_none hplace
      rw [hdev, Except.ok_bind, hslot]
      rfl
  | some dev =>
      obtain ⟨d, p, hf, rfl⟩ := h.found hplace
      have hslot : (s.locked .tty).m.ttyDevices d.index = some p := hf.slot h
      have hderef : (s.locked .tty).m.k.deref p.hwedev = .ok d := by
        rw [hf.owner]
        exact (h.inv.store.setSem _ _).deref_eq (Kernel.mem_devs_of_mem hf.mem)
      have hanswer := BenchDev.answer_eq hf.shown.lines (hf.ok h) buffer.length.le_refl
        (by unfold intMax at hcount; omega)
      rw [List.take_length] at hanswer
      dsimp only
      cases hfind : findResponse d buffer (toInt buffer.length) with
      | none =>
          rw [hfind] at hanswer
          rw [hanswer]
          refine ⟨s, Emulator.withLock_of_eq_ok h (s.locked .tty) rfl ?_, h⟩
          rw [hdev, Except.ok_bind, hslot]
          dsimp only
          rw [hderef, Except.ok_bind, hfind, toInt_of_le hcount]
          rfl
      | some pair =>
          rw [hfind] at hanswer
          rw [hanswer]
          refine ⟨s.pushFlip (env .tty d.index pair.index) d.index pair.resp,
            Emulator.withLock_of_eq_ok h
              ((s.locked .tty).pushFlip (env .tty d.index pair.index) d.index pair.resp) rfl ?_,
            h.pushFlip _ _ _⟩
          rw [hdev, Except.ok_bind, hslot]
          dsimp only
          rw [hderef, Except.ok_bind, hfind, toInt_of_le hcount, hf.index]
          rfl

end Emulator.Shows

/-! ### Adapters and buses -/

section

variable {acts acts' : List RespAct} {act : RespAct}

/-- A transfer fails if a message found nothing to read. -/
theorem errAfter_foldl {err ret : Int} (hfail : .fail ∈ acts → ret = -einval) (hdone : .fail ∉ acts → ret = err) :
    acts.foldl errAfter err = ret := by
  induction acts generalizing err with
  | nil => exact (hdone List.not_mem_nil).symm
  | cons act acts ih =>
      rw [List.foldl_cons]
      refine ih (fun hmem => hfail (List.mem_cons_of_mem act hmem)) fun hnotMem => ?_
      cases act with
      | fail => exact hfail List.mem_cons_self
      | _ => exact hdone fun hmem => hnotMem ((List.mem_cons.mp hmem).resolve_left (by simp))

/-- A message does what the bench says. -/
theorem MsgOutcome.message (hlines : dev.lines = d.pairList.map Pair.line) (hok : d.Ok) {m m' : I2cMsg}
    (hout : MsgOutcome d dev.held.unread m m' act) : dev.message m = (m', act) := by
  have hlt := m.len.toNat_lt
  have hanswer := BenchDev.answer_eq hlines hok m.len_le (by omega)
  rw [toInt_of_le (by unfold intMax; omega)] at hanswer
  unfold BenchDev.message
  cases act with
  | load source resp =>
      obtain ⟨hread, rfl, rfl, p, hfind, rfl⟩ := hout
      rw [if_neg (by simp [hread]), BenchDev.reply, hanswer, hfind]
      rfl
  | discard =>
      obtain ⟨hread, rfl, hfind⟩ := hout
      rw [if_neg (by simp [hread]), BenchDev.reply, hanswer, hfind]
      rfl
  | deliver chunk =>
      obtain ⟨hread, hsome, rfl, rfl⟩ := hout
      rw [if_pos hread, if_neg hsome]
  | fail =>
      obtain ⟨hread, hnone, rfl⟩ := hout
      rw [if_pos hread, if_pos hnone]

/-- **A transfer** does what the bench says, message by message. -/
theorem XferOutcome.xfer {msgs msgs' : List I2cMsg} (hok : d.Ok) (hout : XferOutcome d acts msgs msgs' acts')
    (hlines : dev.lines = d.pairList.map Pair.line) (hacts : dev.acts = acts) (err : Int) :
    BenchDev.xfer msgs err dev = ((acts'.foldl errAfter err, msgs'), { dev with acts := dev.acts ++ acts' }) := by
  induction hout generalizing dev err with
  | nil acts =>
      rw [BenchDev.xfer, List.append_nil]
      rfl
  | cons hmsg _ ih =>
      subst hacts
      rw [BenchDev.xfer, hmsg.message hlines hok]
      dsimp only
      rw [ih (show (dev.act _).lines = _ from hlines) rfl]
      simp only [BenchDev.act, List.append_assoc, List.singleton_append, List.foldl_cons]

/-- A read of at most `len` bytes. -/
theorem RespBuffer.Holds.read_min {b : RespBuffer} {h : Chunked.Held Source UInt8} (hb : b.Holds h)
    (hne : b.respSize ≠ 0) (len : Nat) :
    let sz := if b.respSize > len then len else b.respSize
    b.peek sz = .ok (h.unread.take len) ∧
      ((b.shrink sz).advance sz).Holds ((Chunked.Act.deliver (h.unread.take len) : RespAct).apply h) := by
  have hlen := hb.length_unread
  split
  · rename_i hgt
    exact ⟨hb.toWindow.peek hne hgt.le, hb.read hne hgt.le⟩
  · rename_i hle
    have hall : h.unread.take len = h.unread.take b.respSize := by
      rw [List.take_of_length_le (by omega), List.take_of_length_le hlen.le]
    rw [hall]
    exact ⟨hb.toWindow.peek hne le_rfl, hb.read hne le_rfl⟩

/-- **A transfer on a bus** does what the bench says. -/
theorem hwespiTransferOne_transfer {k : Kernel w} (priv : SpiPriv) (hderef : k.deref priv.hwedev = .ok d)
    (hok : d.Ok) (hlines : dev.lines = d.pairList.map Pair.line) (hholds : priv.buffer.Holds dev.held)
    (t : SpiTransfer) :
    ∃ buffer acts, hwespiTransferOne k t priv = .ok ((dev.transfer t).1, { priv with buffer := buffer }) ∧
      (dev.transfer t).2 = { dev with acts := acts } ∧ buffer.Holds (Chunked.held acts) := by
  have hzeros : t.padded [] = zeroFilled t.len.toNat [] := by
    rw [← padded_take, List.take_nil]
  unfold hwespiTransferOne spiFind BenchDev.transfer
  cases htx : t.txBuf with
  | none =>
      rw [Except.ok_bind]
      cases hrx : t.rxBuf with
      | false => exact ⟨priv.buffer, dev.acts, rfl, rfl, hholds⟩
      | true =>
          dsimp only
          by_cases hzero : priv.buffer.respSize = 0
          · have hnil := hholds.unread_eq_nil_iff.mpr hzero
            rw [if_neg (not_not_intro hzero), if_pos hnil, hnil, hzeros]
            exact ⟨priv.buffer, dev.acts, rfl, rfl, hholds⟩
          · obtain ⟨hpeek, hnext⟩ := hholds.read_min hzero t.len.toNat
            rw [if_pos hzero, if_neg (mt hholds.unread_eq_nil_iff.mp hzero), hpeek, Except.ok_bind, padded_take]
            refine ⟨_, _, rfl, rfl, ?_⟩
            rw [Chunked.held_concat]
            exact hnext
  | some tx =>
      have hanswer := BenchDev.answer_eq hlines hok (t.len_le tx htx) t.len.toNat_lt
      dsimp only
      rw [hderef, Except.ok_bind]
      cases hrx : t.rxBuf with
      | true =>
          refine ⟨priv.buffer.discard, dev.acts ++ [.discard], rfl, rfl, ?_⟩
          rw [Chunked.held_concat]
          exact hholds.discard
      | false =>
          dsimp only
          rw [BenchDev.reply, hanswer]
          cases hfind : findResponse d tx (toInt t.len.toNat) with
          | none =>
              refine ⟨priv.buffer.discard, dev.acts ++ [.discard], rfl, rfl, ?_⟩
              rw [Chunked.held_concat]
              exact hholds.discard
          | some pair =>
              have hpair : pair ∈ d.pairList := List.mem_of_find?_eq_some hfind
              obtain ⟨buffer, hload, hnext⟩ :=
                RespBuffer.Holds.load priv.buffer .request (hok.valid pair hpair).resp_le
              refine ⟨buffer, dev.acts ++ [.load .request pair.resp], ?_, rfl, ?_⟩
              · change (priv.buffer.load false pair.resp >>= _) = _
                change priv.buffer.load false pair.resp = _ at hload
                rw [hload]
                rfl
              · rw [Chunked.held_concat]
                exact hnext

end

/-! ### Calls that go to what is registered -/

/-- A frame is counted. -/
def NetPriv.transmitted (data : List UInt8) (priv : NetPriv w) : NetPriv w :=
  { priv with
    txBytes := priv.txBytes + BitVec.ofNat w data.length
    txPackets := priv.txPackets + 1 }

/-- A call to the device in a place, if there is one. -/
theorem Emulator.Shows.onRegistered {α : Type} (h : s.Shows b) (hne : iface ≠ .tty) (index : Nat)
    (out : α → EmuOutput) {call : Nat → Emulator w → Except Fault (α × Emulator w)}
    {f : BenchDev w → α × BenchDev w}
    (hcall : ∀ d dev p, s.Found b iface d dev p → d.index = index →
      ∃ s', call p.addr s = .ok ((f dev).1, s') ∧ s'.Shows (b.setDev iface d.index (some (f dev).2))) :
    Emulator.Agrees (s.onRegistered iface index out call) (b.call iface index out f) := by
  unfold Emulator.onRegistered Bench.call
  cases hdev : b.devs iface index with
  | none =>
      rw [h.registered_none hne hdev]
      exact ⟨s, rfl, h⟩
  | some dev =>
      obtain ⟨d, p, hf, rfl⟩ := h.found hdev
      obtain ⟨s', hrun, hshows⟩ := hcall d dev p hf rfl
      rw [hf.registered h hne]
      dsimp only
      rw [hrun]
      exact ⟨s', rfl, hshows⟩

namespace Emulator.Found

variable {p : PrivDev}

theorem i2cMasterXfer (hf : s.Found b .i2c d dev p) (h : s.Shows b) (msgs : List I2cMsg) :
    ∃ s', s.i2cMasterXfer p.addr msgs = .ok ((BenchDev.xfer msgs msgs.length dev).1, s') ∧
      s'.Shows (b.setDev .i2c d.index (some (BenchDev.xfer msgs msgs.length dev).2)) := by
  obtain ⟨e, he, haddr, hfind, huse, howner, hholds, hchip⟩ := hf.i2cDev h
  have hsem : s.m.k.sems .i2c ≠ 0 := by
    rw [h.sems]
    exact Nat.one_ne_zero
  have hderef : (s.m.k.setSem .i2c (s.m.k.sems .i2c - 1)).deref e.priv.hwedev = .ok d := by
    rw [howner]
    exact (h.inv.store.setSem _ _).deref_eq (Kernel.mem_devs_of_mem hf.mem)
  obtain ⟨ret, msgs', acts', buffer, hloop, hout, hfail, hdone, _, hheld⟩ :=
    doMasterXfer_outcome (hf.ok h) msgs msgs.length hderef hholds
  have hxfer := hout.xfer (hf.ok h) hf.shown.lines rfl msgs.length
  rw [errAfter_foldl hfail hdone] at hxfer
  have hrun : hwei2cMasterXfer msgs e.priv s.m.k =
      .ok ((ret, msgs', acts', { e.priv with buffer := buffer }), s.m.k) := by
    unfold hwei2cMasterXfer
    rw [if_pos huse]
    exact withLock_eq_ok.mpr ⟨hsem, _, Except.bind_of_eq_ok hloop _, (unlock_lock hsem).symm⟩
  rw [hxfer]
  refine ⟨s.setI2c p.addr { e.priv with buffer := buffer, chip := dev.chip }, ?_, ?_⟩
  · unfold Emulator.i2cMasterXfer
    rw [hfind, Except.ok_bind, hrun, ← hchip]
    rfl
  · rw [← haddr]
    exact h.setI2c hf.mem hf.place he (hf.device.trans (congrArg some haddr.symm)) huse hheld

theorem i2cSmbusXfer (hf : s.Found b .i2c d dev p) (h : s.Shows b) (call : SmbusCall) :
    ∃ ret data chip s', doSmbusXfer call dev.chip = .ok (ret, data, chip) ∧
      s.i2cSmbusXfer p.addr call = .ok ((ret, data), s') ∧
      s'.Shows (b.setDev .i2c d.index (some { dev with chip := chip })) := by
  obtain ⟨e, he, haddr, hfind, huse, howner, hholds, hchip⟩ := hf.i2cDev h
  have hsem : s.m.k.sems .i2c ≠ 0 := by
    rw [h.sems]
    exact Nat.one_ne_zero
  obtain ⟨ret, data, chip, hdo, _⟩ := doSmbusXfer_runs dev.chip call
  have hrun : hwei2cSmbusXfer call e.priv s.m.k =
      .ok ((ret, data, { e.priv with chip := chip }), s.m.k) := by
    unfold hwei2cSmbusXfer
    rw [if_pos huse, hchip, hdo]
    exact withLock_eq_ok.mpr ⟨hsem, _, rfl, (unlock_lock hsem).symm⟩
  refine ⟨ret, data, chip, s.setI2c p.addr { e.priv with buffer := e.priv.buffer, chip := chip }, hdo, ?_, ?_⟩
  · unfold Emulator.i2cSmbusXfer
    rw [hfind, Except.ok_bind, hrun]
    rfl
  · rw [← haddr]
    exact h.setI2c hf.mem hf.place he (hf.device.trans (congrArg some haddr.symm)) huse hholds

theorem spiTransferOne (hf : s.Found b .spi d dev p) (h : s.Shows b) (t : SpiTransfer) :
    ∃ s', s.spiTransferOne p.addr t = .ok ((dev.transfer t).1, s') ∧
      s'.Shows (b.setDev .spi d.index (some (dev.transfer t).2)) := by
  obtain ⟨buffer, acts, hrun, hdev, hheld⟩ := hwespiTransferOne_transfer
    { hwedev := p.hwedev, buffer := s.spi p.addr } (hf.deref h) (hf.ok h) hf.shown.lines (hf.wired h) t
  refine ⟨s.setSpi p.addr buffer, ?_, ?_⟩
  · unfold Emulator.spiTransferOne
    rw [hf.spiDev h, Except.ok_bind, hrun]
    rfl
  · rw [hdev]
    exact h.setSpi hf.mem hf.place hf.priv hf.device hheld

/-- A frame that is handed up. -/
theorem sendResponse (hf : s.Found b .net d dev p) (h : s.Shows b) {env : RxEnv} (hskb : env.skb = true)
    (frame : List UInt8) :
    ∃ s', s.sendResponse env p.addr frame = .ok (env.netifRx, s') ∧ s'.m.k = s.m.k ∧
      s'.Shows (b.setDev .net d.index (some (dev.receive frame))) := by
  have hnet : s.net p.addr = dev.net := hf.wired h
  refine ⟨s.setNet p.addr (dev.receive frame).net, ?_, rfl, h.setNet hf.mem hf.place hf.priv hf.device _⟩
  unfold Emulator.sendResponse
  rw [hskb, hnet]
  rfl

/-- A frame is counted before an answer is looked for. -/
theorem sent (hf : s.Found b .net d dev p) (h : s.Shows b) (data : List UInt8) :
    (s.setNet p.addr (dev.net.transmitted data)).Found
      (b.setDev .net d.index (some { dev with net := dev.net.transmitted data })) .net d
      { dev with net := dev.net.transmitted data } p := by
  refine ⟨hf.mem, Bench.devs_setDev_self .., ⟨hf.shown.dir, hf.shown.lines, p.addr, hf.device, ?_⟩, hf.priv, hf.device,
    hf.owner, hf.index⟩
  rw [h.inv.store.iface .net d hf.mem]
  exact Function.update_self ..

theorem hwenetXmit_eq (hf : s.Found b .net d dev p) (h : s.Shows b) {data : List UInt8} (hlen : data.length ≤ uintMax)
    (env : HweIface → Nat → Nat → RxEnv) :
    s.hwenetXmit env p.addr data = match dev.answer data with
      | none => .ok (0, s.setNet p.addr (dev.net.transmitted data))
      | some l => (s.setNet p.addr (dev.net.transmitted data)).sendResponse (env .net d.index l.index) p.addr l.resp := by
  have hnet : s.net p.addr = dev.net := hf.wired h
  have hanswer := BenchDev.answer_eq hf.shown.lines (hf.ok h) data.length.le_refl
    (by unfold uintMax at hlen; omega)
  rw [List.take_length] at hanswer
  have hderef : (s.setNet p.addr (dev.net.transmitted data)).m.k.deref p.hwedev = .ok d := hf.deref h
  unfold Emulator.hwenetXmit
  rw [hf.netDev h, Except.ok_bind, hanswer, hf.index, hnet]
  change ((s.setNet p.addr (dev.net.transmitted data)).m.k.deref p.hwedev >>= _) = _
  rw [hderef, Except.ok_bind]
  cases findResponse d data (toInt data.length) with
  | none => rfl
  | some pair => rfl

/-- **A frame that is sent** is answered, unless there is no memory for the answer. -/
theorem hwenetXmit (hf : s.Found b .net d dev p) (h : s.Shows b) {data : List UInt8} (hlen : data.length ≤ uintMax)
    {env : HweIface → Nat → Nat → RxEnv}
    (hskb : ∀ l, dev.answer data = some l → (env .net d.index l.index).skb = true) :
    ∃ s', s.hwenetXmit env p.addr data = .ok ((dev.xmit (env .net d.index) data).1, s') ∧
      s'.Shows (b.setDev .net d.index (some (dev.xmit (env .net d.index) data).2)) := by
  have hsent := h.setNet hf.mem hf.place hf.priv hf.device (dev.net.transmitted data)
  rw [hf.hwenetXmit_eq h hlen]
  unfold BenchDev.xmit
  cases hanswer : dev.answer data with
  | none => exact ⟨s.setNet p.addr (dev.net.transmitted data), rfl, hsent⟩
  | some l =>
      obtain ⟨s', hrun, _, hshows⟩ := (hf.sent h data).sendResponse hsent (hskb l hanswer) l.resp
      rw [Bench.setDev_setDev] at hshows
      exact ⟨s', hrun, hshows⟩

/-- Nothing is checked before the frame is filled. -/
theorem hwenetXmit_faults (hf : s.Found b .net d dev p) (h : s.Shows b) {data : List UInt8}
    (hlen : data.length ≤ uintMax) {env : HweIface → Nat → Nat → RxEnv} {l : Line w}
    (hanswer : dev.answer data = some l) (hskb : (env .net d.index l.index).skb = false) :
    s.hwenetXmit env p.addr data = .error .nullDeref := by
  rw [hf.hwenetXmit_eq h hlen, hanswer]
  dsimp only
  unfold Emulator.sendResponse
  rw [hskb]
  rfl

end Emulator.Found

end Hwemu
