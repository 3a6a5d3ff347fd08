import Hwemu.BenchView
import Hwemu.PairMap

/-!
# Operations on devices and pairs

An operation makes the one change to the bench that its arguments and what it returns say, and the bench
still shows the emulator.
-/

namespace Hwemu

variable {w : Nat} {HZ : Nat} {s : Emulator w} {b : Bench w} {d : Dev w} {dev : BenchDev w} {iface : HweIface}
  {m m' : HwemuModule w} {ret : Int}

/-! ### What an addition asks for -/

section

variable {hwedev index : Nat}

theorem createPriv_allows {env : CreateEnv} {a : Nat}
    (hrun : createPriv iface env hwedev index m = .ok (some a, m')) : env.Allows iface := by
  cases iface with
  | tty =>
      replace hrun := Except.ok.inj hrun
      unfold hweCreateTtyDevice at hrun
      split at hrun
      · exact absurd hrun (by simp)
      · split at hrun
        · exact absurd hrun (by simp)
        · rename_i hmem
          dsimp only at hrun
          split at hrun
          · exact absurd hrun (by simp)
          · rename_i hregister
            exact ⟨by simpa using hmem, by simpa using hregister⟩
  | i2c =>
      replace hrun := Except.ok.inj hrun
      unfold hweCreateI2cDevice at hrun
      split at hrun
      · exact absurd hrun (by simp)
      · dsimp only at hrun
        split at hrun
        · exact absurd hrun (by simp)
        · split at hrun
          · exact absurd hrun (by simp)
          · rename_i hadd
            exact Option.not_isSome_iff_eq_none.mp hadd
  | net =>
      replace hrun : hweCreateNetDevice env hwedev index m = .ok (some a, m') := hrun
      unfold hweCreateNetDevice at hrun
      dsimp only at hrun
      split at hrun
      · exact absurd hrun (by simp)
      · obtain ⟨devices, _, hrest⟩ := Except.bind_eq_ok_iff.mp hrun
        exact absurd hrest (by simp)
      · rename_i halloc
        obtain ⟨devices, _, hrest⟩ := Except.bind_eq_ok_iff.mp hrun
        split at hrest
        · obtain ⟨devices', _, hrest⟩ := Except.bind_eq_ok_iff.mp hrest
          exact absurd hrest (by simp)
        · rename_i hregister
          exact ⟨halloc, by simpa using hregister⟩
  | spi =>
      replace hrun := Except.ok.inj hrun
      unfold newSpiDev at hrun
      split at hrun
      · exact absurd hrun (by simp)
      · rename_i halloc
        dsimp only at hrun
        split at hrun
        · exact absurd hrun (by simp)
        · rename_i hregister
          split at hrun
          · exact absurd hrun (by simp)
          · rename_i hnew
            exact ⟨by simpa using halloc, by simpa using hregister, by simpa using hnew⟩

theorem createPriv_serves (h : DriversInv m) {env : CreateEnv} (hallows : env.Allows iface)
    (hmem : iface = .i2c → env.kzalloc = true) (hwedev : Nat) {index : Nat} (hindex : index < hweMaxDevices) :
    ∃ a m', createPriv iface env hwedev index m = .ok (some a, m') := by
  have hlt : ¬hweMaxDevices ≤ index := by omega
  cases iface with
  | tty =>
      obtain ⟨hkzalloc, hregister⟩ := hallows
      simp [createPriv, hweCreateTtyDevice, hlt, hkzalloc, hregister]
  | i2c =>
      have hadd : env.i2cAddAdapter = none := hallows
      have halloc : ∃ r, allocDev (some m.k.alloc.1) hwedev index m.i2cDevices = some r := by
        unfold allocDev
        split
        · exact ⟨_, rfl⟩
        · exact ⟨_, rfl⟩
      obtain ⟨r, hr⟩ := halloc
      simp [createPriv, hweCreateI2cDevice, hlt, hmem rfl, hadd, hr]
  | net =>
      obtain ⟨halloc, hregister⟩ := hallows
      simp only [createPriv, hweCreateNetDevice, halloc, netListAdd_kept h, Except.ok_bind, hregister]
      exact ⟨_, _, rfl⟩
  | spi =>
      obtain ⟨halloc, hregister, hnew⟩ := hallows
      simp [createPriv, newSpiDev, halloc, hregister, hnew]

end

/-- A device was added with all that is always asked for. -/
theorem HwemuModule.newDev_allows {env : AddDeviceEnv} (hrun : m.newDev env iface = .ok (some d, m')) :
    env.Allows iface := by
  unfold HwemuModule.newDev at hrun
  split at hrun
  · exact absurd hrun (by simp)
  · rename_i idx _
    split at hrun
    · exact absurd hrun (by simp)
    · rename_i e k hadd
      obtain ⟨⟨device, m₁⟩, hcreate, hrest⟩ := Except.bind_eq_ok_iff.mp hrun
      dsimp only at hrest
      split at hrest
      · exact absurd hrest (by simp)
      · have hkzalloc : env.kzalloc = true := by
          unfold addDev at hadd
          split at hadd
          · exact absurd hadd (by simp)
          · simpa using ‹¬(!env.kzalloc) = true›
        split at hrest
        · obtain ⟨m₂, _, hlast⟩ := Except.bind_eq_ok_iff.mp hrest
          exact absurd hlast (by simp)
        · rename_i hinit
          split at hrest
          · obtain ⟨m₂, _, hlast⟩ := Except.bind_eq_ok_iff.mp hrest
            exact absurd hlast (by simp)
          · rename_i hpairs
            exact ⟨hkzalloc, createPriv_allows hcreate, by simpa using hinit, by simpa using hpairs⟩

/-- Nothing else keeps a device from being added but that there is no place for it. -/
theorem HwemuModule.newDev_serves (h : DriversInv m) {env : AddDeviceEnv} (hserves : env.Serves iface)
    (hrun : m.newDev env iface = .ok (none, m')) : findFreeDevIndex iface m.k = none := by
  unfold HwemuModule.newDev at hrun
  cases hfree : findFreeDevIndex iface m.k with
  | none => rfl
  | some idx =>
      obtain ⟨hidx, hne⟩ := findFreeDevIndex_eq_some hfree
      have hlt : idx < hweMaxDevices := lt_of_le_of_ne (hidx ▸ Bitmap.findFirstZeroBit_le _) hne
      obtain ⟨e, k₁, hadd, _, _, _, hnext⟩ := addDev_some iface idx m.k
      have hdrivers : DriversInv (m.setKernel k₁) := h.congr ⟨rfl, rfl, rfl, rfl⟩ (hnext ▸ Nat.le_succ _)
      obtain ⟨a, m₁, hcreate⟩ := createPriv_serves hdrivers hserves.create hserves.i2c e.addr hlt
      rw [hfree] at hrun
      simp only [hserves.kzalloc, hadd, hcreate, Except.ok_bind, hserves.kobjectInitAndAdd,
        hserves.kobjectCreateAndAdd] at hrun
      exact absurd hrun (by simp)

/-! ### Under the lock -/

/-- An addition of a device under the lock. -/
theorem ModuleInv.lockedNewDev_done (h : ModuleInv m) {env : AddDeviceEnv} (hsetup : ¬env.FailsAfterSetup iface m.k)
    (f : Option (Dev w) → Int)
    (hrun : (m.withLock iface fun m => do
      let (dev, m) ← m.newDev env iface
      return (f dev, m)) = .ok (ret, m')) :
    ∃ r, ret = f r ∧ NewDevDone iface m.k m'.k r ∧
      (r = none → env.Serves iface → findFreeDevIndex iface m.k = none) ∧ ∀ d, r = some d → env.Allows iface := by
  obtain ⟨hsem, m₁, hbody, rfl⟩ := HwemuModule.withLock_eq_ok.mp hrun
  obtain ⟨⟨r, m₂⟩, hnew, hret⟩ := Except.bind_eq_ok_iff.mp hbody
  obtain ⟨rfl, rfl⟩ := Prod.mk.inj (Except.ok.inj hret)
  have hlocked := h.setSem iface (m.k.sems iface - 1)
  obtain ⟨_, r', m₁, hnew', _, _, _, hdone⟩ := @ModuleInv.newDev_done _ _ hlocked env iface hsetup
  obtain ⟨rfl, rfl⟩ := Prod.mk.inj (Except.ok.inj (hnew.symm.trans hnew'))
  refine ⟨r, rfl, ?_, ?_, ?_⟩
  rotate_left
  · rintro rfl hserves
    have hfree := HwemuModule.newDev_serves hlocked.drivers hserves hnew
    exact hfree
  · rintro d rfl
    exact HwemuModule.newDev_allows hnew
  cases r with
  | none => exact Changed.unlock hsem hdone
  | some d => exact ⟨hdone.1, Changed.unlock hsem hdone.2⟩

/-- A removal of a device under the lock. -/
theorem ModuleInv.lockedShutdownDev_done (h : ModuleInv m) {find : Kernel w → Option (Dev w)} {missing removed : Int}
    (hsame : ∀ sem, find (m.k.setSem iface sem) = find m.k) (hfind : ∀ d, find m.k = some d → d ∈ m.k.devs)
    (hrun : (m.withLock iface fun m =>
      match find m.k with
      | none => return (missing, m)
      | some dev => do
          let m ← m.shutdownDev dev
          return (removed, m)) = .ok (ret, m')) :
    (find m.k = none ∧ ret = missing ∧ Changed .keep m.k m'.k) ∨
      ∃ d, find m.k = some d ∧ ret = removed ∧ Changed (.removeDev d) m.k m'.k := by
  obtain ⟨hsem, m₁, hbody, rfl⟩ := HwemuModule.withLock_eq_ok.mp hrun
  have hlocked := h.setSem iface (m.k.sems iface - 1)
  have hsame' : find (m.setKernel (m.k.setSem iface (m.k.sems iface - 1))).k = find m.k := hsame _
  rw [hsame'] at hbody
  cases hd : find m.k with
  | none =>
      rw [hd] at hbody
      obtain ⟨rfl, rfl⟩ := Prod.mk.inj (Except.ok.inj hbody)
      exact Or.inl ⟨rfl, rfl, Changed.unlock hsem (Changed.refl _)⟩
  | some d =>
      rw [hd] at hbody
      obtain ⟨m₂, hshut, hc, _⟩ := hlocked.shutdownDev (d := d) (hfind d hd)
      dsimp only at hbody
      rw [hshut] at hbody
      obtain ⟨rfl, rfl⟩ := Prod.mk.inj (Except.ok.inj hbody)
      exact Or.inr ⟨d, rfl, rfl, Changed.unlock hsem hc⟩

/-! ### Lookups -/

namespace Emulator.Shows

/-- The device of a number. -/
theorem findDeviceByIndex_some (h : s.Shows b) {devIndex : Int} (hfind : findDeviceByIndex iface devIndex s.m.k = some d) :
    d ∈ s.m.k.devs ∧ d.iface = iface ∧ devIndex = d.index := by
  have hd : d ∈ (s.m.k.ifaces iface).devList := List.mem_of_find?_eq_some hfind
  obtain ⟨hdevs, hindex⟩ := Hwemu.findDeviceByIndex_some hfind
  exact ⟨hdevs, h.inv.store.iface iface d hd, hindex.symm⟩

theorem findDeviceByIndex_none (h : s.Shows b) {devIndex : Int} (hfind : findDeviceByIndex iface devIndex s.m.k = none)
    (index : Nat) (hindex : devIndex = index) : b.devs iface index = none := by
  cases hdev : b.devs iface index with
  | none => rfl
  | some dev =>
      obtain ⟨d, hd, heq, _⟩ := h.dev_of hdev
      have hmiss := List.find?_eq_none.mp hfind d hd
      rw [heq, hindex] at hmiss
      exact absurd (beq_self_eq_true _) hmiss

/-- Every device has a name. -/
theorem findDevice_noWord (h : s.Shows b) {buf : List UInt8} (hword : buf.length = 0 ∨ (copyWord buf 16).length = 0) :
    findDevice iface (copyWord buf 16) s.m.k = none := by
  have hempty : copyWord buf 16 = [] := by
    rcases hword with hbuf | hword
    · rw [List.length_eq_zero_iff.mp hbuf]
      rfl
    · exact List.length_eq_zero_iff.mp hword
  refine List.find?_eq_none.mpr fun d hd hname => ?_
  have hd' := Kernel.mem_devs_of_mem hd
  have hdev : d.name = devName d.iface d.index := (h.inv.store.published d hd').name
  rw [beq_iff_eq.mp hname, hempty] at hdev
  cases hi : d.iface <;> simp [hi, devName, ifaceToStr, bytes] at hdev

end Emulator.Shows

/-- No place is left when no index is. -/
theorem Emulator.Shows.full (h : s.Shows b) (hfree : findFreeDevIndex iface s.m.k = none) : b.Full iface := by
  have hall : Bitmap.findFirstZeroBit (s.m.k.ifaces iface).devIndexes = hweMaxDevices := by
    by_contra hne
    exact absurd ((if_neg hne).symm.trans hfree) (Option.some_ne_none _)
  intro index hindex
  have hset := Bitmap.getLsbD_of_lt_findFirstZeroBit (hall.symm ▸ hindex)
  obtain ⟨d, hd, heq⟩ := List.mem_map.mp (((h.inv.store.indexes iface).mem index).mp hset)
  exact h.isSome_iff.mpr ⟨d, hd, heq⟩

/-! ### Lines that can be taught -/

theorem Line.saidIn_of_parsed {text : List UInt8} {mem q : Pair w} {addr : Nat}
    (hparse : strToPair HZ text { mem with addr := addr } = .ok (.ok q)) (d : Dev w) :
    (q.placed d).line.SaidIn HZ text mem := ⟨addr, q, hparse, rfl⟩

/-- The text is parsed wherever the record is, and says the same. -/
theorem Line.SaidIn.parsed {text : List UInt8} {mem : Pair w} {l : Line w} (h : l.SaidIn HZ text mem) (addr : Nat) :
    ∃ q, strToPair HZ text { mem with addr := addr } = .ok (.ok q) ∧ q.Valid ∧ l.asyncRx = q.asyncRx ∧ l.req = q.req := by
  obtain ⟨addr₀, q, hparse, hline⟩ := h
  have hmoved := strToPair_moved HZ text addr { mem with addr := addr₀ }
  rw [hparse] at hmoved
  refine ⟨q.moved addr, hmoved, (strToPair_ok hmoved).1, ?_, ?_⟩
  · rw [hline]
    rfl
  · rw [hline]
    rfl

/-- A device that accepts a line has room for its pair, and no other with the request. -/
theorem BenchDev.Accepts.fits {l : Line w} {q : Pair w} (h : dev.Accepts l) (hlines : dev.lines = d.pairList.map Pair.line)
    (hok : d.Ok) (hq : q.Valid) (hkind : l.asyncRx = q.asyncRx) (hreq : l.req = q.req) :
    Bitmap.findFirstZeroBit d.pairsIndexes ≠ hweMaxPairs ∧ findPair d.pairList q.req q.req.length = none := by
  have hmem : ∀ p ∈ d.pairList, p.line ∈ dev.lines := by
    intro p hp
    rw [hlines]
    exact List.mem_map_of_mem hp
  constructor
  · intro hfull
    have hset := Bitmap.getLsbD_of_lt_findFirstZeroBit (hfull.symm ▸ h.room)
    obtain ⟨p, hp, hindex⟩ := List.mem_map.mp ((hok.indexes.mem l.index).mp hset)
    exact h.free p.line (hmem p hp) hindex
  · refine findPair_eq_none_iff.mpr fun p hp hsync heq => ?_
    cases hasync : q.asyncRx with
    | false => exact h.unmatched (hkind.trans hasync) p.line (hmem p hp) hsync (heq.trans hreq.symm)
    | true =>
        -- a timer has no request, and every synchronous pair has one
        have hpos := ((hok.valid p hp).sync hsync).1
        rw [heq, (hq.timer hasync).1] at hpos
        simp at hpos

section

variable {env : AddPairEnv w} {text : List UInt8} {k k' : Kernel w}

/-- There was a file for a pair that was added. -/
theorem addPair_file {dev : Option (Dev w)} {idx : Nat} (hrun : addPair HZ env text dev k = .ok (.added idx, k')) :
    env.sysfsCreateFile = none := by
  unfold addPair at hrun
  split at hrun
  · exact absurd hrun (by simp)
  · obtain ⟨parsed, _, hrun⟩ := Except.bind_eq_ok_iff.mp hrun
    cases parsed with
    | error err => exact absurd hrun (by simp)
    | ok q =>
        cases dev with
        | none => exact absurd hrun (by simp)
        | some d =>
            dsimp only at hrun
            split at hrun
            · exact absurd hrun (by simp)
            · split at hrun
              · exact absurd hrun (by simp)
              · split at hrun
                · exact absurd hrun (by simp)
                · assumption

theorem devAddStore_file {a : Nat} (hrun : devAddStore HZ a text env k = .ok (ret, k')) (hret : 0 ≤ ret) :
    env.sysfsCreateFile = none := by
  obtain ⟨d, _, hlocked⟩ := Except.bind_eq_ok_iff.mp hrun
  obtain ⟨_, k₁, hbody, _⟩ := withLock_eq_ok.mp hlocked
  obtain ⟨⟨r, k₂⟩, hadd, heq⟩ := Except.bind_eq_ok_iff.mp hbody
  obtain ⟨rfl, rfl⟩ := Prod.mk.inj (Except.ok.inj heq)
  obtain ⟨idx, rfl⟩ := storeRet_nonneg_iff.mp hret
  exact addPair_file hadd

theorem hweAddPair_file {devIndex : Int} (hrun : hweAddPair HZ iface devIndex text env k = .ok (ret, k'))
    (hret : 0 ≤ ret) : env.sysfsCreateFile = none := by
  obtain ⟨_, k₁, hbody, _⟩ := withLock_eq_ok.mp hrun
  obtain ⟨⟨r, k₂⟩, hadd, heq⟩ := Except.bind_eq_ok_iff.mp hbody
  obtain ⟨rfl, rfl⟩ := Prod.mk.inj (Except.ok.inj heq)
  obtain ⟨idx, rfl⟩ := ioctlRet_nonneg_iff.mp hret
  exact addPair_file hadd

/-- An addition to a directory is refused when the device cannot be taught. -/
theorem Emulator.Shows.not_teaches_of_store (h : s.Shows b) (hd : d ∈ s.m.k.devs) (hshows : s.ShowsDev d dev)
    (hrun : devAddStore HZ d.addr text env s.m.k = .ok (ret, k')) (hret : ret < 0) (l : Line w) :
    ¬env.Teaches HZ text dev l := by
  rintro ⟨⟨mem, hmem, hsaid⟩, hfile, haccepts⟩
  obtain ⟨q, hparse, hq, hkind, hreq⟩ := hsaid.parsed s.m.k.heap.next
  have hfits := haccepts.fits hshows.lines (h.inv.store.ok d hd) hq hkind hreq
  have hnonneg := (devAddStore_nonneg_iff h.inv.store hd hmem hfile hparse hrun).mpr hfits
  omega

theorem Emulator.Shows.not_teaches_of_add (h : s.Shows b) {devIndex : Int}
    (hfind : findDeviceByIndex iface devIndex s.m.k = some d) (hshows : s.ShowsDev d dev)
    (hrun : hweAddPair HZ iface devIndex text env s.m.k = .ok (ret, k')) (hret : ret < 0) (l : Line w) :
    ¬env.Teaches HZ (cstr text) dev l := by
  rintro ⟨⟨mem, hmem, hsaid⟩, hfile, haccepts⟩
  obtain ⟨q, hparse, hq, hkind, hreq⟩ := hsaid.parsed s.m.k.heap.next
  have hok := h.inv.store.ok d (Hwemu.findDeviceByIndex_some hfind).1
  have hfits := haccepts.fits hshows.lines hok hq hkind hreq
  have hnonneg := (hweAddPair_nonneg_iff h.inv.store hfind hmem hfile hparse hrun).mpr hfits
  omega

end

/-- No line has the number of a pair that is not there. -/
theorem Emulator.ShowsDev.no_line (h : s.ShowsDev d dev) {line : Nat} (hget : getPairAtIndex d.pairList line = none) :
    ∀ l ∈ dev.lines, l.index ≠ line := by
  rintro l hl rfl
  rw [h.lines] at hl
  obtain ⟨p, hp, rfl⟩ := List.mem_map.mp hl
  exact List.find?_eq_none.mp hget p hp (beq_self_eq_true _)

/-! ### Operations on pairs -/

section

variable {k' : Kernel w}

variable (hkept : Kept s.m (s.m.setKernel k')) (hinv' : ModuleInv (s.m.setKernel k'))

include hkept hinv'

/-- A pair is added through the directory of its device. -/
theorem Emulator.Shows.devAddStore (h : s.Shows b) {a : Nat} {buf : List UInt8} {env : AddPairEnv w}
    (hrun : Hwemu.exec HZ (.devAddStore a buf env) s.m.k = .ok (ret, k')) :
    ∃ c : BenchChange w, Op.Does HZ b ret c (.devAddStore a buf env) ∧ c.Allowed b ∧
      ({ s with m := s.m.setKernel k' } : Emulator w).Shows (c.apply b) := by
  obtain ⟨d, hderef, _⟩ := Except.bind_eq_ok_iff.mp hrun
  obtain ⟨hd, rfl⟩ := deref_eq_ok hderef
  obtain ⟨dev, hdev, hshows⟩ := h.devs d.iface d (h.inv.store.mem_devs.mp hd)
  rcases devAddStore_cases h.inv.store hd hrun with ⟨mem, q, hmem, hparse, hret, hc⟩ | ⟨hret, hc⟩
  · have hlearned := h.learned hd hc hkept hinv'
    obtain ⟨dev', hdev', haccepts⟩ := hlearned.1
    obtain rfl := Option.some.inj (hdev.symm.trans hdev')
    have hfile := devAddStore_file hrun (hret ▸ Int.natCast_nonneg _)
    have hteaches : env.Teaches HZ buf dev (q.placed d).line :=
      ⟨⟨mem, hmem, Line.saidIn_of_parsed hparse d⟩, hfile, haccepts⟩
    exact ⟨_, ⟨_, _, dev, ⟨hdev, hshows.dir⟩, Or.inr ⟨_, rfl, hteaches, hret⟩⟩, hlearned⟩
  · have hrefused := h.not_teaches_of_store hd hshows hrun hret
    exact ⟨.keep, ⟨_, _, dev, ⟨hdev, hshows.dir⟩, Or.inl ⟨rfl, hret, hrefused⟩⟩, trivial, h.keep hc hkept hinv'⟩

/-- A pair is added to a device by its number. -/
theorem Emulator.Shows.hweAddPair (h : s.Shows b) {devIndex : Int} {pairStr : List UInt8} {env : AddPairEnv w}
    (hrun : Hwemu.exec HZ (.hweAddPair iface devIndex pairStr env) s.m.k = .ok (ret, k')) :
    ∃ c : BenchChange w, Op.Does HZ b ret c (.hweAddPair iface devIndex pairStr env) ∧ c.Allowed b ∧
      ({ s with m := s.m.setKernel k' } : Emulator w).Shows (c.apply b) := by
  cases hfind : findDeviceByIndex iface devIndex s.m.k with
  | none =>
      obtain ⟨hret, hc⟩ := hweAddPair_missing h.inv.store hfind hrun
      refine ⟨.keep, Or.inl ⟨rfl, hret, fun index dev l hindex hdev => ?_⟩, trivial, h.keep hc hkept hinv'⟩
      rw [h.findDeviceByIndex_none hfind index hindex] at hdev
      exact absurd hdev.symm (Option.some_ne_none dev)
  | some d =>
      obtain ⟨hd, rfl, hindex⟩ := h.findDeviceByIndex_some hfind
      obtain ⟨dev, hdev, hshows⟩ := h.devs d.iface d (h.inv.store.mem_devs.mp hd)
      rcases hweAddPair_cases h.inv.store hfind hrun with ⟨mem, q, hmem, hparse, hret, hc⟩ | ⟨hret, hc⟩
      · have hlearned := h.learned hd hc hkept hinv'
        obtain ⟨dev', hdev', haccepts⟩ := hlearned.1
        obtain rfl := Option.some.inj (hdev.symm.trans hdev')
        have hfile := hweAddPair_file hrun (hret ▸ Int.natCast_nonneg _)
        have hteaches : env.Teaches HZ (cstr pairStr) dev (q.placed d).line :=
          ⟨⟨mem, hmem, Line.saidIn_of_parsed hparse d⟩, hfile, haccepts⟩
        exact ⟨_, Or.inr ⟨_, dev, _, hindex, hdev, rfl, hteaches, hret⟩, hlearned⟩
      · refine ⟨.keep, Or.inl ⟨rfl, hret, fun index dev' l hindex' hdev' => ?_⟩, trivial, h.keep hc hkept hinv'⟩
        obtain rfl : d.index = index := Int.natCast_inj.mp (hindex.symm.trans hindex')
        obtain rfl := Option.some.inj (hdev.symm.trans hdev')
        exact h.not_teaches_of_add hfind hshows hrun hret l

/-- A pair is deleted through the directory of its device. -/
theorem Emulator.Shows.devDeleteStore (h : s.Shows b) {a : Nat} {buf : List UInt8}
    (hrun : Hwemu.exec HZ (.devDeleteStore a buf) s.m.k = .ok (ret, k')) :
    ∃ c : BenchChange w, Op.Does HZ b ret c (.devDeleteStore a buf) ∧ c.Allowed b ∧
      ({ s with m := s.m.setKernel k' } : Emulator w).Shows (c.apply b) := by
  obtain ⟨d, hderef, _⟩ := Except.bind_eq_ok_iff.mp hrun
  obtain ⟨hd, rfl⟩ := deref_eq_ok hderef
  obtain ⟨dev, hdev, hshows⟩ := h.devs d.iface d (h.inv.store.mem_devs.mp hd)
  rcases devDeleteStore_cases h.inv.store hd hrun with ⟨line, p, hparse, hget, hret, _, hc⟩ | ⟨hret, hremoval, hc⟩
  · obtain ⟨hp, rfl⟩ := getPairAtIndex_some hget
    exact ⟨_, ⟨_, _, dev, ⟨hdev, hshows.dir⟩, Or.inr ⟨_, hparse, rfl, hret⟩⟩, h.forgot hd hp hc hkept hinv'⟩
  · refine ⟨.keep, ⟨_, _, dev, ⟨hdev, hshows.dir⟩, Or.inl ⟨rfl, hret, fun line hline => ?_⟩⟩, trivial, h.keep hc hkept hinv'⟩
    have hbuf : buf.length ≠ 0 := by
      rintro hnil
      rw [List.length_eq_zero_iff.mp hnil, show kstrtouint [] = none by decide] at hline
      exact absurd hline (by simp)
    rw [devDeleteStoreRemoval, if_neg hbuf, hline, Option.bind_some] at hremoval
    cases hget : getPairAtIndex d.pairList line with
    | none => exact hshows.no_line hget
    | some p =>
        rw [hget] at hremoval
        exact absurd hremoval (by simp [removalOfPair])

/-- A pair of a device is deleted by the numbers of both. -/
theorem Emulator.Shows.hweDeletePair (h : s.Shows b) {devIndex pairIndex : Int}
    (hrun : Hwemu.exec HZ (.hweDeletePair iface devIndex pairIndex) s.m.k = .ok (ret, k')) :
    ∃ c : BenchChange w, Op.Does HZ b ret c (.hweDeletePair iface devIndex pairIndex) ∧ c.Allowed b ∧
      ({ s with m := s.m.setKernel k' } : Emulator w).Shows (c.apply b) := by
  rcases hweDeletePair_cases h.inv.store hrun with ⟨d, p, hfind, hget, hret, _, hc⟩ | ⟨hret, hremoval, hc⟩
  · obtain ⟨hd, rfl, hindex⟩ := h.findDeviceByIndex_some hfind
    obtain ⟨hp, hline⟩ := getPairAtIndex_some hget
    exact ⟨_, Or.inr ⟨_, hindex, hline ▸ rfl, hret⟩, h.forgot hd hp hc hkept hinv'⟩
  · refine ⟨.keep, Or.inl ⟨rfl, hret, ?_⟩, trivial, h.keep hc hkept hinv'⟩
    intro index dev hindex hdev
    obtain ⟨d, hd, rfl, hshown⟩ := h.dev_of hdev
    have hfind := h.inv.store.findDeviceByIndex_eq (Kernel.mem_devs_of_mem hd)
    rw [h.inv.store.iface iface d hd] at hfind
    rw [hweDeletePairRemoval, hindex, hfind] at hremoval
    cases hget : getPairAtIndex d.pairList (toSizeT pairIndex) with
    | none => exact hshown.no_line hget
    | some q =>
        dsimp only at hremoval
        rw [hget] at hremoval
        exact absurd hremoval (by simp [removalOfPair])

theorem Emulator.Shows.onPairs (h : s.Shows b) {op : Op w} (hop : op.onPairs = true)
    (hrun : Hwemu.exec HZ op s.m.k = .ok (ret, k')) :
    ∃ c : BenchChange w, op.Does HZ b ret c ∧ c.Allowed b ∧
      ({ s with m := s.m.setKernel k' } : Emulator w).Shows (c.apply b) := by
  cases op with
  | devAddStore a buf env => exact h.devAddStore hkept hinv' hrun
  | hweAddPair iface devIndex pairStr env => exact h.hweAddPair hkept hinv' hrun
  | devDeleteStore a buf => exact h.devDeleteStore hkept hinv' hrun
  | hweDeletePair iface devIndex pairIndex => exact h.hweDeletePair hkept hinv' hrun
  | devClearStore a buf =>
      by_cases hbuf : buf.length = 0
      · rw [Hwemu.exec, devClearStore, if_pos hbuf] at hrun
        obtain ⟨rfl, rfl⟩ := Prod.mk.inj (Except.ok.inj hrun)
        exact ⟨.keep, Or.inl ⟨rfl, (by decide : -eio < 0), List.length_eq_zero_iff.mp hbuf⟩, trivial,
          h.keep (Changed.refl _) hkept hinv'⟩
      · have hrest := hrun
        rw [Hwemu.exec, devClearStore, if_neg hbuf] at hrest
        obtain ⟨d, hderef, _⟩ := Except.bind_eq_ok_iff.mp hrest
        obtain ⟨hd, rfl⟩ := deref_eq_ok hderef
        obtain ⟨dev, hdev, hshows⟩ := h.devs d.iface d (h.inv.store.mem_devs.mp hd)
        rcases devClearStore_cases h.inv.store hd hrun with ⟨hret, _, hc⟩ | ⟨_, hempty, _⟩
        · have hne : buf ≠ [] := fun hnil => hbuf (List.length_eq_zero_iff.mpr hnil)
          exact ⟨_, Or.inr ⟨_, _, dev, hne, ⟨hdev, hshows.dir⟩, rfl, hret⟩, h.cleared hd hc hkept hinv'⟩
        · exact absurd hempty hbuf
  | hweClearPairs iface devIndex =>
      rcases hweClearPairs_cases h.inv.store hrun with ⟨d, hfind, hret, hc⟩ | ⟨hret, hfind, hc⟩
      · obtain ⟨hd, rfl, hindex⟩ := h.findDeviceByIndex_some hfind
        exact ⟨_, Or.inr ⟨_, hindex, rfl, hret⟩, h.cleared hd hc hkept hinv'⟩
      · exact ⟨.keep, Or.inl ⟨rfl, hret, h.findDeviceByIndex_none hfind⟩, trivial, h.keep hc hkept hinv'⟩
  | ifaceAddStore iface buf env => exact absurd hop Bool.false_ne_true
  | hweAddDevice iface env => exact absurd hop Bool.false_ne_true
  | ifaceUninstallStore iface buf => exact absurd hop Bool.false_ne_true
  | hweDeleteDevice iface devIndex => exact absurd hop Bool.false_ne_true
  | hwemuIoctl cmd arg hp env => exact absurd hop Bool.false_ne_true

end

/-! ### All operations -/

/-- **An operation on devices and pairs** makes its one change to the bench. -/
theorem Emulator.Shows.op (h : s.Shows b) {op : ModuleOp w} (hsetup : ¬op.FailsAfterSetup s.m)
    (hrun : s.m.exec HZ op = .ok (ret, m')) :
    ∃ c : BenchChange w, op.Does HZ b ret c ∧ c.Allowed b ∧ ({ s with m := m' } : Emulator w).Shows (c.apply b) := by
  have hinv' := (h.inv.exec hsetup hrun).inv h.inv
  have hkept := exec_kept h.inv.drivers hrun
  cases op with
  | hweAddDevice iface env =>
      obtain ⟨r, rfl, hdone, hnone, hsome⟩ := h.inv.lockedNewDev_done hsetup (fun dev => match dev with
        | none => -enodev
        | some dev => dev.index) hrun
      cases r with
      | none =>
          refine ⟨.keep, Or.inl ⟨rfl, (by decide : -enodev < 0), ?_⟩, trivial, h.keep hdone hkept hinv'⟩
          exact fun hserves => h.full (hnone rfl hserves)
      | some d =>
          obtain ⟨rfl, hc⟩ := hdone
          exact ⟨_, Or.inr ⟨_, _, hsome d rfl, rfl, rfl⟩, h.added hc hkept hinv'⟩
  | ifaceAddStore iface buf env =>
      rw [HwemuModule.exec, HwemuModule.ifaceAddStore] at hrun
      split at hrun
      · rename_i hbuf
        obtain ⟨rfl, rfl⟩ := Prod.mk.inj (Except.ok.inj hrun)
        refine ⟨.keep, Or.inl ⟨rfl, (by decide : -eio < 0), fun hne => ?_⟩, trivial, h⟩
        exact absurd (List.length_eq_zero_iff.mp hbuf) hne
      · rename_i hbuf
        have hne : buf ≠ [] := fun hnil => hbuf (List.length_eq_zero_iff.mpr hnil)
        obtain ⟨r, rfl, hdone, hnone, hsome⟩ := h.inv.lockedNewDev_done (fun hfails => hsetup ⟨hbuf, hfails⟩)
          (fun dev => match dev with
            | none => -eio
            | some _ => toInt buf.length) hrun
        cases r with
        | none =>
            refine ⟨.keep, Or.inl ⟨rfl, (by decide : -eio < 0), ?_⟩, trivial, h.keep hdone hkept hinv'⟩
            exact fun _ hserves => h.full (hnone rfl hserves)
        | some d =>
            obtain ⟨rfl, hc⟩ := hdone
            exact ⟨_, Or.inr ⟨_, _, hne, hsome d rfl, rfl, rfl⟩, h.added hc hkept hinv'⟩
  | hweDeleteDevice iface devIndex =>
      rcases h.inv.lockedShutdownDev_done (fun _ => rfl) (fun d hd => (Hwemu.findDeviceByIndex_some hd).1) hrun with
        ⟨hfind, rfl, hc⟩ | ⟨d, hfind, rfl, hc⟩
      · exact ⟨.keep, Or.inl ⟨rfl, by decide, h.findDeviceByIndex_none hfind⟩, trivial, h.keep hc hkept hinv'⟩
      · obtain ⟨_, rfl, hindex⟩ := h.findDeviceByIndex_some hfind
        exact ⟨_, Or.inr ⟨_, hindex, rfl, rfl⟩, h.removed hc hkept hinv'⟩
  | ifaceUninstallStore iface buf =>
      have hempty : findDevice iface (copyWord buf 16) s.m.k = none →
          ∀ index, firstWord buf = devName iface index → b.devs iface index = none := by
        intro hnone index hword
        cases hdev : b.devs iface index with
        | none => rfl
        | some dev =>
            obtain ⟨d, hd, rfl, _⟩ := h.dev_of hdev
            have hfind := (findDevice_copyWord h.inv.store).mpr ⟨hd, hword⟩
            rw [hnone] at hfind
            exact absurd hfind (by simp)
      rw [HwemuModule.exec, HwemuModule.ifaceUninstallStore] at hrun
      split at hrun
      · rename_i hword
        obtain ⟨rfl, rfl⟩ := Prod.mk.inj (Except.ok.inj hrun)
        exact ⟨.keep, Or.inl ⟨rfl, by decide, hempty (h.findDevice_noWord hword)⟩, trivial, h⟩
      · rcases h.inv.lockedShutdownDev_done (fun _ => rfl) (fun d hd => findDevice_some hd) hrun with
          ⟨hfind, rfl, hc⟩ | ⟨d, hfind, hret, hc⟩
        · exact ⟨.keep, Or.inl ⟨rfl, by decide, hempty hfind⟩, trivial, h.keep hc hkept hinv'⟩
        · obtain ⟨hd, hword⟩ := (findDevice_copyWord h.inv.store).mp hfind
          obtain rfl := h.inv.store.iface iface d hd
          exact ⟨_, Or.inr ⟨_, hword, rfl, hret⟩, h.removed hc hkept hinv'⟩
  | onPairs op =>
      obtain ⟨⟨_, k'⟩, hpairs, hret⟩ := Except.bind_eq_ok_iff.mp hrun
      obtain ⟨rfl, rfl⟩ := Prod.mk.inj (Except.ok.inj hret)
      exact h.onPairs hkept hinv' op.property hpairs

end Hwemu
