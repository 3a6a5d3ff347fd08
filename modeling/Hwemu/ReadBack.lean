import Hwemu.Operations
import Hwemu.PairBounds

/-!
# Reading a pair back through the ioctl interface

`HWEIOCTL_WRITE_PAIR` followed by `HWEIOCTL_READ_PAIR`. The read looks for the pair at the index
that happens to be in an unassigned local variable, so it meets its purpose exactly when that index
leads to the same text as the index asked for.
-/

namespace Hwemu

variable {w : Nat} {k k' : Kernel w} {d : Dev w} {HZ : Nat}

/-! ### Device ids -/

theorem ofNat?_toNat (iface : HweIface) : HweIface.ofNat? iface.toNat = some iface := by
  cases iface <;> rfl

/-- The id made for a device, stored as an `int`, is taken apart again. -/
theorem parseDevid_makeDevid (iface : HweIface) {index : Nat} (h : index < hweMaxDevices) :
    parseDevid (toSizeT (Int32.ofInt (makeDevid iface index)).toInt) = some (iface, index) := by
  unfold hweMaxDevices at h
  have hiface : iface.toNat < 4 := by cases iface <;> decide
  have hint : (Int32.ofInt (makeDevid iface index)).toInt = iface.toNat * 2 ^ 24 + index := by
    have hwidth : Int32.size = 2 ^ 32 := rfl
    rw [Int32.toInt_ofInt, hwidth]
    unfold makeDevid
    exact Int.bmod_eq_of_le (by omega) (by omega)
  have hsize : toSizeT ((iface.toNat : Int) * 2 ^ 24 + index) = iface.toNat * 2 ^ 24 + index := by
    unfold toSizeT
    omega
  have hhigh : (iface.toNat * 2 ^ 24 + index) / 2 ^ 24 % 2 ^ 32 = iface.toNat := by omega
  have hlow : (iface.toNat * 2 ^ 24 + index) % 2 ^ 24 = index := by omega
  have hrange : ¬(iface.toNat ≥ HweIface.count ∨ index ≥ hweMaxDevices) := by
    unfold HweIface.count hweMaxDevices
    omega
  rw [hint, hsize, parseDevid, hhigh, hlow, if_neg hrange, ofNat?_toNat, Option.map_some]

/-! ### One read -/

/-- The pair the loop of `hwe_get_pair` stops at for the value of the variable. -/
def pairAt (d : Dev w) (idx : Int) : Option (Pair w) := d.pairList.find? fun p => (p.index : Int) == idx

theorem pairAt_some {idx : Int} {p : Pair w} (h : pairAt d idx = some p) :
    p ∈ d.pairList ∧ (p.index : Int) = idx := by
  have hbeq := List.find?_some h
  exact ⟨List.mem_of_find?_eq_some h, beq_iff_eq.mp hbeq⟩

theorem Dev.Ok.pairAt_eq (h : d.Ok) {p : Pair w} (hp : p ∈ d.pairList) : pairAt d p.index = some p := by
  cases hfind : pairAt d p.index with
  | none =>
      have hne := List.find?_eq_none.mp hfind p hp
      simp at hne
  | some q =>
      obtain ⟨hq, hindex⟩ := pairAt_some hfind
      rw [h.eq_of_index hq hp (by omega)]

theorem hweGetPair_eq (hsem : k.sems d.iface ≠ 0) (hfind : findDeviceByIndex d.iface d.index k = some d)
    (pairIndex idx : Int) :
    ∃ k', hweGetPair d.iface d.index pairIndex idx k = .ok ((match pairAt d idx with
      | none => (-enoent, none)
      | some p => (toInt (pairToStr p).length, some (scnprintf (hweMaxPairStr + 1) (pairToStr p)))), k') := by
  have hlocked : findDeviceByIndex d.iface d.index (k.setSem d.iface (k.sems d.iface - 1)) = some d :=
    hfind
  refine ⟨unlockIfaceDevs d.iface (k.setSem d.iface (k.sems d.iface - 1)), ?_⟩
  refine withLock_eq_ok.mpr ⟨hsem, k.setSem d.iface (k.sems d.iface - 1), ?_, rfl⟩
  rw [hlocked]
  unfold pairAt
  dsimp only
  cases d.pairList.find? fun p => (p.index : Int) == idx with
  | none => rfl
  | some p => rfl

/-- A text copied with its null to the start of the field is the string found there. -/
theorem cstr_copyTo (hp : HweioctlPair) {text : List UInt8} (htext : cstr text = text)
    (hlen : text.length ≤ hweMaxPairStr) : cstr (hp.copyTo (text ++ [0])).pair = text := by
  have htake : (text ++ [0]).take (hweMaxPairStr + 1) = text ++ [0] :=
    List.take_of_length_le (by simpa using hlen)
  have hnonzero : ∀ c ∈ text, c ≠ 0 := by
    intro c hc
    have hall := List.takeWhile_eq_self_iff.mp htext c hc
    simpa using hall
  simp only [HweioctlPair.copyTo, htake, cstr, List.append_assoc, List.singleton_append]
  rw [List.takeWhile_append_of_pos (by simpa using hnonzero)]
  simp

/-- The services a read needs before it looks for the pair. -/
def IoctlEnv.Reads (env : IoctlEnv w) : Prop :=
  env.getDeviceId = true ∧ env.getPairIndex = true ∧ env.kmalloc = true

/-- **One read**, of a device that exists: what is returned and what is written to the caller's
structure is decided by the pair at `idx`. -/
theorem ioctlReadPair_eq (h : StoreInv k) (hsems : ∀ iface, k.sems iface = 1) (hd : d ∈ k.devs)
    {hp : HweioctlPair} (hid : parseDevid (toSizeT hp.deviceId.toInt) = some (d.iface, d.index))
    (env : IoctlEnv w) :
    ∃ ret hp' k', ioctlReadPair hp env k = .ok ((ret, hp'), k') ∧
      ((¬env.Reads ∧ ret ≠ 0 ∧ ret ≠ -enoent) ∨
        (env.Reads ∧ pairAt d env.idx = none ∧ ret = -enoent ∧ hp' = hp) ∨
        ∃ p, env.Reads ∧ pairAt d env.idx = some p ∧ ret ≠ -enoent ∧
          (ret = 0 ↔ env.copyToUser = 0) ∧ (ret = 0 → cstr hp'.pair = pairToStr p)) := by
  unfold ioctlReadPair IoctlEnv.Reads
  cases hdevice : env.getDeviceId with
  | false => exact ⟨_, _, _, rfl, Or.inl ⟨by simp, by decide, by decide⟩⟩
  | true =>
      simp only [Bool.not_true, Bool.false_eq_true, if_false, hid]
      cases hindex : env.getPairIndex with
      | false => exact ⟨_, _, _, rfl, Or.inl ⟨by simp, by decide, by decide⟩⟩
      | true =>
          cases hmalloc : env.kmalloc with
          | false => exact ⟨_, _, _, rfl, Or.inl ⟨by simp, by decide, by decide⟩⟩
          | true =>
              simp only [Bool.not_true, Bool.false_eq_true, if_false]
              have halloc : StoreInv k.alloc.2 := h.congr rfl (Nat.le_succ _)
              have hmem : d ∈ k.alloc.2.devs := hd
              have hsem : k.alloc.2.sems d.iface ≠ 0 := by
                rw [show k.alloc.2.sems d.iface = 1 from hsems d.iface]
                decide
              obtain ⟨k₁, hget⟩ := hweGetPair_eq hsem (halloc.findDeviceByIndex_eq hmem)
                hp.pairIndex.toInt env.idx
              rw [hget, Except.ok_bind]
              cases hpair : pairAt d env.idx with
              | none =>
                  exact ⟨_, _, _, rfl, Or.inr (Or.inl ⟨by simp, rfl, rfl, rfl⟩)⟩
              | some p =>
                  have hvalid := (h.ok d hd).valid p (pairAt_some hpair).1
                  obtain ⟨hpos, hle⟩ := length_pairToStr hvalid
                  have hmax : hweMaxPairStr ≤ intMax := by decide
                  have hret : toInt ((pairToStr p).length : Int) = (pairToStr p).length :=
                    toInt_of_le (hle.trans hmax)
                  have hprinted : scnprintf (hweMaxPairStr + 1) (pairToStr p) = pairToStr p :=
                    List.take_of_length_le hle
                  have hsome : ((pairToStr p).length : Int) > 0 := by omega
                  simp only [hret, hprinted, if_pos hsome]
                  refine ⟨_, _, _, rfl, Or.inr (Or.inr ⟨p, by simp, rfl, ?_, ?_, ?_⟩)⟩
                  · split
                    · decide
                    · decide
                  · by_cases hcopy : env.copyToUser = 0
                    · simp [hcopy]
                    · simp [hcopy, efault]
                  · intro hzero
                    have hcopy : env.copyToUser = 0 := by
                      by_contra hne
                      rw [if_pos hne] at hzero
                      exact absurd hzero (by decide)
                    have hcount : (((pairToStr p).length : Int) + 1).toNat = (pairToStr p).length + 1 := by
                      omega
                    have htext : (((some (pairToStr p)).getD [] ++ [0]).take
                        (((pairToStr p).length : Int) + 1).toNat).take
                        ((((pairToStr p).length : Int) + 1).toNat - env.copyToUser) =
                        pairToStr p ++ [0] := by
                      rw [hcount, hcopy, Option.getD_some, Nat.sub_zero, List.take_take, Nat.min_self]
                      exact List.take_of_length_le (by simp)
                    rw [htext]
                    exact cstr_copyTo hp (cstr_pairToStr hvalid) hle

theorem reads_pair_iff (h : StoreInv k) (hsems : ∀ iface, k.sems iface = 1) (hd : d ∈ k.devs)
    {hp : HweioctlPair} (hid : parseDevid (toSizeT hp.deviceId.toInt) = some (d.iface, d.index))
    (env : IoctlEnv w) (text : List UInt8) :
    (∃ hp' k', ioctlReadPair hp env k = .ok ((0, hp'), k') ∧ cstr hp'.pair = text) ↔
      env.Reads ∧ env.copyToUser = 0 ∧ ∃ p, pairAt d env.idx = some p ∧ pairToStr p = text := by
  obtain ⟨ret, hp', k', hrun, hcases⟩ := ioctlReadPair_eq h hsems hd hid env
  rw [hrun]
  have hinj : ∀ {hp₁ : HweioctlPair} {k₁ : Kernel w},
      (.ok ((ret, hp'), k') : Except Fault _) = .ok ((0, hp₁), k₁) → ret = 0 ∧ hp' = hp₁ := by
    intro hp₁ k₁ heq
    exact Prod.mk.inj (Prod.mk.inj (Except.ok.inj heq)).1
  rcases hcases with ⟨hreads, hzero, _⟩ | ⟨_, hnone, rfl, _⟩ | ⟨p, hreads, hpair, _, hzero, htext⟩
  · refine iff_of_false ?_ fun hcond => hreads hcond.1
    rintro ⟨_, _, heq, _⟩
    exact hzero (hinj heq).1
  · refine iff_of_false ?_ ?_
    · rintro ⟨_, _, heq, _⟩
      exact absurd (hinj heq).1 (by decide)
    · rintro ⟨_, _, p, hpair, _⟩
      rw [hnone] at hpair
      simp at hpair
  · constructor
    · rintro ⟨_, _, heq, rfl⟩
      obtain ⟨hret, rfl⟩ := hinj heq
      exact ⟨hreads, hzero.mp hret, p, hpair, (htext hret).symm⟩
    · rintro ⟨_, hcopy, p', hpair', rfl⟩
      obtain rfl : p = p' := Option.some.inj (hpair.symm.trans hpair')
      have hret := hzero.mpr hcopy
      exact ⟨hp', k', by rw [hret], htext hret⟩

theorem reads_nothing_iff (h : StoreInv k) (hsems : ∀ iface, k.sems iface = 1) (hd : d ∈ k.devs)
    {hp : HweioctlPair} (hid : parseDevid (toSizeT hp.deviceId.toInt) = some (d.iface, d.index))
    (env : IoctlEnv w) :
    (∃ k', ioctlReadPair hp env k = .ok ((-enoent, hp), k')) ↔
      env.Reads ∧ pairAt d env.idx = none := by
  obtain ⟨ret, hp', k', hrun, hcases⟩ := ioctlReadPair_eq h hsems hd hid env
  rw [hrun]
  have hinj : ∀ {k₁ : Kernel w},
      (.ok ((ret, hp'), k') : Except Fault _) = .ok ((-enoent, hp), k₁) → ret = -enoent := by
    intro k₁ heq
    exact (Prod.mk.inj (Prod.mk.inj (Except.ok.inj heq)).1).1
  rcases hcases with ⟨hreads, _, hne⟩ | ⟨hreads, hnone, rfl, rfl⟩ | ⟨p, _, hpair, hne, _⟩
  · refine iff_of_false ?_ fun hcond => hreads hcond.1
    rintro ⟨_, heq⟩
    exact hne (hinj heq)
  · exact iff_of_true ⟨k', rfl⟩ ⟨hreads, hnone⟩
  · refine iff_of_false ?_ ?_
    · rintro ⟨_, heq⟩
      exact hne (hinj heq)
    · rintro ⟨_, hnone⟩
      rw [hpair] at hnone
      simp at hnone

/-! ### A write, and what follows it -/

theorem toInt_putPairIndex (hp : HweioctlPair) {index : Nat} (h : index ≤ hweMaxPairs) :
    (hp.putPairIndex index).pairIndex.toInt = index := by
  unfold hweMaxPairs at h
  have hwidth : Int32.size = 2 ^ 32 := rfl
  rw [HweioctlPair.putPairIndex, Int32.toInt_ofInt, hwidth]
  exact Int.bmod_eq_of_le (by omega) (by omega)

/-- **An accepted write** put the pair of the text, under the index it reports, in the list of the
device it names. -/
theorem ioctlWritePair_accepted (h : StoreInv k) {hp hp' : HweioctlPair} {env : IoctlEnv w}
    (hrun : ioctlWritePair HZ hp env k = .ok ((0, hp'), k')) :
    ∃ d ∈ k'.devs, ∃ p ∈ d.pairList,
      parseDevid (toSizeT hp.deviceId.toInt) = some (d.iface, d.index) ∧
      hp'.pairIndex.toInt = p.index ∧
      ∃ mem q, strToPair HZ (cstr (hp.pair.take hweMaxPairStr ++ [0])) mem = .ok (.ok q) ∧ q.Same p := by
  have hfail : ∀ {ret : Int} {hp₁ : HweioctlPair} {k₁ : Kernel w}, ret ≠ 0 →
      (.ok ((ret, hp₁), k₁) : Except Fault ((Int × HweioctlPair) × Kernel w)) ≠ .ok ((0, hp'), k') := by
    intro ret hp₁ k₁ hne heq
    exact hne (Prod.mk.inj (Prod.mk.inj (Except.ok.inj heq)).1).1
  unfold ioctlWritePair at hrun
  split at hrun
  · exact absurd hrun (hfail (by decide))
  · split at hrun
    · exact absurd hrun (hfail (by decide))
    · rename_i ifc devIdx hid
      split at hrun
      · exact absurd hrun (hfail (by decide))
      · dsimp only at hrun
        split at hrun
        · exact absurd hrun (hfail (by decide))
        · obtain ⟨⟨ret, k₁⟩, hadd, hrun⟩ := Except.bind_eq_ok_iff.mp hrun
          have halloc : StoreInv k.alloc.2 := h.congr rfl (Nat.le_succ _)
          have hge := hweAddPair_ge hadd
          dsimp only at hrun
          have hsmall : ∀ {n : Int}, -4095 ≤ n → n < 2 ^ 31 → toInt n = n := by
            intro n hlow hhigh
            exact Int.bmod_eq_of_le (by omega) (by omega)
          cases hfind : findDeviceByIndex ifc devIdx k.alloc.2 with
          | none =>
              obtain ⟨hneg, _⟩ := hweAddPair_missing halloc hfind hadd
              rw [hsmall hge (by omega), if_pos hneg] at hrun
              exact absurd hrun (hfail (by omega))
          | some d =>
              rcases hweAddPair_cases halloc hfind hadd with
                ⟨mem, q, _, hparse, hret, hc⟩ | ⟨hneg, _⟩
              · obtain ⟨⟨d₀, hd₀, haddr₀, haccepts⟩, _, _⟩ := hc.allowed
                have hd := (findDeviceByIndex_some hfind).1
                obtain rfl : d₀ = d := halloc.devAddr d₀ hd₀ d hd haddr₀
                have hroom : (q.placed d₀).index ≤ hweMaxPairs := by
                  rw [haccepts.index]
                  exact Bitmap.findFirstZeroBit_le _
                have hmax : hweMaxPairs = 1000 := rfl
                have hnonneg : ¬ret < 0 := by omega
                have hint : toInt ret = ret := hsmall hge (by omega)
                simp only [hint, if_neg hnonneg] at hrun
                split at hrun
                · exact absurd hrun (hfail (by decide))
                · obtain ⟨hpair, rfl⟩ := Prod.mk.inj (Except.ok.inj hrun)
                  obtain ⟨_, rfl⟩ := Prod.mk.inj hpair
                  have hmem : d₀.addPair (q.placed d₀) ∈ k₁.devs := by
                    have heq : k₁.devs = ((Change.addPair d₀.addr (q.placed d₀)).apply k.alloc.2).devs := by
                      unfold Kernel.devs
                      rw [hc.ifaces]
                    rw [heq]
                    exact Kernel.mem_devs_modifyDev.mpr ⟨d₀, hd, if_pos rfl⟩
                  have hindex : (d₀.index : Int) = devIdx := (findDeviceByIndex_some hfind).2
                  have hlisted : d₀ ∈ (k.alloc.2.ifaces ifc).devList := List.mem_of_find?_eq_some hfind
                  have hiface : d₀.iface = ifc := halloc.iface ifc d₀ hlisted
                  have hnat : d₀.index = devIdx := Int.ofNat.inj hindex
                  have hdevid : parseDevid (toSizeT hp.deviceId.toInt) = some (d₀.iface, d₀.index) := by
                    rw [hid, hiface, hnat]
                  have hwritten : (hp.putPairIndex ret).pairIndex.toInt = (q.placed d₀).index := by
                    rw [hret]
                    exact toInt_putPairIndex hp hroom
                  have hsame : q.Same (q.placed d₀) := ⟨rfl, rfl, rfl, fun _ => rfl⟩
                  have hlisted' : q.placed d₀ ∈ (d₀.addPair (q.placed d₀)).pairList :=
                    List.mem_append_right _ (List.mem_singleton_self _)
                  exact ⟨_, hmem, q.placed d₀, hlisted', hdevid, hwritten, _, q, hparse, hsame⟩
              · rw [hsmall hge (by omega), if_pos hneg] at hrun
                exact absurd hrun (hfail (by omega))

/-- A step that leaves the pair at address `pair` with the device at `dev`. -/
def KeepsPair (HZ dev pair : Nat) (k : Kernel w) (op : Op w) (k' : Kernel w) : Prop :=
  OpStep HZ k op k' ∧ k'.HasPair dev pair

theorem pair_kept_of_run {p : Pair w} {ops : List (Op w)} (h : StoreInv k ∧ ∀ iface, k.sems iface = 1)
    (hd : d ∈ k.devs) (hp : p ∈ d.pairList) (hrun : Run (KeepsPair HZ d.addr p.addr) k ops k') :
    (StoreInv k' ∧ ∀ iface, k'.sems iface = 1) ∧ ∃ d' ∈ k'.devs, d'.addr = d.addr ∧
      d'.iface = d.iface ∧ d'.index = d.index ∧ p ∈ d'.pairList := by
  refine hrun.invariant (I := fun k => (StoreInv k ∧ ∀ iface, k.sems iface = 1) ∧ ∃ d' ∈ k.devs,
    d'.addr = d.addr ∧ d'.iface = d.iface ∧ d'.index = d.index ∧ p ∈ d'.pairList) ?_
    ⟨h, d, hd, rfl, rfl, rfl, hp⟩
  rintro k₁ op k₂ ⟨⟨hinv, hsems⟩, d₁, hd₁, haddr, hiface, hindex, hp₁⟩ ⟨⟨ret, hexec⟩, hkept⟩
  obtain ⟨c, hc⟩ := exec_changed hinv hexec
  have hsems₂ : ∀ iface, k₂.sems iface = 1 := by
    intro iface
    rw [hc.sems]
    exact hsems iface
  rw [← haddr] at hkept
  obtain ⟨d₂, hd₂, haddr₂, hiface₂, hindex₂, _, hp₂⟩ := hc.pair_kept hinv hd₁ hp₁ hkept
  exact ⟨⟨hinv.changed hc, hsems₂⟩, d₂, hd₂, haddr₂.trans haddr, hiface₂.trans hiface,
    hindex₂.trans hindex, hp₂⟩

theorem hwemuIoctl_readPair (HZ arg : Nat) (hp : HweioctlPair) (env : IoctlEnv w) (k : Kernel w) :
    hwemuIoctl HZ (hweioctlMagic + 4) arg hp env k = ioctlReadPair hp env k := rfl

/-- **Reading back.** After a write that was accepted and any operations that leave its pair alone, a
read of the index it returned gives that pair's text exactly when the user accesses and the
allocation succeed and the variable `idx` happens to hold the index of a pair with this text. A read
of an index without a pair is refused exactly when `idx` holds no pair's index either. -/
theorem read_back (h : Reachable HZ k) :
    (∀ {arg : Nat} {hp hp₁ : HweioctlPair} {env : IoctlEnv w} {k₁ : Kernel w},
      hwemuIoctl HZ (hweioctlMagic + 5) arg hp env k = .ok ((0, hp₁), k₁) →
      ∃ d ∈ k₁.devs, ∃ p ∈ d.pairList,
        parseDevid (toSizeT hp.deviceId.toInt) = some (d.iface, d.index) ∧
        hp₁.pairIndex.toInt = p.index ∧
        (∃ mem q, strToPair HZ (cstr (hp.pair.take hweMaxPairStr ++ [0])) mem = .ok (.ok q) ∧
          q.Same p) ∧
        ∀ {ops : List (Op w)} {k₂ : Kernel w}, Run (KeepsPair HZ d.addr p.addr) k₁ ops k₂ →
          ∃ d₂ ∈ k₂.devs, d₂.addr = d.addr ∧ p ∈ d₂.pairList ∧
            ∀ (arg₂ : Nat) (hp₂ : HweioctlPair) (env₂ : IoctlEnv w),
              hp₂.deviceId = hp.deviceId → hp₂.pairIndex = hp₁.pairIndex →
              ((∃ hp₃ k₃, hwemuIoctl HZ (hweioctlMagic + 4) arg₂ hp₂ env₂ k₂ = .ok ((0, hp₃), k₃) ∧
                  cstr hp₃.pair = pairToStr p) ↔
                env₂.Reads ∧ env₂.copyToUser = 0 ∧
                  ∃ p' ∈ d₂.pairList, (p'.index : Int) = env₂.idx ∧ pairToStr p' = pairToStr p)) ∧
    ∀ d ∈ k.devs, ∀ (arg : Nat) (hp : HweioctlPair) (env : IoctlEnv w),
      parseDevid (toSizeT hp.deviceId.toInt) = some (d.iface, d.index) →
      (∀ p ∈ d.pairList, (p.index : Int) ≠ hp.pairIndex.toInt) →
      ((∃ k', hwemuIoctl HZ (hweioctlMagic + 4) arg hp env k = .ok ((-enoent, hp), k')) ↔
        env.Reads ∧ ∀ p ∈ d.pairList, (p.index : Int) ≠ env.idx) := by
  obtain ⟨hinv, hsems⟩ := h.inv
  constructor
  · intro arg hp hp₁ env k₁ hwrite
    obtain ⟨d, hd, p, hp', hid, hindex, mem, q, hparse, hsame⟩ := ioctlWritePair_accepted hinv hwrite
    refine ⟨d, hd, p, hp', hid, hindex, ⟨mem, q, hparse, hsame⟩, ?_⟩
    intro ops k₂ hrun
    obtain ⟨c, hc⟩ := (hwemuIoctl_changed hinv hwrite).changed
    have hsems₁ : ∀ iface, k₁.sems iface = 1 := by
      intro iface
      rw [hc.sems]
      exact hsems iface
    obtain ⟨⟨hinv₂, hsems₂⟩, d₂, hd₂, haddr, hiface₂, hindex₂, hp₂⟩ :=
      pair_kept_of_run ⟨hinv.changed hc, hsems₁⟩ hd hp' hrun
    refine ⟨d₂, hd₂, haddr, hp₂, ?_⟩
    intro arg₂ hp₂ env₂ hdevice _
    have hid₂ : parseDevid (toSizeT hp₂.deviceId.toInt) = some (d₂.iface, d₂.index) := by
      rw [hdevice, hid, hiface₂, hindex₂]
    rw [hwemuIoctl_readPair, reads_pair_iff hinv₂ hsems₂ hd₂ hid₂]
    refine and_congr_right fun _ => and_congr_right fun _ => ?_
    constructor
    · rintro ⟨p', hat, htext⟩
      obtain ⟨hmem, hidx⟩ := pairAt_some hat
      exact ⟨p', hmem, hidx, htext⟩
    · rintro ⟨p', hmem, hidx, htext⟩
      refine ⟨p', ?_, htext⟩
      rw [← hidx]
      exact (hinv₂.ok d₂ hd₂).pairAt_eq hmem
  · intro d hd arg hp env hid _
    rw [hwemuIoctl_readPair, reads_nothing_iff hinv hsems hd hid]
    refine and_congr_right fun _ => ?_
    rw [pairAt, List.find?_eq_none]
    simp

/-- A caller's structure for a device, with a text. -/
def HweioctlPair.ofText (iface : HweIface) (index : Nat) (text : List UInt8) : HweioctlPair :=
  HweioctlPair.copyTo
    { deviceId := Int32.ofInt (makeDevid iface index)
      pairIndex := 0
      pair := List.replicate (hweMaxPairStr + 1) 0
      length_pair := List.length_replicate }
    text

/-- Services that all succeed, and a value for the variable. -/
def IoctlEnv.succeeds (w : Nat) (idx : Int) : IoctlEnv w :=
  { getDeviceId := true
    getPairIndex := true
    kmalloc := true
    copyFromUser := true
    copyToUser := 0
    putPairIndex := true
    idx := idx
    newDev := .succeeds
    addPair := .succeeds w }

/-- The text `03=44` written to the device of `sampleOps`, and the index read at once. -/
def writeThenRead (idx : Int) :
    Except Fault (Kernel 64 × Kernel 64 × (Int × HweioctlPair) × (Int × HweioctlPair)) := do
  let k ← execAll 250 sampleOps (Kernel.loaded 64)
  let (written, k₁) ← hwemuIoctl 250 (hweioctlMagic + 5) 0 (.ofText .i2c 0 (bytes "03=44"))
    (.succeeds 64 0) k
  let (read, _) ← hwemuIoctl 250 (hweioctlMagic + 4) 0 written.2 (.succeeds 64 idx) k₁
  return (k, k₁, written, read)

theorem writeThenRead_ok {idx : Int} {k k₁ : Kernel 64} {written read : Int × HweioctlPair}
    (h : writeThenRead idx = .ok (k, k₁, written, read)) :
    Reachable 250 k ∧
      hwemuIoctl 250 (hweioctlMagic + 5) 0 (.ofText .i2c 0 (bytes "03=44")) (.succeeds 64 0) k =
        .ok (written, k₁) ∧
      ∃ k₂, hwemuIoctl 250 (hweioctlMagic + 4) 0 written.2 (.succeeds 64 idx) k₁ = .ok (read, k₂) := by
  obtain ⟨k', hops, h⟩ := Except.bind_eq_ok_iff.mp h
  obtain ⟨⟨written', k₁'⟩, hwrite, h⟩ := Except.bind_eq_ok_iff.mp h
  obtain ⟨⟨read', k₂⟩, hread, h⟩ := Except.bind_eq_ok_iff.mp h
  simp only [Except.pure_eq_ok, Except.ok.injEq, Prod.mk.injEq] at h
  obtain ⟨rfl, rfl, rfl, rfl⟩ := h
  exact ⟨Reachable.of_execAll hops, hwrite, k₂, hread⟩

theorem read_back_applies : ∃ (k k₁ k₂ : Kernel 64) (hp₁ hp₂ : HweioctlPair), Reachable 250 k ∧
    hwemuIoctl 250 (hweioctlMagic + 5) 0 (.ofText .i2c 0 (bytes "03=44")) (.succeeds 64 0) k =
      .ok ((0, hp₁), k₁) ∧ hp₁.pairIndex.toInt = 2 ∧
    hwemuIoctl 250 (hweioctlMagic + 4) 0 hp₁ (.succeeds 64 2) k₁ = .ok ((0, hp₂), k₂) ∧
    ∃ d ∈ k₁.devs, ∃ p ∈ d.pairList, (p.index : Int) = 2 ∧ cstr hp₂.pair = pairToStr p := by
  have hresults : (writeThenRead 0).toOption.map (fun r => (r.2.2.1.1, r.2.2.1.2.deviceId,
      r.2.2.1.2.pairIndex.toInt)) = some (0, Int32.ofInt (makeDevid .i2c 0), 2) := by
    decide +kernel
  cases hrun : writeThenRead 0 with
  | error fault => simp [hrun, Except.toOption] at hresults
  | ok r =>
      obtain ⟨k, k₁, ⟨ret, hp₁⟩, read⟩ := r
      simp only [hrun, Except.toOption, Option.map_some, Option.some.injEq, Prod.mk.injEq] at hresults
      obtain ⟨rfl, hdevice, hindex⟩ := hresults
      obtain ⟨hreach, hwrite, _⟩ := writeThenRead_ok hrun
      obtain ⟨d, _, p, _, _, hp, _, hback⟩ := (read_back hreach).1 hwrite
      obtain ⟨d₂, hd₂, _, hp₂, hread⟩ := hback (.nil k₁)
      have hnum : (p.index : Int) = 2 := hp.symm.trans hindex
      obtain ⟨hp₃, k₃, hret, htext⟩ := (hread 0 hp₁ (.succeeds 64 2) hdevice rfl).mpr
        ⟨⟨rfl, rfl, rfl⟩, rfl, p, hp₂, hnum, rfl⟩
      exact ⟨k, k₁, k₃, hp₁, hp₃, hreach, hwrite, hindex, hret, d₂, hd₂, p, hp₂, hnum, htext⟩

/-- With 0 in the variable, the read of the index just written returns the text of another pair, and
the read of an index without a pair succeeds. -/
theorem read_returns_another_pair : ∃ (k k₁ : Kernel 64) (hp₁ hp₂ : HweioctlPair), Reachable 250 k ∧
    hwemuIoctl 250 (hweioctlMagic + 5) 0 (.ofText .i2c 0 (bytes "03=44")) (.succeeds 64 0) k =
      .ok ((0, hp₁), k₁) ∧ hp₁.pairIndex.toInt = 2 ∧
    (k₁.devs.map fun d => ((pairAt d 2).map pairToStr, (pairAt d 7).map pairToStr)) =
      [(some (bytes "03=44"), none)] ∧
    (∃ k₂, hwemuIoctl 250 (hweioctlMagic + 4) 0 hp₁ (.succeeds 64 0) k₁ = .ok ((0, hp₂), k₂) ∧
      cstr hp₂.pair = bytes "0102=aabb") ∧
    ∃ hp₃ k₃, hwemuIoctl 250 (hweioctlMagic + 4) 0 (hp₁.putPairIndex 7) (.succeeds 64 0) k₁ =
      .ok ((0, hp₃), k₃) := by
  have hwritten : (writeThenRead 0).toOption.map
      (fun r => (r.2.2.1.1, r.2.2.1.2.pairIndex.toInt)) = some (0, 2) := by
    decide +kernel
  have hpairs : (writeThenRead 0).toOption.map (fun r =>
      r.2.1.devs.map fun d => ((pairAt d 2).map pairToStr, (pairAt d 7).map pairToStr)) =
      some [(some (bytes "03=44"), none)] := by
    decide +kernel
  have hreads : (writeThenRead 0).toOption.map (fun r => (r.2.2.2.1, cstr r.2.2.2.2.pair)) =
      some (0, bytes "0102=aabb") := by
    decide +kernel
  have hmissing : (writeThenRead 0).toOption.map (fun r =>
      (hwemuIoctl 250 (hweioctlMagic + 4) 0 (r.2.2.1.2.putPairIndex 7) (.succeeds 64 0)
        r.2.1).toOption.map (·.1.1)) = some (some 0) := by
    decide +kernel
  cases hrun : writeThenRead 0 with
  | error fault => simp [hrun, Except.toOption] at hwritten
  | ok r =>
      obtain ⟨k, k₁, ⟨ret, hp₁⟩, ret₂, hp₂⟩ := r
      simp only [hrun, Except.toOption, Option.map_some, Option.some.injEq, Prod.mk.injEq]
        at hwritten hpairs hreads hmissing
      obtain ⟨rfl, hindex⟩ := hwritten
      obtain ⟨rfl, htext⟩ := hreads
      obtain ⟨hreach, hwrite, k₂, hread⟩ := writeThenRead_ok hrun
      refine ⟨k, k₁, hp₁, hp₂, hreach, hwrite, hindex, hpairs, ⟨k₂, hread, htext⟩, ?_⟩
      split at hmissing
      · rename_i r hr
        obtain ⟨⟨ret₃, hp₃⟩, k₃⟩ := r
        obtain rfl : ret₃ = 0 := by simpa using hmissing
        exact ⟨hp₃, k₃, hr⟩
      · simp at hmissing

end Hwemu
