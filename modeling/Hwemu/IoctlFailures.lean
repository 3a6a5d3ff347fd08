import Hwemu.Accounts
import Hwemu.PairMap
import Hwemu.AddPair
import Hwemu.ReadBack

/-!
# Failing ioctl commands

A command that returns an error leaves the lists and the index bitmaps as they were, and every block
of memory a call takes is used by the store or given back when it returns. The command that writes a
pair misses both: it keeps its buffer when the text cannot be copied from user memory, and keeps the
pair when the index cannot be copied to it.
-/

namespace Hwemu

variable {w : Nat} {HZ : Nat} {k k' k₁ : Kernel w} {d : Dev w} {hp hp' : HweioctlPair}
  {env : IoctlEnv w} {ret : Int}

/-! ### When an addition succeeds -/

/-- All the checks of an addition to a device of the store pass. -/
def Kernel.Adds (HZ : Nat) (iface : HweIface) (devIndex : Int) (pairStr : List UInt8)
    (env : AddPairEnv w) (k : Kernel w) : Prop :=
  ∃ d mem q, findDeviceByIndex iface devIndex k = some d ∧ env.kmalloc = some mem ∧
    strToPair HZ (cstr pairStr) { mem with addr := k.heap.next } = .ok (.ok q) ∧
    Bitmap.findFirstZeroBit d.pairsIndexes ≠ hweMaxPairs ∧
    findPair d.pairList q.req q.req.length = none ∧ env.sysfsCreateFile = none

theorem addPair_added {env : AddPairEnv w} {str : List UInt8} {idx : Nat}
    (hrun : addPair HZ env str (some d) k = .ok (.added idx, k')) :
    ∃ mem q, env.kmalloc = some mem ∧
      strToPair HZ str { mem with addr := k.heap.next } = .ok (.ok q) ∧
      Bitmap.findFirstZeroBit d.pairsIndexes ≠ hweMaxPairs ∧
      findPair d.pairList q.req q.req.length = none ∧ env.sysfsCreateFile = none := by
  unfold addPair at hrun
  cases hmem : env.kmalloc with
  | none => simp [hmem] at hrun
  | some mem =>
      rw [hmem] at hrun
      obtain ⟨parsed, hparse, hrun⟩ := Except.bind_eq_ok_iff.mp hrun
      cases parsed with
      | error err => simp at hrun
      | ok q =>
          dsimp only at hrun
          split at hrun
          · simp at hrun
          · rename_i hroom
            cases hfind : findPair d.pairList q.req q.req.length with
            | some p => simp [hfind] at hrun
            | none =>
                rw [hfind] at hrun
                cases hcreate : env.sysfsCreateFile with
                | some err => simp [hcreate] at hrun
                | none => exact ⟨mem, q, rfl, hparse, hroom, hfind, rfl⟩

/-- What an addition returns says whether the checks passed. -/
theorem hweAddPair_adds (h : StoreInv k) {iface : HweIface} {devIndex : Int} {pairStr : List UInt8}
    {env : AddPairEnv w} (hrun : hweAddPair HZ iface devIndex pairStr env k = .ok (ret, k')) :
    (k.Adds HZ iface devIndex pairStr env ∧ 0 ≤ ret ∧ ret ≤ hweMaxPairs ∧
        ∃ d p, d ∈ k.devs ∧ Changed (.addPair d.addr p) k k') ∨
      (¬k.Adds HZ iface devIndex pairStr env ∧ ret < 0 ∧ -4095 ≤ ret ∧ Changed .keep k k') := by
  have hge := hweAddPair_ge hrun
  cases hfind : findDeviceByIndex iface devIndex k with
  | none =>
      obtain ⟨hneg, hkeep⟩ := hweAddPair_missing h hfind hrun
      refine Or.inr ⟨?_, hneg, hge, hkeep⟩
      rintro ⟨d, _, _, hfound, _⟩
      rw [hfind] at hfound
      simp at hfound
  | some d =>
      obtain ⟨k₀, k₁, h₀, hifaces, hheap, hbody, hunlock⟩ := withLock_changed h hrun
      have hfind₀ : findDeviceByIndex iface devIndex k₀ = some d := by
        rw [findDeviceByIndex_congr hifaces, hfind]
      have hd := (findDeviceByIndex_some hfind₀).1
      rw [hfind₀] at hbody
      obtain ⟨⟨r, k₂⟩, hadd, hret⟩ := Except.bind_eq_ok_iff.mp hbody
      obtain ⟨rfl, rfl⟩ := Prod.mk.inj (Except.ok.inj hret)
      rcases addPair_changed h₀ hd hadd with ⟨mem, q, _, _, rfl, hchanged⟩ | ⟨hne, hkeep⟩
      · obtain ⟨mem', q', hmem, hparse, hroom, hunmatched, hcreate⟩ := addPair_added hadd
        rw [hheap] at hparse
        refine Or.inl ⟨⟨d, mem', q', hfind, hmem, hparse, hroom, hunmatched, hcreate⟩, ?_, ?_, d, _,
          mem_devs_congr hifaces.symm hd, hunlock _ hchanged⟩
        · exact Int.natCast_nonneg _
        · exact Int.ofNat_le.mpr (Bitmap.findFirstZeroBit_le d.pairsIndexes)
      · refine Or.inr ⟨?_, ioctlRet_neg hne, hge, hunlock _ hkeep⟩
        rintro ⟨d', mem, q, hfound, hmem, hparse, hroom, hunmatched, hcreate⟩
        obtain rfl : d = d' := Option.some.inj (hfind.symm.trans hfound)
        rw [← hheap] at hparse
        obtain ⟨idx, hadded⟩ := (addPair_added_iff hmem hcreate hparse hadd).mpr ⟨hroom, hunmatched⟩
        exact hne idx hadded

/-! ### The command that writes a pair -/

/-- What the text of a structure in user memory is copied to. -/
def HweioctlPair.text (hp : HweioctlPair) : List UInt8 := hp.pair.take hweMaxPairStr ++ [0]

/-- How a call of the command can end. -/
inductive WriteEnd (HZ : Nat) (hp : HweioctlPair) (env : IoctlEnv w) (k : Kernel w) (ret : Int) :
    Kernel w → Prop
  | early : ret < 0 → env.getDeviceId = false ∨ parseDevid (toSizeT hp.deviceId.toInt) = none ∨
      env.kmalloc = false → WriteEnd HZ hp env k ret k
  | uncopied (ifc : HweIface) (devIdx : Nat) : env.getDeviceId = true →
      parseDevid (toSizeT hp.deviceId.toInt) = some (ifc, devIdx) → env.kmalloc = true →
      env.copyFromUser = false → ret = -efault → WriteEnd HZ hp env k ret k.alloc.2
  | tried (ifc : HweIface) (devIdx : Nat) (r : Int) (k₁ : Kernel w) : env.getDeviceId = true →
      parseDevid (toSizeT hp.deviceId.toInt) = some (ifc, devIdx) → env.kmalloc = true →
      env.copyFromUser = true →
      hweAddPair HZ ifc devIdx hp.text env.addPair k.alloc.2 = .ok (r, k₁) →
      (ret = if toInt r < 0 then toInt r else if env.putPairIndex then 0 else -efault) →
      WriteEnd HZ hp env k ret (k₁.kfree k.alloc.1)

theorem ioctlWritePair_end (hrun : ioctlWritePair HZ hp env k = .ok ((ret, hp'), k')) :
    WriteEnd HZ hp env k ret k' := by
  unfold ioctlWritePair at hrun
  split at hrun
  · rename_i hget
    obtain ⟨hpair, rfl⟩ := Prod.mk.inj (Except.ok.inj hrun)
    obtain ⟨rfl, _⟩ := Prod.mk.inj hpair
    exact .early (by decide) (Or.inl (by simpa using hget))
  · rename_i hget
    split at hrun
    · rename_i hid
      obtain ⟨hpair, rfl⟩ := Prod.mk.inj (Except.ok.inj hrun)
      obtain ⟨rfl, _⟩ := Prod.mk.inj hpair
      exact .early (by decide) (Or.inr (Or.inl hid))
    · rename_i ifc devIdx hid
      have hget' : env.getDeviceId = true := by simpa using hget
      split at hrun
      · rename_i hkmalloc
        obtain ⟨hpair, rfl⟩ := Prod.mk.inj (Except.ok.inj hrun)
        obtain ⟨rfl, _⟩ := Prod.mk.inj hpair
        exact .early (by decide) (Or.inr (Or.inr (by simpa using hkmalloc)))
      · rename_i hkmalloc
        have hkmalloc' : env.kmalloc = true := by simpa using hkmalloc
        dsimp only at hrun
        split at hrun
        · rename_i hcopy
          obtain ⟨hpair, rfl⟩ := Prod.mk.inj (Except.ok.inj hrun)
          obtain ⟨rfl, _⟩ := Prod.mk.inj hpair
          exact .uncopied ifc devIdx hget' hid hkmalloc' (by simpa using hcopy) rfl
        · rename_i hcopy
          have hcopy' : env.copyFromUser = true := by simpa using hcopy
          obtain ⟨⟨r, k₁⟩, hadd, hrun⟩ := Except.bind_eq_ok_iff.mp hrun
          dsimp only at hrun
          split at hrun
          · rename_i hneg
            obtain ⟨hpair, rfl⟩ := Prod.mk.inj (Except.ok.inj hrun)
            obtain ⟨rfl, _⟩ := Prod.mk.inj hpair
            exact .tried ifc devIdx r k₁ hget' hid hkmalloc' hcopy' hadd (if_pos hneg).symm
          · rename_i hpos
            split at hrun
            · rename_i hput
              obtain ⟨hpair, rfl⟩ := Prod.mk.inj (Except.ok.inj hrun)
              obtain ⟨rfl, _⟩ := Prod.mk.inj hpair
              refine .tried ifc devIdx r k₁ hget' hid hkmalloc' hcopy' hadd ?_
              rw [if_neg hpos, if_neg (by simpa using hput)]
            · rename_i hput
              obtain ⟨hpair, rfl⟩ := Prod.mk.inj (Except.ok.inj hrun)
              obtain ⟨rfl, _⟩ := Prod.mk.inj hpair
              refine .tried ifc devIdx r k₁ hget' hid hkmalloc' hcopy' hadd ?_
              rw [if_neg hpos, if_pos (by simpa using hput)]

/-! ### What a call leaves behind -/

/-- The call left the lists and bitmaps as they were if it returned an error, and left no block over
that it took. -/
structure CleanReturn (k : Kernel w) (ret : Int) (k' : Kernel w) : Prop where
  unchanged : ret < 0 → k'.ifaces = k.ifaces
  freed : ∀ a, k.heap.next ≤ a → a < k'.heap.next → a ∈ k'.ledger.owned ∨ a ∈ k'.heap.freed

/-- The command has a buffer for the text, and cannot copy the text to it or cannot copy the index of
the pair it added to user memory. -/
def WriteSlips (HZ : Nat) (hp : HweioctlPair) (env : IoctlEnv w) (k : Kernel w) : Prop :=
  env.getDeviceId = true ∧ env.kmalloc = true ∧
    ∃ ifc devIdx, parseDevid (toSizeT hp.deviceId.toInt) = some (ifc, devIdx) ∧
      (env.copyFromUser = false ∨
        env.copyFromUser = true ∧ k.alloc.2.Adds HZ ifc devIdx hp.text env.addPair ∧
          env.putPairIndex = false)

theorem CleanReturn.of_balanced (hunchanged : ret < 0 → k'.ifaces = k.ifaces)
    (hbalanced : Ledger.Balanced 0 k.ledger k'.ledger) : CleanReturn k ret k' := by
  refine ⟨hunchanged, ?_⟩
  intro a hlow hhigh
  rcases hbalanced.handed_out hlow hhigh with howned | hfreed | hlost
  · exact Or.inl howned
  · exact Or.inr hfreed
  · exact absurd hlost (Multiset.notMem_zero a)

/-- A list with one more pair is another list. -/
theorem Changed.addPair_ne {p : Pair w} (h : StoreInv k) (hd : d ∈ k.devs)
    (hc : Changed (.addPair d.addr p) k k') : k'.ifaces ≠ k.ifaces := by
  intro hsame
  have hmem : d.addPair p ∈ k.devs := mem_devs_congr hsame.symm (hc.mem_addPair hd)
  have heq : d.addPair p = d := h.devAddr _ hmem d hd rfl
  have hlength := congrArg (fun d : Dev w => d.pairList.length) heq
  simp [Dev.addPair] at hlength

theorem ioctlWritePair_clean_iff (h : StoreInv k) (hsound : k.ledger.Sound)
    (hrun : ioctlWritePair HZ hp env k = .ok ((ret, hp'), k')) :
    CleanReturn k ret k' ↔ ¬WriteSlips HZ hp env k := by
  have hsmall : ∀ {n : Int}, -4095 ≤ n → n ≤ hweMaxPairs → toInt n = n := by
    intro n hlow hhigh
    have hmax : (hweMaxPairs : Int) = 1000 := rfl
    exact Int.bmod_eq_of_le (by omega) (by omega)
  have haccounted := @Accounted.ioctlWritePair w HZ k h hp env
  cases ioctlWritePair_end hrun with
  | early hneg hstop =>
      refine iff_of_true ⟨fun _ => rfl, fun a hlow hhigh => absurd hhigh (not_lt.mpr hlow)⟩ ?_
      rintro ⟨hget, hkmalloc, ifc, devIdx, hid, _⟩
      rcases hstop with hget' | hid' | hkmalloc'
      · simp [hget] at hget'
      · simp [hid] at hid'
      · simp [hkmalloc] at hkmalloc'
  | uncopied ifc devIdx hget hid hkmalloc hcopy hret =>
      refine iff_of_false ?_ (not_not.mpr ⟨hget, hkmalloc, ifc, devIdx, hid, Or.inl hcopy⟩)
      intro hclean
      have hlost := (Ledger.Balanced.alloc k.ledger).lost_notMem hsound (Multiset.mem_singleton_self _)
      rcases hclean.freed k.heap.next le_rfl (Nat.lt_succ_self _) with howned | hfreed
      · exact hlost.1 howned
      · exact hlost.2 hfreed
  | tried ifc devIdx r k₁ hget hid hkmalloc hcopy hadd hret =>
      have halloc : StoreInv k.alloc.2 := h.congr rfl (Nat.le_succ _)
      have hbalanced := (haccounted (fun _ => hcopy) _ _ hrun).balanced
      rcases hweAddPair_adds halloc hadd with
        ⟨hadds, hpos, hle, d, p, hd, hchanged⟩ | ⟨hadds, hneg, hge, hkeep⟩
      · rw [hsmall (by omega) hle, if_neg (not_lt.mpr hpos)] at hret
        cases hput : env.putPairIndex with
        | true =>
            rw [hput, if_pos rfl] at hret
            refine iff_of_true (.of_balanced ?_ hbalanced) ?_
            · intro hneg
              omega
            · rintro ⟨_, _, ifc', devIdx', _, hcopy' | ⟨_, _, hput'⟩⟩
              · simp [hcopy] at hcopy'
              · simp [hput] at hput'
        | false =>
            rw [hput, if_neg (by decide)] at hret
            refine iff_of_false ?_ (not_not.mpr
              ⟨hget, hkmalloc, ifc, devIdx, hid, Or.inr ⟨hcopy, hadds, hput⟩⟩)
            intro hclean
            have hneg : ret < 0 := by
              rw [hret]
              decide
            exact hchanged.addPair_ne halloc hd (hclean.unchanged hneg)
      · refine iff_of_true (.of_balanced (fun _ => hkeep.ifaces) hbalanced) ?_
        rintro ⟨_, _, ifc', devIdx', hid', hcopy' | ⟨_, hadds', _⟩⟩
        · simp [hcopy] at hcopy'
        · obtain ⟨rfl, rfl⟩ := Prod.mk.inj (Option.some.inj (hid.symm.trans hid'))
          exact hadds hadds'

/-! ### The other commands -/

theorem hweAddDevice_error (h : StoreInv k) {iface : HweIface} {env : NewDevEnv}
    (hrun : hweAddDevice iface env k = .ok (ret, k')) :
    (0 ≤ ret ∧ ret ≤ hweMaxDevices) ∨ k'.ifaces = k.ifaces := by
  obtain ⟨k₀, k₁, h₀, _, _, hbody, hunlock⟩ := withLock_changed h hrun
  obtain ⟨⟨r, k₂⟩, hnew, hret⟩ := Except.bind_eq_ok_iff.mp hbody
  obtain ⟨hval, rfl⟩ := Prod.mk.inj (Except.ok.inj hret)
  obtain ⟨r', k₂', hnew', hcases⟩ := newDev_changed h₀ env iface
  obtain ⟨rfl, rfl⟩ := Prod.mk.inj (Except.ok.inj (hnew.symm.trans hnew'))
  rcases hcases with ⟨_, hkeep⟩ | ⟨d, rfl, _, hadd⟩
  · exact Or.inr (hunlock _ hkeep).ifaces
  · refine Or.inl ?_
    obtain ⟨_, _, _, _, _, _, hindex⟩ := hadd.allowed
    dsimp only at hval
    rw [← hval, hindex]
    exact ⟨Int.natCast_nonneg _, Int.ofNat_le.mpr (Bitmap.findFirstZeroBit_le _)⟩

theorem hweDeleteDevice_error (h : StoreInv k) {iface : HweIface} {devIndex : Int}
    (hrun : hweDeleteDevice iface devIndex k = .ok (ret, k')) : ret = 0 ∨ k'.ifaces = k.ifaces := by
  obtain ⟨k₀, k₁, h₀, _, _, hbody, hunlock⟩ := withLock_changed h hrun
  cases hfind : findDeviceByIndex iface devIndex k₀ with
  | none =>
      rw [hfind] at hbody
      obtain ⟨_, rfl⟩ := Prod.mk.inj (Except.ok.inj hbody)
      exact Or.inr (hunlock _ (Changed.refl k₀)).ifaces
  | some d =>
      rw [hfind] at hbody
      obtain ⟨k₂, _, hret⟩ := Except.bind_eq_ok_iff.mp hbody
      exact Or.inl (Prod.mk.inj (Except.ok.inj hret)).1.symm

theorem makeDevid_nonneg (iface : HweIface) {idx : Int} (hlow : 0 ≤ idx) (hhigh : idx ≤ hweMaxDevices) :
    0 ≤ toInt (makeDevid iface idx) := by
  have hmax : (hweMaxDevices : Int) = 256 := rfl
  have hiface : (iface.toNat : Int) ≤ 3 := by
    cases iface <;> decide
  have hsmall : toInt (makeDevid iface idx) = makeDevid iface idx := by
    unfold makeDevid
    exact Int.bmod_eq_of_le (by omega) (by omega)
  rw [hsmall]
  unfold makeDevid
  omega

/-- An error of any command but the one that writes a pair leaves the lists and bitmaps alone. -/
theorem hwemuIoctl_unchanged (h : StoreInv k) {cmd arg : Nat} (hcode : IoctlCmd.ofCode cmd ≠ .writePair)
    (hrun : hwemuIoctl HZ cmd arg hp env k = .ok ((ret, hp'), k')) (hneg : ret < 0) :
    k'.ifaces = k.ifaces := by
  have hsame : ∀ {r : Int}, (.ok (r, k) : Except Fault (Int × Kernel w)) = .ok (ret, k') →
      k'.ifaces = k.ifaces := by
    intro r heq
    rw [(Prod.mk.inj (Except.ok.inj heq)).2]
  -- the commands whose structure in user memory stays as it is
  have hplain : ∀ {r : Except Fault (Int × Kernel w)}, (r >>= fun out => .ok ((out.1, hp), out.2)) =
      (.ok ((ret, hp'), k') : Except Fault ((Int × HweioctlPair) × Kernel w)) → r = .ok (ret, k') := by
    intro r hr
    obtain ⟨⟨ret₁, k₁⟩, hfirst, hret⟩ := Except.bind_eq_ok_iff.mp hr
    obtain ⟨hpair, rfl⟩ := Prod.mk.inj (Except.ok.inj hret)
    obtain ⟨rfl, _⟩ := Prod.mk.inj hpair
    exact hfirst
  unfold hwemuIoctl at hrun
  cases hcmd : IoctlCmd.ofCode cmd with
  | writePair => exact absurd hcmd hcode
  | readPair =>
      rw [hcmd] at hrun
      exact (ioctlReadPair_changed h hrun).ifaces
  | other =>
      rw [hcmd] at hrun
      rw [(Prod.mk.inj (Except.ok.inj hrun)).2]
  | addDevice =>
      rw [hcmd] at hrun
      have hadd := hplain hrun
      unfold ioctlAddDevice at hadd
      split at hadd
      · exact hsame hadd
      · rename_i iface _
        obtain ⟨⟨idx, k₁⟩, hdevice, hret⟩ := Except.bind_eq_ok_iff.mp hadd
        obtain ⟨hval, rfl⟩ := Prod.mk.inj (Except.ok.inj hret)
        rcases hweAddDevice_error h hdevice with ⟨hlow, hhigh⟩ | hkept
        · rw [if_neg (not_lt.mpr hlow)] at hval
          have hpos := makeDevid_nonneg iface hlow hhigh
          omega
        · exact hkept
  | uninstallDevice =>
      rw [hcmd] at hrun
      have hdelete := hplain hrun
      unfold ioctlDeleteDevice at hdelete
      split at hdelete
      · exact hsame hdelete
      · rcases hweDeleteDevice_error h hdelete with hzero | hkept
        · omega
        · exact hkept
  | pairCount =>
      rw [hcmd] at hrun
      have hcount := hplain hrun
      unfold ioctlPairCount at hcount
      split at hcount
      · exact hsame hcount
      · exact (hweGetPairCount_changed h hcount).ifaces
  | deletePair =>
      rw [hcmd] at hrun
      have hdelete := hplain hrun
      unfold ioctlDeletePair at hdelete
      split at hdelete
      · exact hsame hdelete
      · split at hdelete
        · exact hsame hdelete
        · split at hdelete
          · exact hsame hdelete
          · rcases hweDeletePair_cases h hdelete with ⟨_, _, _, _, hzero, _⟩ | ⟨_, _, hkeep⟩
            · omega
            · exact hkeep.ifaces
  | clearPairs =>
      rw [hcmd] at hrun
      have hclear := hplain hrun
      unfold ioctlClearPairs at hclear
      split at hclear
      · exact hsame hclear
      · rcases hweClearPairs_cases h hclear with ⟨_, _, hzero, _⟩ | ⟨_, _, hkeep⟩
        · omega
        · exact hkeep.ifaces

/-- **A failing ioctl changes nothing and a call keeps no buffer**, except for the two slips of the
command that writes a pair. -/
theorem ioctl_failures (hreach : SysReachable HZ k) {cmd arg : Nat}
    (hrun : hwemuIoctl HZ cmd arg hp env k = .ok ((ret, hp'), k')) :
    CleanReturn k ret k' ↔ ¬(IoctlCmd.ofCode cmd = .writePair ∧ WriteSlips HZ hp env k) := by
  have h := hreach.inv.1
  by_cases hcode : IoctlCmd.ofCode cmd = .writePair
  · have hwrite : ioctlWritePair HZ hp env k = .ok ((ret, hp'), k') := by
      unfold hwemuIoctl at hrun
      rwa [hcode] at hrun
    rw [ioctlWritePair_clean_iff h hreach.sound hwrite]
    simp [hcode]
  · refine iff_of_true ?_ (fun hslip => hcode hslip.1)
    refine .of_balanced (hwemuIoctl_unchanged h hcode hrun) ?_
    exact (Accounted.hwemuIoctl h arg (fun hcode' => absurd hcode' hcode) _ k' hrun).balanced

/-- The text `03=44` written to the device of `sampleOps`. -/
def sampleWrite (env : IoctlEnv 64) :
    Except Fault (Kernel 64 × (Int × HweioctlPair) × Kernel 64) := do
  let k ← execAll 250 sampleOps (Kernel.loaded 64)
  let (written, k') ← hwemuIoctl 250 (hweioctlMagic + 5) 0 (.ofText .i2c 0 (bytes "03=44")) env k
  return (k, written, k')

/-- The result and the indexes of the pairs before and after. -/
theorem sampleWrite_ok {env : IoctlEnv 64} {ret : Int} {before after : List (List Nat)}
    (h : (sampleWrite env).toOption.map (fun r => (r.2.1.1,
      (r.1.ifaces .i2c).devList.map (fun d => d.pairList.map (·.index)),
      (r.2.2.ifaces .i2c).devList.map fun d => d.pairList.map (·.index))) =
      some (ret, before, after)) :
    ∃ (k k' : Kernel 64) (hp' : HweioctlPair), SysReachable 250 k ∧
      hwemuIoctl 250 (hweioctlMagic + 5) 0 (.ofText .i2c 0 (bytes "03=44")) env k =
        .ok ((ret, hp'), k') ∧
      (k.ifaces .i2c).devList.map (fun d => d.pairList.map (·.index)) = before ∧
      (k'.ifaces .i2c).devList.map (fun d => d.pairList.map (·.index)) = after := by
  cases hrun : sampleWrite env with
  | error fault => simp [hrun, Except.toOption] at h
  | ok r =>
      obtain ⟨k, ⟨ret', hp'⟩, k'⟩ := r
      simp only [hrun, Except.toOption, Option.map_some, Option.some.injEq, Prod.mk.injEq] at h
      obtain ⟨rfl, hbefore, hafter⟩ := h
      obtain ⟨k₀, hops, hrest⟩ := Except.bind_eq_ok_iff.mp hrun
      obtain ⟨⟨written, k₁⟩, hwrite, hret⟩ := Except.bind_eq_ok_iff.mp hrest
      simp only [Except.pure_eq_ok, Except.ok.injEq, Prod.mk.injEq] at hret
      obtain ⟨rfl, rfl, rfl⟩ := hret
      exact ⟨k₀, k₁, hp', (Reachable.of_execAll hops).sys, hwrite, hbefore, hafter⟩

theorem ioctl_failures_applies : ∃ (k k' : Kernel 64) (hp' : HweioctlPair), SysReachable 250 k ∧
    hwemuIoctl 250 (hweioctlMagic + 5) 0 (.ofText .i2c 0 (bytes "03=44")) (.succeeds 64 0) k =
      .ok ((0, hp'), k') ∧ CleanReturn k 0 k' := by
  obtain ⟨k, k', hp', hreach, hrun, _⟩ := @sampleWrite_ok (.succeeds 64 0) 0 [[0, 1]] [[0, 1, 2]]
    (by decide +kernel)
  refine ⟨k, k', hp', hreach, hrun, (ioctl_failures hreach hrun).mpr ?_⟩
  rintro ⟨_, _, _, _, _, _, hcopy | ⟨_, _, hput⟩⟩
  · exact absurd hcopy (by decide)
  · exact absurd hput (by decide)

/-- The write of `03=44` fails with `-EFAULT`: once with the pair added, since its index could not be
copied to user memory, and once with a buffer left over, since the text could not be copied from it. -/
theorem failed_writes_slip :
    (∃ (k k' : Kernel 64) (hp' : HweioctlPair), SysReachable 250 k ∧
      hwemuIoctl 250 (hweioctlMagic + 5) 0 (.ofText .i2c 0 (bytes "03=44"))
        { IoctlEnv.succeeds 64 0 with putPairIndex := false } k = .ok ((-efault, hp'), k') ∧
      (k.ifaces .i2c).devList.map (fun d => d.pairList.map (·.index)) = [[0, 1]] ∧
      (k'.ifaces .i2c).devList.map (fun d => d.pairList.map (·.index)) = [[0, 1, 2]]) ∧
    ∃ (k k' : Kernel 64) (hp' : HweioctlPair), SysReachable 250 k ∧
      hwemuIoctl 250 (hweioctlMagic + 5) 0 (.ofText .i2c 0 (bytes "03=44"))
        { IoctlEnv.succeeds 64 0 with copyFromUser := false } k = .ok ((-efault, hp'), k') ∧
      k.heap.next < k'.heap.next ∧ k.heap.next ∉ k'.ledger.owned ∧ k.heap.next ∉ k'.heap.freed := by
  refine ⟨sampleWrite_ok (by decide +kernel), ?_⟩
  obtain ⟨k, k', hp', hreach, hrun, _⟩ := @sampleWrite_ok
    { IoctlEnv.succeeds 64 0 with copyFromUser := false } (-efault) [[0, 1]] [[0, 1]]
    (by decide +kernel)
  have hend := ioctlWritePair_end hrun
  obtain ⟨howned, hfreed⟩ := (Ledger.Balanced.alloc k.ledger).lost_notMem hreach.sound
    (Multiset.mem_singleton_self _)
  have hparsed : parseDevid (toSizeT (HweioctlPair.ofText .i2c 0 (bytes "03=44")).deviceId.toInt) =
      some (.i2c, 0) := by
    decide +kernel
  cases hend with
  | early _ hstop =>
      rcases hstop with hget | hid | hkmalloc
      · exact absurd hget (by decide)
      · rw [hparsed] at hid
        exact absurd hid (by simp)
      · exact absurd hkmalloc (by decide)
  | uncopied ifc devIdx _ _ _ _ _ =>
      exact ⟨k, k.alloc.2, hp', hreach, hrun, Nat.lt_succ_self _, howned, hfreed⟩
  | tried ifc devIdx r k₁ _ _ _ hcopy _ _ => exact absurd hcopy (by decide)

end Hwemu
