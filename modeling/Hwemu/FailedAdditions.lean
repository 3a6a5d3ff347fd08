import Hwemu.ConfigStore

/-!
# Additions that fail

An addition that returns a negative number has left the lists and the bitmaps as they were, and all memory
it took, the record of the candidate among it, was given back once.
-/

namespace Hwemu

variable {w : Nat} {HZ : Nat} {k k' : Kernel w} {ret : Int} {iface : HweIface}

/-- The additions of a device, and those of a pair to a device that exists. -/
def Op.Adds (k : Kernel w) : Op w → Prop
  | ifaceAddStore _ _ _ => True
  | hweAddDevice _ _ => True
  | devAddStore _ _ _ => True
  | hweAddPair iface devIndex _ _ => (findDeviceByIndex iface devIndex k).isSome = true
  | _ => False

/-- No more bytes are written to the file `add` of an interface than an `int` counts. -/
def Op.Counts : Op w → Prop
  | ifaceAddStore _ buf _ => buf.length ≤ intMax
  | _ => True

/-- A device that was not added. -/
theorem newDev_keep (h : StoreInv k) {env : NewDevEnv} (hrun : newDev env iface k = .ok (none, k')) :
    Changed .keep k k' := by
  obtain ⟨r, k₁, hnew, hcases⟩ := newDev_changed h env iface
  obtain ⟨rfl, rfl⟩ := Prod.mk.inj (Except.ok.inj (hnew.symm.trans hrun))
  rcases hcases with ⟨_, hkeep⟩ | ⟨d, hsome, _⟩
  · exact hkeep
  · exact absurd hsome.symm (Option.some_ne_none d)

/-- An addition of a device under the lock, with what it returns. -/
theorem lockedNewDev_keep (h : StoreInv k) (env : NewDevEnv) {body : Kernel w → Except Fault (Int × Kernel w)}
    (hbody : ∀ k₀ k₁, body k₀ = .ok (ret, k₁) → newDev env iface k₀ = .ok (none, k₁) ∨ 0 ≤ ret)
    (hrun : withLock iface k body = .ok (ret, k')) (hret : ret < 0) : Changed .keep k k' := by
  obtain ⟨k₀, k₁, h₀, _, _, hlocked, hunlock⟩ := withLock_changed h hrun
  rcases hbody k₀ k₁ hlocked with hnone | hpos
  · exact hunlock _ (newDev_keep h₀ hnone)
  · exact absurd hpos (not_le_of_gt hret)

theorem hweAddDevice_keep (h : StoreInv k) {env : NewDevEnv} (hrun : hweAddDevice iface env k = .ok (ret, k'))
    (hret : ret < 0) : Changed .keep k k' := by
  refine lockedNewDev_keep h env (fun k₀ k₁ hbody => ?_) hrun hret
  obtain ⟨⟨r, k₂⟩, hnew, hpure⟩ := Except.bind_eq_ok_iff.mp hbody
  obtain ⟨hval, rfl⟩ := Prod.mk.inj (Except.ok.inj hpure)
  clear hpure
  cases r with
  | none => exact Or.inl hnew
  | some d => exact Or.inr (hval ▸ Int.natCast_nonneg d.index)

theorem ifaceAddStore_keep (h : StoreInv k) {buf : List UInt8} {env : NewDevEnv} (hcount : buf.length ≤ intMax)
    (hrun : ifaceAddStore iface buf env k = .ok (ret, k')) (hret : ret < 0) : Changed .keep k k' := by
  unfold ifaceAddStore at hrun
  split at hrun
  · obtain ⟨_, rfl⟩ := Prod.mk.inj (Except.ok.inj hrun)
    exact Changed.refl k
  · rw [strToIface_ifaceToStr] at hrun
    refine lockedNewDev_keep h env (fun k₀ k₁ hbody => ?_) hrun hret
    obtain ⟨⟨r, k₂⟩, hnew, hpure⟩ := Except.bind_eq_ok_iff.mp hbody
    obtain ⟨hval, rfl⟩ := Prod.mk.inj (Except.ok.inj hpure)
    clear hpure
    cases r with
    | none => exact Or.inl hnew
    | some d => exact Or.inr (hval ▸ toInt_nonneg hcount)

/-- **An addition that fails changes nothing.** -/
theorem exec_keep (h : StoreInv k) {op : Op w} (hadds : op.Adds k) (hcounts : op.Counts)
    (hrun : exec HZ op k = .ok (ret, k')) (hret : ret < 0) : Changed .keep k k' ∧ Ledger.Balanced 0 k.ledger k'.ledger := by
  cases op with
  | ifaceAddStore iface buf env =>
      exact ⟨ifaceAddStore_keep h hcounts hrun hret, (Accounted.ifaceAddStore h iface buf env ret k' hrun).balanced⟩
  | hweAddDevice iface env =>
      exact ⟨hweAddDevice_keep h hrun hret, (Accounted.hweAddDevice h iface env ret k' hrun).balanced⟩
  | devAddStore dev buf env =>
      have haccounted := (Accounted.devAddStore h dev buf env ret k' hrun).balanced
      obtain ⟨d, hderef, _⟩ := Except.bind_eq_ok_iff.mp hrun
      obtain ⟨hd, rfl⟩ := deref_eq_ok hderef
      rcases devAddStore_cases h hd hrun with ⟨_, _, _, _, hval, _⟩ | ⟨_, hkeep⟩
      · exact absurd (hval ▸ Int.natCast_nonneg buf.length) (not_le_of_gt hret)
      · exact ⟨hkeep, haccounted⟩
  | hweAddPair iface devIndex pairStr env =>
      have haccounted := (Accounted.hweAddPair h iface devIndex pairStr env ret k' hrun).balanced
      obtain ⟨d, hfind⟩ := Option.isSome_iff_exists.mp hadds
      rcases hweAddPair_cases h hfind hrun with ⟨_, q, _, _, hval, _⟩ | ⟨_, hkeep⟩
      · exact absurd (hval ▸ Int.natCast_nonneg (q.placed d).index) (not_le_of_gt hret)
      · exact ⟨hkeep, haccounted⟩
  | _ => exact absurd hadds id

/-- **A failed addition leaves the store as it was**: every list, in its order, and every bitmap; the lock
is free, and each block of memory that was taken is given back once. -/
theorem failed_addition (hreach : SysReachable HZ k) {op : Op w} (hadds : op.Adds k) (hcounts : op.Counts)
    (hrun : exec HZ op k = .ok (ret, k')) (hret : ret < 0) :
    k'.ifaces = k.ifaces ∧ (∀ iface, k'.sems iface = 1) ∧
      ∀ a, k'.heap.freed.count a =
        if k.heap.next ≤ a ∧ a < k'.heap.next then 1 else k.heap.freed.count a := by
  obtain ⟨hinv, hsems⟩ := hreach.inv
  obtain ⟨hkeep, hbalanced⟩ := exec_keep hinv hadds hcounts hrun hret
  refine ⟨hkeep.ifaces, fun iface => ?_, fun a => ?_⟩
  · rw [hkeep.sems]
    exact hsems iface
  · have hfreed := hbalanced.freed_eq (Kernel.owned_congr hkeep.ifaces)
    have hcount : k'.heap.freed.count a =
        k.heap.freed.count a + (Multiset.Ico k.heap.next k'.heap.next).count a := by
      have hboth := congrArg (Multiset.count a) hfreed
      rw [Multiset.count_add] at hboth
      simpa only [Kernel.ledger, Multiset.coe_count] using hboth
    rw [hcount]
    by_cases hnew : k.heap.next ≤ a ∧ a < k'.heap.next
    · have hold : a ∉ k.heap.freed := by
        intro hmem
        have hlt := hreach.sound.lt a (Multiset.mem_add.mpr (Or.inr hmem))
        exact absurd hlt (not_lt_of_ge hnew.1)
      rw [if_pos hnew, List.count_eq_zero_of_not_mem hold,
        Multiset.count_eq_one_of_mem (Multiset.nodup_Ico) (Multiset.mem_Ico.mpr hnew)]
    · rw [if_neg hnew, Multiset.count_eq_zero_of_notMem fun hmem => hnew (Multiset.mem_Ico.mp hmem), add_zero]

/-- A device is added, and the caller is told that it failed: the bytes written are too many for the `int` that
counts them. -/
theorem long_addition_denied : ∃ (k k' : Kernel 64) (op : Op 64) (ret : Int), SysReachable 250 k ∧ op.Adds k ∧
    exec 250 op k = .ok (ret, k') ∧ ret < 0 ∧ k'.ifaces ≠ k.ifaces := by
  let buf : List UInt8 := List.replicate (2 ^ 31) 0
  have hlen : buf.length = 2 ^ 31 := List.length_replicate
  have hbuf : buf.length ≠ 0 := by
    rw [hlen]
    decide
  obtain ⟨k', hrun, hholds⟩ : ∃ k', ifaceAddStore .tty buf .succeeds (Kernel.loaded 64) = .ok (toInt buf.length, k') ∧
      k'.Holds 250 (Contents.addDev .tty fun _ => []) :=
    (Kernel.Holds.loaded 64 250).ifaceAddStore (by decide) hbuf
  refine ⟨Kernel.loaded 64, k', .ifaceAddStore .tty buf .succeeds, _, ?_, trivial, hrun, ?_, fun heq => ?_⟩
  · exact Reachable.sys ⟨[], .nil _⟩
  · rw [hlen]
    decide
  · have hindexes := hholds.indexes .tty
    rw [heq] at hindexes
    exact absurd hindexes.length_eq (by decide)

/-- A device whose directory cannot be created, after `sampleOps`. -/
def sampleRefusal : Op 64 :=
  .hweAddDevice .i2c { NewDevEnv.succeeds with kobjectInitAndAdd := some Errno.enomem }

theorem sampleRefusal_run : ∃ (k k' : Kernel 64) (ret : Int), SysReachable 250 k ∧
    exec 250 sampleRefusal k = .ok (ret, k') ∧ ret < 0 := by
  obtain ⟨k, hops, _⟩ := sampleOps_run
  have hnegative : ((execAll 250 sampleOps (Kernel.loaded 64) >>= exec 250 sampleRefusal).toOption.map
      fun r => decide (r.1 < 0)) = some true := by
    decide +kernel
  rw [hops, Except.ok_bind] at hnegative
  obtain ⟨⟨ret, k'⟩, hsome, hret⟩ := Option.map_eq_some_iff.mp hnegative
  exact ⟨k, k', ret, (Reachable.of_execAll hops).sys, Except.eq_ok_of_toOption hsome, of_decide_eq_true hret⟩

theorem failed_addition_applies : ∃ k k' : Kernel 64, SysReachable 250 k ∧
    k'.ifaces = k.ifaces ∧ (∀ iface, k'.sems iface = 1) ∧
      ∀ a, k'.heap.freed.count a =
        if k.heap.next ≤ a ∧ a < k'.heap.next then 1 else k.heap.freed.count a := by
  obtain ⟨k, k', ret, hreach, hrun, hret⟩ := sampleRefusal_run
  have hadds : sampleRefusal.Adds k := trivial
  exact ⟨k, k', hreach, failed_addition hreach hadds trivial hrun hret⟩

end Hwemu
