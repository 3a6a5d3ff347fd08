import Hwemu.Operations

/-!
# Operations on a device that does not exist

The operations that take a device index fail without touching the store when there is no such
device. The exception is `hwe_add_pair`: its check of the device pointer is not connected to the
checks that follow, so a text that parses makes it follow the null pointer.
-/

namespace Hwemu

variable {w : Nat} {k : Kernel w} {iface : HweIface} {devIndex : Int}

/-- The operation returns a negative error, with the lists and the locks as they were. -/
def FailsCleanly {α : Type} (k : Kernel w) (code : α → Int) (r : Except Fault (α × Kernel w)) : Prop :=
  ∃ ret k', r = .ok (ret, k') ∧ code ret < 0 ∧ k'.ifaces = k.ifaces ∧ k'.sems = k.sems

theorem FailsCleanly.of_changed {α : Type} {code : α → Int} {r : Except Fault (α × Kernel w)} {ret : α}
    {k' : Kernel w} (hrun : r = .ok (ret, k')) (hneg : code ret < 0) (h : Changed .keep k k') :
    FailsCleanly k code r :=
  ⟨ret, k', hrun, hneg, h.ifaces, h.sems⟩

/-- An operation that looks the device up under the lock and gives up. -/
theorem FailsCleanly.withLock {α : Type} {code : α → Int} {a : α}
    {body : Kernel w → Except Fault (α × Kernel w)} (hsem : k.sems iface ≠ 0)
    (hfind : findDeviceByIndex iface devIndex k = none) (hneg : code a < 0)
    (hbody : ∀ k' : Kernel w, findDeviceByIndex iface devIndex k' = none → body k' = .ok (a, k')) :
    FailsCleanly k code (withLock iface k body) := by
  have hlocked := hbody (k.setSem iface (k.sems iface - 1)) hfind
  have hrun := withLock_eq_ok.mpr ⟨hsem, _, hlocked, rfl⟩
  exact .of_changed hrun hneg (Changed.unlock hsem (Changed.refl _))

theorem hweGetPairCount_missing (hsem : k.sems iface ≠ 0)
    (hfind : findDeviceByIndex iface devIndex k = none) :
    FailsCleanly k id (hweGetPairCount iface devIndex k) := by
  refine FailsCleanly.withLock (a := -enodev) hsem hfind (by decide) ?_
  intro k' hnone
  rw [hnone]
  rfl

theorem hweGetPair_missing (hsem : k.sems iface ≠ 0)
    (hfind : findDeviceByIndex iface devIndex k = none) (pairIndex idx : Int) :
    FailsCleanly k Prod.fst (hweGetPair iface devIndex pairIndex idx k) := by
  refine FailsCleanly.withLock (a := (-enodev, none)) hsem hfind (by decide) ?_
  intro k' hnone
  rw [hnone]
  rfl

theorem hweDeletePair_missing (hsem : k.sems iface ≠ 0)
    (hfind : findDeviceByIndex iface devIndex k = none) (pairIndex : Int) :
    FailsCleanly k id (hweDeletePair iface devIndex pairIndex k) := by
  refine FailsCleanly.withLock (a := -enodev) hsem hfind (by decide) ?_
  intro k' hnone
  rw [hnone]
  rfl

theorem hweClearPairs_missing (hsem : k.sems iface ≠ 0)
    (hfind : findDeviceByIndex iface devIndex k = none) :
    FailsCleanly k id (hweClearPairs iface devIndex k) := by
  refine FailsCleanly.withLock (a := -enodev) hsem hfind (by decide) ?_
  intro k' hnone
  rw [hnone]
  rfl

theorem hweDeleteDevice_missing (hsem : k.sems iface ≠ 0)
    (hfind : findDeviceByIndex iface devIndex k = none) :
    FailsCleanly k id (hweDeleteDevice iface devIndex k) := by
  refine FailsCleanly.withLock (a := -enodev) hsem hfind (by decide) ?_
  intro k' hnone
  rw [hnone]
  rfl

/-- The text is rejected by the parser, whatever memory it is parsed into; or there is none. -/
def AddPairEnv.StopsEarly (HZ : Nat) (env : AddPairEnv w) (str : List UInt8) (addr : Nat) : Prop :=
  ∀ mem, env.kmalloc = some mem → ∃ err, strToPair HZ str { mem with addr := addr } = .ok (.error err)

/-- `hwe_add_pair` without a device fails cleanly exactly when it never gets to the device. -/
theorem hweAddPair_missing_iff (h : StoreInv k) (hsem : k.sems iface ≠ 0)
    (hfind : findDeviceByIndex iface devIndex k = none) (HZ : Nat) (pairStr : List UInt8)
    (env : AddPairEnv w) :
    FailsCleanly k id (hweAddPair HZ iface devIndex pairStr env k) ↔
      env.StopsEarly HZ (cstr pairStr) k.heap.next := by
  constructor
  · rintro ⟨ret, k', hrun, _⟩ mem hmem
    obtain ⟨k₀, k₁, _, hifaces, hheap, hbody, _⟩ := withLock_changed h hrun
    rw [← findDeviceByIndex_congr hifaces] at hfind
    rw [hfind] at hbody
    obtain ⟨⟨r, k₂⟩, hadd, _⟩ := Except.bind_eq_ok_iff.mp hbody
    unfold addPair at hadd
    rw [hmem] at hadd
    obtain ⟨parsed, hparse, hadd⟩ := Except.bind_eq_ok_iff.mp hadd
    cases parsed with
    | error err =>
        refine ⟨err, ?_⟩
        rw [← hheap]
        exact hparse
    | ok q => simp at hadd
  · intro hstop
    suffices hok : ∃ ret k', hweAddPair HZ iface devIndex pairStr env k = .ok (ret, k') by
      obtain ⟨ret, k', hrun⟩ := hok
      obtain ⟨hneg, hkeep⟩ := hweAddPair_missing h hfind hrun
      exact .of_changed hrun hneg hkeep
    have hlocked : findDeviceByIndex iface devIndex (k.setSem iface (k.sems iface - 1)) = none := hfind
    have hadd : ∃ r k₁, addPair HZ env (cstr pairStr) none (k.setSem iface (k.sems iface - 1)) =
        .ok (r, k₁) := by
      unfold addPair
      cases hmem : env.kmalloc with
      | none => exact ⟨_, _, rfl⟩
      | some mem =>
          obtain ⟨err, hparse⟩ := hstop mem hmem
          exact ⟨_, _, Except.bind_of_eq_ok hparse _⟩
    obtain ⟨r, k₁, hadd⟩ := hadd
    refine ⟨r.ioctlRet, unlockIfaceDevs iface k₁, withLock_eq_ok.mpr ⟨hsem, k₁, ?_, rfl⟩⟩
    rw [hlocked]
    exact Except.bind_of_eq_ok hadd _

/-- **A missing device.** Five of the operations always fail cleanly, and the sixth exactly when
memory is short or the text is rejected. -/
theorem missing_device {HZ : Nat} (h : Reachable HZ k)
    (hmissing : ∀ d ∈ (k.ifaces iface).devList, (d.index : Int) ≠ devIndex) (pairIndex idx : Int)
    (pairStr : List UInt8) (env : AddPairEnv w) :
    FailsCleanly k id (hweGetPairCount iface devIndex k) ∧
    FailsCleanly k Prod.fst (hweGetPair iface devIndex pairIndex idx k) ∧
    FailsCleanly k id (hweDeletePair iface devIndex pairIndex k) ∧
    FailsCleanly k id (hweClearPairs iface devIndex k) ∧
    FailsCleanly k id (hweDeleteDevice iface devIndex k) ∧
    (FailsCleanly k id (hweAddPair HZ iface devIndex pairStr env k) ↔
      env.StopsEarly HZ (cstr pairStr) k.heap.next) := by
  obtain ⟨hinv, hsems⟩ := h.inv
  have hsem : k.sems iface ≠ 0 := by
    rw [hsems iface]
    decide
  have hfind : findDeviceByIndex iface devIndex k = none := by
    apply List.find?_eq_none.mpr
    intro d hd
    simpa using hmissing d hd
  exact ⟨hweGetPairCount_missing hsem hfind, hweGetPair_missing hsem hfind pairIndex idx,
    hweDeletePair_missing hsem hfind pairIndex, hweClearPairs_missing hsem hfind,
    hweDeleteDevice_missing hsem hfind, hweAddPair_missing_iff hinv hsem hfind HZ pairStr env⟩

theorem Reachable.loaded (HZ w : Nat) : Reachable HZ (Kernel.loaded w) := ⟨[], .nil _⟩

theorem missing_device_applies :
    FailsCleanly (Kernel.loaded 64) id (hweGetPairCount .tty 0 (Kernel.loaded 64)) ∧
      FailsCleanly (Kernel.loaded 64) id
        (hweAddPair 250 .tty 0 (bytes "0011") (.succeeds 64) (Kernel.loaded 64)) := by
  have hnone : ∀ d ∈ ((Kernel.loaded 64).ifaces .tty).devList, (d.index : Int) ≠ 0 := fun d hd =>
    absurd hd List.not_mem_nil
  have hall := missing_device (Reachable.loaded 250 64) hnone 0 0 (bytes "0011") (.succeeds 64)
  refine ⟨hall.1, hall.2.2.2.2.2.mpr ?_⟩
  intro mem hmem
  obtain rfl : Pair.zeroed 64 = mem := Option.some.inj hmem
  exact ⟨"missing '='", by decide +kernel⟩

/-- In a module just loaded, the text `00=11` makes an addition to a device follow the null
pointer. -/
theorem add_to_missing_device_faults :
    hweAddPair 250 .tty 0 (bytes "00=11") (.succeeds 64) (Kernel.loaded 64) = .error .nullDeref ∧
      ¬FailsCleanly (Kernel.loaded 64) id
        (hweAddPair 250 .tty 0 (bytes "00=11") (.succeeds 64) (Kernel.loaded 64)) := by
  have hfault : hweAddPair 250 .tty 0 (bytes "00=11") (.succeeds 64) (Kernel.loaded 64) =
      .error .nullDeref := rfl
  refine ⟨hfault, ?_⟩
  rintro ⟨ret, k', hrun, _⟩
  rw [hfault] at hrun
  simp at hrun

end Hwemu
