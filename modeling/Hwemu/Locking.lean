import Hwemu.Accounts
import Hwemu.Lib.Threads

/-!
# Threads that hold the semaphores

What a statement of a thread does to the store: it takes or releases a semaphore, or works on the
interface whose semaphore it holds. An interface does not change while another thread holds its
semaphore.
-/

namespace Hwemu

variable {w : Nat} {HZ : Nat} {ι : Type} {k k' : Kernel w} {iface : HweIface}

theorem lockIfaceDevs_eq_ok :
    lockIfaceDevs iface k = .ok k' ↔ k.sems iface ≠ 0 ∧ k' = k.setSem iface (k.sems iface - 1) := by
  unfold lockIfaceDevs
  by_cases hsem : k.sems iface = 0
  · simp [hsem]
  · rw [if_neg hsem]
    exact ⟨fun h => ⟨hsem, (Except.ok.inj h).symm⟩, fun h => congrArg _ h.2.symm⟩

/-- A statement of a thread that holds the semaphore `held` before and `held'` afterwards. -/
structure Worked (held : Option HweIface) (k : Kernel w) (held' : Option HweIface) (k' : Kernel w) :
    Prop where
  inv : StoreInv k'
  sems : SemStep k.sems held k'.sems held'
  frame : ∀ iface, held ≠ some iface → k'.ifaces iface = k.ifaces iface

namespace Worked

theorem rest {held : Option HweIface} (h : StoreInv k) : Worked held k held k :=
  ⟨h, .rest held, fun _ _ => rfl⟩

theorem lock (h : StoreInv k) (hlock : lockIfaceDevs iface k = .ok k') :
    Worked none k (some iface) k' := by
  obtain ⟨hsem, rfl⟩ := lockIfaceDevs_eq_ok.mp hlock
  exact ⟨h.setSem _ _, .down iface hsem, fun _ _ => rfl⟩

theorem unlock (h : StoreInv k) : Worked (some iface) k none (unlockIfaceDevs iface k) :=
  ⟨h.setSem _ _, .up iface, fun _ _ => rfl⟩

theorem work (h : Tidy (· = iface) k k') : Worked (some iface) k (some iface) k' := by
  refine ⟨h.inv, ?_, ?_⟩
  · rw [h.sems]
    exact .rest _
  · intro j hj
    exact h.frame j fun heq => hj (congrArg some heq.symm)

end Worked

/-- The store beside threads of which `held` says what they hold. -/
structure Guarded (held : ι → Option HweIface) (k : Kernel w) : Prop where
  store : StoreInv k
  excl : Exclusive k.sems held

namespace Guarded

variable {held : ι → Option HweIface} {i j : ι} {held' : Option HweIface}

theorem init (hreach : SysReachable HZ k) (hheld : ∀ i, held i = none) : Guarded held k :=
  ⟨hreach.inv.1, .init hreach.inv.2 hheld⟩

theorem move [DecidableEq ι] {σ τ : Type} {s : Threads ι σ τ} {out : σ × τ}
    {holds : τ → Option HweIface} (h : Guarded (fun j => holds (s.thread j)) k)
    (hwork : Worked (holds (s.thread i)) k (holds out.2) k') :
    Guarded (fun j => holds ((s.move i out).thread j)) k' :=
  ⟨hwork.inv, h.excl.move hwork.sems⟩

theorem orderly (h : Guarded held k) (ho : Orderly k k') : Guarded held k' := by
  refine ⟨ho.inv, ?_⟩
  rw [ho.sems]
  exact h.excl

/-- Another thread leaves an interface alone whose semaphore is held. -/
theorem frame (h : Guarded held k) (hwork : Worked (held i) k held' k') (hj : held j = some iface)
    (hne : j ≠ i) : k'.ifaces iface = k.ifaces iface :=
  hwork.frame iface fun hi => hne (h.excl.unique j i iface hj hi)

/-- So does an operation or a tick. -/
theorem frame_orderly (h : Guarded held k) (ho : Orderly k k') (hj : held j = some iface) :
    k'.ifaces iface = k.ifaces iface :=
  ho.frame iface (h.excl.taken j iface hj)

end Guarded

end Hwemu
