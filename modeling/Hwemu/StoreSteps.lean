import Hwemu.Ioctl
import Hwemu.StoreInvariant
import Hwemu.Lib.Except
import Hwemu.Lib.Run

/-!
# What the store operations do

One lemma for each function of the store: in a state that satisfies the invariant it makes a single
allowed change, or none. The lemmas for the operations follow, and from them the invariant of every
state that a sequence of operations can reach.
-/

namespace Hwemu

variable {w : Nat} {k k' k'' : Kernel w} {d : Dev w} {p : Pair w}

/-! ### Composing changes -/

theorem Kernel.modifyDev_modifyDev {a : Nat} {f g : Dev w → Dev w} (hf : ∀ d, (f d).addr = d.addr) :
    (k.modifyDev a f).modifyDev a g = k.modifyDev a (g ∘ f) := by
  simp only [Kernel.modifyDev, List.map_map, Kernel.mk.injEq, and_true]
  funext iface
  congr 1
  apply List.map_congr_left
  intro d _
  by_cases heq : d.addr = a
  · rw [Function.comp_apply, if_pos heq, if_pos ((hf d).trans heq), if_pos heq, Function.comp_apply]
  · rw [Function.comp_apply, if_neg heq, if_neg heq, if_neg heq]

theorem Kernel.ifaces_modifyDev_congr {a : Nat} {f : Dev w → Dev w} (h : k.ifaces = k'.ifaces) :
    (k.modifyDev a f).ifaces = (k'.modifyDev a f).ifaces := by
  simp only [Kernel.modifyDev, h]

/-- A write that leaves the device as it is leaves the store as it is. -/
theorem StoreInv.modifyDev_eq (h : StoreInv k) (hd : d ∈ k.devs) {f : Dev w → Dev w} (hf : f d = d) :
    k.modifyDev d.addr f = k := by
  have hmap : ∀ iface, ((k.ifaces iface).devList.map fun d' => if d'.addr = d.addr then f d' else d') =
      (k.ifaces iface).devList := by
    intro iface
    refine (List.map_congr_left ?_).trans (List.map_id _)
    intro d' hd'
    by_cases heq : d'.addr = d.addr
    · rw [if_pos heq, h.devAddr d' (Kernel.mem_devs_of_mem hd') d hd heq, hf]
      rfl
    · rw [if_neg heq]
      rfl
  simp only [Kernel.modifyDev, hmap]

/-! ### Deleting pairs -/

theorem pairDelete_changed (h : StoreInv k) (hd : d ∈ k.devs) (hp : p ∈ d.pairList) :
    ∃ k', pairDelete d.addr p k = .ok k' ∧ Changed (.removePair d.addr p) k k' := by
  have howner : k.deref p.dev = .ok d := by
    rw [(h.ok d hd).owner p hp]
    exact h.deref_eq hd
  unfold pairDelete
  rw [howner]
  refine ⟨_, rfl, ?_, rfl, le_rfl, d, hd, rfl, hp⟩
  have hcompose := @Kernel.modifyDev_modifyDev w k d.addr
    (fun d => { d with pairsIndexes := Bitmap.clearBit p.index d.pairsIndexes })
    (fun d => { d with pairList := d.pairList.filter fun q => q.addr ≠ p.addr }) fun _ => rfl
  have hifaces := congrArg Kernel.ifaces hcompose
  exact hifaces

/-- The loop of `clear_pairs`, by induction on the pairs that are left. -/
theorem clearPairs_changed (h : StoreInv k) (hd : d ∈ k.devs) :
    ∃ k', clearPairs d k = .ok k' ∧ Changed (.clearPairs d.addr) k k' := by
  unfold clearPairs
  generalize hps : d.pairList = ps
  induction ps generalizing k d with
  | nil =>
      have hbits : d.pairsIndexes = 0 := by
        have htracks := (h.ok d hd).indexes
        rw [hps] at htracks
        exact htracks.eq_zero
      have hsame : d.noPairs = d := by
        cases d
        simp_all [Dev.noPairs]
      refine ⟨k, rfl, ?_, rfl, le_rfl, d, hd, rfl⟩
      exact (congrArg Kernel.ifaces (h.modifyDev_eq hd hsame)).symm
  | cons p ps ih =>
      have hp : p ∈ d.pairList := by
        rw [hps]
        exact List.mem_cons_self
      obtain ⟨k₁, hdelete, hchanged⟩ := pairDelete_changed h hd hp
      have hmem : d.removePair p ∈ k₁.devs := by
        have heq : k₁.devs = (k.modifyDev d.addr fun d => d.removePair p).devs := by
          unfold Kernel.devs
          rw [hchanged.ifaces]
          rfl
        rw [heq]
        exact Kernel.mem_devs_modifyDev.mpr ⟨d, hd, if_pos rfl⟩
      have hrest : (d.removePair p).pairList = ps := by
        have hnodup := (h.ok d hd).addrs
        simp only [Dev.removePair, hps, List.map_cons, List.nodup_cons] at hnodup ⊢
        rw [List.filter_cons_of_neg (by simp)]
        apply List.filter_eq_self.mpr
        intro q hq
        have hne : q.addr ≠ p.addr := fun heq => hnodup.1 (heq ▸ List.mem_map_of_mem hq)
        simpa using hne
      obtain ⟨k₂, hloop, hcleared⟩ := ih (h.changed hchanged) hmem hrest
      refine ⟨k₂, ?_, ?_, hcleared.sems.trans hchanged.sems, hchanged.next.trans hcleared.next,
        d, hd, rfl⟩
      · rw [List.foldlM_cons, hdelete]
        exact hloop
      · rw [hcleared.ifaces]
        have hcompose := @Kernel.modifyDev_modifyDev w k d.addr (fun d => d.removePair p) Dev.noPairs
          fun _ => rfl
        exact (Kernel.ifaces_modifyDev_congr hchanged.ifaces).trans (congrArg Kernel.ifaces hcompose)

/-! ### Removing devices -/

/-- The lists, the semaphores and the allocator do not notice that a private device is destroyed. -/
theorem destroyIfCreated_same (d : Dev w) (k : Kernel w) :
    (destroyIfCreated d k).ifaces = k.ifaces ∧ (destroyIfCreated d k).sems = k.sems ∧
      (destroyIfCreated d k).heap.next = k.heap.next := by
  unfold destroyIfCreated
  cases d.device with
  | none => exact ⟨rfl, rfl, rfl⟩
  | some priv => exact ⟨rfl, rfl, rfl⟩

/-- Clearing the pairs of a device and taking it out of its list. -/
theorem unlinkDev_changed (h : StoreInv k) (hd : d ∈ k.devs) :
    ∃ k', clearPairs d k = .ok k' ∧
      Changed (.removeDev d) k (putDevIndex d.iface d.index (unlinkDev d k')) := by
  obtain ⟨k₁, hclear, hchanged⟩ := clearPairs_changed h hd
  refine ⟨k₁, hclear, ?_, hchanged.sems, hchanged.next, hd⟩
  have hlists : k₁.ifaces = (k.modifyDev d.addr Dev.noPairs).ifaces := hchanged.ifaces
  funext iface
  by_cases heq : iface = d.iface
  · subst heq
    -- the cleared record is the one taken out of the list
    simp only [putDevIndex, unlinkDev, Kernel.setIface, Function.update_self, Change.apply, hlists,
      Kernel.modifyDev]
    congr 1
    generalize (k.ifaces d.iface).devList = devs
    induction devs with
    | nil => rfl
    | cons d' devs ih =>
        by_cases haddr : d'.addr = d.addr
        · have hcleared : d'.noPairs.addr = d.addr := haddr
          rw [List.map_cons, if_pos haddr, List.filter_cons_of_neg (by simpa using hcleared),
            List.filter_cons_of_neg (by simpa using haddr), ih]
        · rw [List.map_cons, if_neg haddr, List.filter_cons_of_pos (by simpa using haddr),
            List.filter_cons_of_pos (by simpa using haddr), ih]
  · simp only [putDevIndex, unlinkDev, Kernel.setIface, Function.update_of_ne heq, Change.apply, hlists,
      Kernel.modifyDev]
    congr 1
    refine (List.map_congr_left ?_).trans (List.map_id _)
    intro d' hd'
    rw [if_neg]
    · rfl
    · intro haddr
      rw [h.devAddr d' (Kernel.mem_devs_of_mem hd') d hd haddr] at hd'
      exact heq (h.iface iface d hd').symm

theorem shutdownDev_changed (h : StoreInv k) (hd : d ∈ k.devs) :
    ∃ k', shutdownDev d k = .ok k' ∧ Changed (.removeDev d) k k' := by
  obtain ⟨hifaces, hsems, hnext⟩ := destroyIfCreated_same d k
  obtain ⟨k₁, hclear, hchanged⟩ :=
    unlinkDev_changed (h.congr hifaces hnext.ge) (mem_devs_congr hifaces hd)
  unfold shutdownDev
  rw [hclear]
  refine ⟨_, rfl, ?_, hchanged.sems.trans hsems, hnext.ge.trans hchanged.next, hd⟩
  refine hchanged.ifaces.trans ?_
  simp only [Change.apply, Kernel.setIface, hifaces]

/-! ### Adding devices -/

/-- A write to the device just added is the same as adding it as written. -/
theorem StoreInv.modifyDev_addDev (h : StoreInv k) {e : Dev w} (hfresh : k.heap.next ≤ e.addr)
    {f : Dev w → Dev w} (hiface : (f e).iface = e.iface) (hindex : (f e).index = e.index)
    (hk : k'.ifaces = ((Change.addDev e).apply k).ifaces) :
    (k'.modifyDev e.addr f).ifaces = ((Change.addDev (f e)).apply k).ifaces := by
  have hold : ∀ iface, ((k.ifaces iface).devList.map fun d => if d.addr = e.addr then f d else d) =
      (k.ifaces iface).devList := by
    intro iface
    refine (List.map_congr_left ?_).trans (List.map_id _)
    intro d hd
    have hlt := h.devFresh d (Kernel.mem_devs_of_mem hd)
    rw [if_neg (by omega)]
    rfl
  funext iface
  by_cases heq : iface = e.iface
  · subst heq
    simp only [Kernel.modifyDev, hk, Change.apply, Kernel.setIface, Function.update_self,
      List.map_cons, hold, if_true, hiface, hindex]
  · have heq' : iface ≠ (f e).iface := by rwa [hiface]
    simp only [Kernel.modifyDev, hk, Change.apply, Kernel.setIface, Function.update_of_ne heq,
      Function.update_of_ne heq', hold]

/-- Taking out the device just added and giving its index back leaves the lists as they were. -/
theorem StoreInv.unlinkDev_addDev (h : StoreInv k) {e : Dev w} (hfresh : k.heap.next ≤ e.addr)
    (hindex : e.index = Bitmap.findFirstZeroBit (k.ifaces e.iface).devIndexes)
    (hk : k'.ifaces = ((Change.addDev e).apply k).ifaces) :
    (putDevIndex e.iface e.index (unlinkDev e k')).ifaces = k.ifaces := by
  funext iface
  by_cases heq : iface = e.iface
  · subst heq
    have hlist : (e :: (k.ifaces e.iface).devList).filter (fun d => decide (d.addr ≠ e.addr)) =
        (k.ifaces e.iface).devList := by
      rw [List.filter_cons_of_neg (by simp)]
      apply List.filter_eq_self.mpr
      intro d hd
      have hlt := h.devFresh d (Kernel.mem_devs_of_mem hd)
      have hne : d.addr ≠ e.addr := by omega
      simpa using hne
    have hbits : Bitmap.clearBit e.index (Bitmap.setBit e.index (k.ifaces e.iface).devIndexes) =
        (k.ifaces e.iface).devIndexes :=
      Bitmap.clearBit_setBit (by rw [hindex]; exact Bitmap.getLsbD_findFirstZeroBit _)
    simp only [putDevIndex, unlinkDev, Kernel.setIface, Function.update_self, hk, Change.apply,
      hlist, hbits]
  · simp only [putDevIndex, unlinkDev, Kernel.setIface, Function.update_of_ne heq, hk, Change.apply]

theorem shutdownDev_of_nil {e : Dev w} (hpairs : e.pairList = []) (k : Kernel w) :
    shutdownDev e k =
      .ok ((putDevIndex e.iface e.index (unlinkDev e (destroyIfCreated e k))).kfree e.addr) := by
  unfold shutdownDev clearPairs
  rw [hpairs]
  rfl

theorem findFreeDevIndex_eq_some {iface : HweIface} {idx : Nat}
    (h : findFreeDevIndex iface k = some idx) :
    idx = Bitmap.findFirstZeroBit (k.ifaces iface).devIndexes ∧ idx ≠ hweMaxDevices := by
  unfold findFreeDevIndex at h
  dsimp only at h
  split at h
  · simp at h
  · rename_i hne
    rw [← Option.some.inj h]
    exact ⟨rfl, hne⟩

theorem addDev_some (iface : HweIface) (idx : Nat) (k : Kernel w) :
    ∃ e k', addDev true iface idx k = (some e, k') ∧
      (e.addr = k.heap.next ∧ e.iface = iface ∧ e.index = idx ∧ e.pairList = [] ∧
        e.pairsIndexes = 0 ∧ e.pairsKobj = false) ∧
      k'.ifaces = ((Change.addDev e).apply k).ifaces ∧ k'.sems = k.sems ∧
      k'.heap.next = k.heap.next + 1 := by
  refine ⟨_, _, rfl, ⟨rfl, rfl, rfl, rfl, rfl, rfl⟩, ?_, rfl, rfl⟩
  simp only [takeDevIndex, Kernel.setIface, Function.update_idem, Function.update_self, Change.apply]

theorem newDev_changed (h : StoreInv k) (env : NewDevEnv) (iface : HweIface) :
    ∃ r k', newDev env iface k = .ok (r, k') ∧
      ((r = none ∧ Changed .keep k k') ∨
        ∃ d, r = some d ∧ d.iface = iface ∧ Changed (.addDev d) k k') := by
  have hkeep : Changed .keep k k := ⟨rfl, rfl, le_rfl, trivial⟩
  unfold newDev
  cases hfree : findFreeDevIndex iface k with
  | none => exact ⟨none, k, rfl, Or.inl ⟨rfl, hkeep⟩⟩
  | some idx =>
      obtain ⟨hidx, hroom⟩ := findFreeDevIndex_eq_some hfree
      cases env.kzalloc with
      | false => exact ⟨none, k, rfl, Or.inl ⟨rfl, hkeep⟩⟩
      | true =>
          obtain ⟨e, k₁, hadd, ⟨haddr, rfl, rfl, hpairs, hbits, _⟩, hk₁, hsems, hnext⟩ :=
            addDev_some iface idx k
          have hfresh : k.heap.next ≤ e.addr := haddr.ge
          simp only [hadd]
          cases env.create with
          | false =>
              refine ⟨none, delDev e k₁, rfl, Or.inl ⟨rfl, ?_, hsems, ?_, trivial⟩⟩
              · exact h.unlinkDev_addDev hfresh hidx hk₁
              · exact hnext ▸ Nat.le_succ _
          | true =>
              -- the record with its private device, then with its name, then with its directory
              let priv := k₁.heap.next
              let e₁ : Dev w := { e with device := some priv }
              let k₂ := k₁.alloc.2.modifyDev e.addr fun d => { d with device := some priv }
              have hk₂ : k₂.ifaces = ((Change.addDev e₁).apply k).ifaces :=
                h.modifyDev_addDev (f := fun d => { d with device := some priv }) hfresh rfl rfl hk₁
              have hfresh₁ : k.heap.next ≤ e₁.addr := hfresh
              let e₂ : Dev w := { e₁ with name := devName e.iface e.index }
              let k₃ := k₂.modifyDev e.addr fun d => { d with name := devName e.iface e.index }
              have hk₃ : k₃.ifaces = ((Change.addDev e₂).apply k).ifaces :=
                h.modifyDev_addDev (f := fun d => { d with name := devName e.iface e.index })
                  hfresh₁ rfl rfl hk₂
              have hfresh₂ : k.heap.next ≤ e₂.addr := hfresh
              let e₃ : Dev w := { e₂ with pairsKobj := true }
              have hk₄ : (k₃.modifyDev e.addr fun d => { d with pairsKobj := true }).ifaces =
                  ((Change.addDev e₃).apply k).ifaces :=
                h.modifyDev_addDev (f := fun d => { d with pairsKobj := true }) hfresh₂ rfl rfl hk₃
              have hgrow : k.heap.next ≤ k₁.heap.next + 1 := by omega
              simp only [createDevice, if_true]
              cases env.kobjectInitAndAdd with
              | some err =>
                  have hshut := shutdownDev_of_nil (e := e₁) hpairs k₂
                  refine ⟨none, _, Except.bind_of_eq_ok hshut _,
                    Or.inl ⟨rfl, ?_, hsems, hgrow, trivial⟩⟩
                  exact h.unlinkDev_addDev hfresh₁ hidx hk₂
              | none =>
                  cases env.kobjectCreateAndAdd with
                  | false =>
                      have hshut := shutdownDev_of_nil (e := e₂) hpairs k₃
                      refine ⟨none, _, Except.bind_of_eq_ok hshut _,
                        Or.inl ⟨rfl, ?_, hsems, hgrow, trivial⟩⟩
                      exact h.unlinkDev_addDev hfresh₂ hidx hk₃
                  | true =>
                      refine ⟨some e₃, _, rfl, Or.inr ⟨e₃, rfl, rfl, hk₄, hsems, hgrow, ?_⟩⟩
                      refine ⟨hpairs, hbits, ⟨rfl, rfl, rfl⟩, hfresh, ?_, hroom, hidx⟩
                      change e.addr < k₁.heap.next + 1
                      omega

/-! ### Adding pairs -/

/-- The record of an accepted pair as it is put in the list of the device. -/
def Pair.placed (p : Pair w) (d : Dev w) : Pair w :=
  { p with
    dev := d.addr
    index := Bitmap.findFirstZeroBit d.pairsIndexes
    filename := decimal (Bitmap.findFirstZeroBit d.pairsIndexes) }

theorem scnprintf_decimal {idx : Nat} (h : idx < hweMaxPairs) :
    scnprintf filenameSize (decimal idx) = decimal idx := by
  have hlen : (decimal idx).length ≤ 3 := length_decimal_le (by decide) h
  apply List.take_of_length_le
  exact hlen.trans (by decide)

theorem Pair.Valid.placed {q : Pair w} (h : q.Valid) (d : Dev w) : (q.placed d).Valid :=
  ⟨h.resp_pos, h.resp_le, h.sync, h.timer⟩

/-- The parser leaves the address of the record alone. -/
theorem Pair.addr_filled (HZ : Nat) (mem q : Pair w) : (mem.filled HZ q).addr = mem.addr := by
  unfold Pair.filled
  split
  · rfl
  · rfl

/-- An attempt to add a pair to a device either puts the parsed pair, with a new address, in its
list or changes nothing. -/
theorem addPair_changed (h : StoreInv k) (hd : d ∈ k.devs) {HZ : Nat} {env : AddPairEnv w}
    {str : List UInt8} {r : AddPairResult w} (hrun : addPair HZ env str (some d) k = .ok (r, k')) :
    (∃ mem q, env.kmalloc = some mem ∧
        strToPair HZ str { mem with addr := k.heap.next } = .ok (.ok q) ∧
        r = .added (q.placed d).index ∧ Changed (.addPair d.addr (q.placed d)) k k') ∨
      ((∀ idx, r ≠ .added idx) ∧ Changed .keep k k') := by
  have hkept : ∀ {r₀ : AddPairResult w}, (∀ idx, r₀ ≠ .added idx) →
      (.ok (r₀, k.alloc.2.kfree k.alloc.1) : Except Fault (AddPairResult w × Kernel w)) = .ok (r, k') →
      (∀ idx, r ≠ .added idx) ∧ Changed .keep k k' := by
    intro r₀ hne heq
    obtain ⟨rfl, rfl⟩ := Prod.mk.inj (Except.ok.inj heq)
    exact ⟨hne, rfl, rfl, Nat.le_succ _, trivial⟩
  unfold addPair at hrun
  cases hmem : env.kmalloc with
  | none =>
      rw [hmem] at hrun
      obtain ⟨rfl, rfl⟩ := Prod.mk.inj (Except.ok.inj hrun)
      exact Or.inr ⟨by simp, rfl, rfl, le_rfl, trivial⟩
  | some mem =>
      rw [hmem] at hrun
      dsimp only at hrun
      obtain ⟨parsed, hparse, hrun⟩ := Except.bind_eq_ok_iff.mp hrun
      cases parsed with
      | error err => exact Or.inr (hkept (by simp) hrun)
      | ok q =>
          dsimp only at hrun
          split at hrun
          · exact Or.inr (hkept (by simp) hrun)
          · rename_i hroom
            cases hfind : findPair d.pairList q.req q.req.length with
            | some p =>
                rw [hfind] at hrun
                exact Or.inr (hkept (by simp) hrun)
            | none =>
                rw [hfind] at hrun
                cases hcreate : env.sysfsCreateFile with
                | some err =>
                    rw [hcreate] at hrun
                    exact Or.inr (hkept (by simp) hrun)
                | none =>
                    rw [hcreate] at hrun
                    obtain ⟨rfl, rfl⟩ := Prod.mk.inj (Except.ok.inj hrun)
                    obtain ⟨hvalid, hfilled⟩ := strToPair_ok hparse
                    have haddr : (q.placed d).addr = k.heap.next := by
                      change q.addr = _
                      rw [hfilled]
                      exact Pair.addr_filled ..
                    have hlt : Bitmap.findFirstZeroBit d.pairsIndexes < hweMaxPairs :=
                      lt_of_le_of_ne (Bitmap.findFirstZeroBit_le _) hroom
                    refine Or.inl ⟨mem, q, rfl, hparse, rfl, ?_, rfl, Nat.le_succ _, ?_, ?_, ?_⟩
                    · rw [scnprintf_decimal hlt]
                      rfl
                    · refine ⟨d, hd, rfl, hvalid.placed d, rfl, rfl, rfl, hroom, hfind, ?_, ?_⟩
                      · intro p hp
                        have hold := h.pairFresh d hd p hp
                        omega
                      · intro hasync
                        have hq : q.asyncRx = true := hasync
                        change q.time = 0
                        rw [hfilled, Pair.filled, if_pos hq]
                    · exact haddr.ge
                    · rw [haddr]
                      exact Nat.lt_succ_self _

/-- An addition is refused for lack of room only when no index is free. -/
theorem addPair_tooMany {HZ : Nat} {env : AddPairEnv w} {str : List UInt8}
    (hrun : addPair HZ env str (some d) k = .ok (.tooMany, k')) :
    Bitmap.findFirstZeroBit d.pairsIndexes = hweMaxPairs := by
  unfold addPair at hrun
  split at hrun
  · simp at hrun
  · obtain ⟨parsed, _, hrun⟩ := Except.bind_eq_ok_iff.mp hrun
    cases parsed with
    | error err => simp at hrun
    | ok q =>
        dsimp only at hrun
        split at hrun
        · assumption
        · split at hrun
          · simp at hrun
          · split at hrun
            · simp at hrun
            · simp at hrun

/-! ### The lock -/

theorem withLock_eq_ok {α : Type} {iface : HweIface} {body : Kernel w → Except Fault (α × Kernel w)}
    {a : α} :
    withLock iface k body = .ok (a, k') ↔
      k.sems iface ≠ 0 ∧ ∃ k₁, body (k.setSem iface (k.sems iface - 1)) = .ok (a, k₁) ∧
        k' = unlockIfaceDevs iface k₁ := by
  unfold withLock lockIfaceDevs
  by_cases hsem : k.sems iface = 0
  · simp [hsem]
  · rw [if_neg hsem, Except.ok_bind, Except.bind_eq_ok_iff]
    constructor
    · rintro ⟨⟨a', k₁⟩, hbody, hret⟩
      obtain ⟨rfl, rfl⟩ := Prod.mk.inj (Except.ok.inj hret)
      exact ⟨hsem, k₁, hbody, rfl⟩
    · rintro ⟨_, k₁, hbody, rfl⟩
      exact ⟨(a, k₁), hbody, rfl⟩

theorem StoreInv.setSem (h : StoreInv k) (iface : HweIface) (n : Nat) : StoreInv (k.setSem iface n) :=
  h.congr rfl le_rfl

/-- What is done under the lock is done, with the lock as it was. -/
theorem Changed.unlock {c : Change w} {iface : HweIface} (hsem : k.sems iface ≠ 0)
    (h : Changed c (k.setSem iface (k.sems iface - 1)) k') :
    Changed c k (unlockIfaceDevs iface k') := by
  refine ⟨?_, ?_, h.next, ?_⟩
  · have hifaces := h.ifaces
    cases c <;> exact hifaces
  · funext j
    simp only [unlockIfaceDevs, Kernel.setSem, h.sems]
    by_cases hj : j = iface
    · subst hj
      rw [Function.update_self, Function.update_self]
      omega
    · rw [Function.update_of_ne hj, Function.update_of_ne hj]
  · have hallowed := h.allowed
    cases c <;> exact hallowed

end Hwemu
