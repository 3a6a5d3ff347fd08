import Hwemu.LinkedView
import Hwemu.Operations

/-!
# The operations on the linked store

Every operation on the linked store answers as the operation on lists does, and leaves a memory that holds
the store of lists that is left; where the one runs into a fault, so does the other.
-/

namespace Hwemu

variable {w : Nat} {s s' : LinkedKernel w} {k k' : Kernel w} {d : Dev w} {p : Pair w}

/-- The same answer, and a memory that holds the store. -/
def Answers {α : Type} (a : α × LinkedKernel w) (b : α × Kernel w) : Prop :=
  a.1 = b.1 ∧ Represents none a.2 b.2

namespace Represents

/-! ### Removing -/

theorem pairDelete_eq (h : Represents none s k) (hinv : StoreInv k) (hd : d ∈ k.devs) (hp : p ∈ d.pairList) :
    ∃ s' k', Linked.pairDelete p.addr s = .ok s' ∧ pairDelete d.addr p k = .ok k' ∧ Represents none s' k' := by
  have howner := (hinv.ok d hd).owner p hp
  let f : Dev w → Dev w := fun d => { d with pairsIndexes := Bitmap.clearBit p.index d.pairsIndexes }
  obtain ⟨s₁, hwrite, h₁⟩ := h.modifyDev (f := f)
    (g := fun d => { d with pairsIndexes := Bitmap.clearBit p.index d.pairsIndexes }) hd (fun _ => rfl)
    (fun _ => rfl) (fun _ => rfl) rfl
  have hd₁ : f d ∈ (k.modifyDev d.addr f).devs := Kernel.mem_devs_modifyDev.mpr ⟨d, hd, if_pos rfl⟩
  obtain ⟨s₂, hdel, h₂⟩ := h₁.unlinkPair hd₁ hp
  refine ⟨s₂.kfreePair p.addr, _, ?_, ?_, h₂⟩
  · rw [Linked.pairDelete, h.derefPair hd hp, Except.ok_bind, howner, hwrite, Except.ok_bind, hdel]
    rfl
  · rw [pairDelete, howner, hinv.deref_eq hd]
    rfl

/-- The loop of `clear_pairs` from the first of the pairs `ps` that are left, by induction on them: the
entry behind the one that is deleted was read before, and is the first of those left then. -/
theorem clearPairsFrom_eq (h : Represents none s k) (hinv : StoreInv k) (hd : d ∈ k.devs) {fuel : Nat}
    (hfuel : d.pairList.length < fuel) :
    ∃ s' k', Linked.clearPairsFrom (.pairList d.addr) fuel (d.pairEntries.headD (.pairList d.addr))
        (s.links.next (d.pairEntries.headD (.pairList d.addr))) s = .ok s' ∧
      clearPairs d k = .ok k' ∧ Represents none s' k' := by
  unfold clearPairs
  generalize hps : d.pairList = ps at hfuel
  induction ps generalizing s k d fuel with
  | nil =>
      obtain ⟨fuel, rfl⟩ := Nat.exists_eq_succ_of_ne_zero (Nat.ne_of_gt hfuel)
      refine ⟨s, k, ?_, rfl, h⟩
      rw [Dev.pairEntries, hps, Linked.clearPairsFrom]
      exact if_pos rfl
  | cons p ps ih =>
      obtain ⟨fuel, rfl⟩ := Nat.exists_eq_succ_of_ne_zero (Nat.ne_of_gt (Nat.zero_lt_of_lt hfuel))
      have hp : p ∈ d.pairList := hps ▸ List.mem_cons_self
      obtain ⟨s₁, k₁, hdel, hdel', h₁⟩ := h.pairDelete_eq hinv hd hp
      obtain ⟨k₂, hdel₂, hchanged⟩ := pairDelete_changed hinv hd hp
      obtain rfl : k₁ = k₂ := Except.ok.inj (hdel'.symm.trans hdel₂)
      have hd₁ : d.removePair p ∈ k₁.devs :=
        mem_devs_congr hchanged.ifaces (Kernel.mem_devs_modifyDev.mpr ⟨d, hd, if_pos rfl⟩)
      have hrest : (d.removePair p).pairList = ps := by
        have hnodup := (hinv.ok d hd).addrs
        simp only [Dev.removePair, hps] at hnodup ⊢
        exact Keyed.filter_head hnodup
      obtain ⟨s₃, k₃, hloop, hloop', h₃⟩ := ih h₁ (hinv.changed hchanged) hd₁ hrest
        (Nat.lt_of_succ_lt_succ hfuel)
      refine ⟨s₃, k₃, ?_, ?_, h₃⟩
      · have hcells := h.rings.ring (.pairs hd)
        have hentries : d.pairEntries = .pairEntry p.addr :: (d.removePair p).pairEntries := by
          rw [Dev.pairEntries, Dev.pairEntries, hps, hrest, List.map_cons]
        have hring : k₁.Ring (.pairList d.addr) (d.removePair p).pairEntries := .pairs hd₁
        have htmp : (d.removePair p).pairEntries.headD (.pairList d.addr) ∈
            ListHead.pairList d.addr :: (d.removePair p).pairEntries := by
          have hnext := (h₁.rings.ring hring).next_mem List.mem_cons_self
          rwa [(h₁.rings.ring hring).next_head] at hnext
        rw [hentries] at hcells ⊢
        have hfirst : s.links.IsRing (.pairList d.addr)
            ([] ++ .pairEntry p.addr :: (d.removePair p).pairEntries) := hcells
        rw [List.headD_cons, hfirst.next_cell, Linked.clearPairsFrom, if_neg ListHead.noConfusion]
        simp only [ListHead.toPair, Except.ok_bind]
        rw [hdel, Except.ok_bind, LinkedKernel.next_eq (h₁.access hring htmp), Except.ok_bind]
        exact hloop
      · rw [List.foldlM_cons, hdel', Except.ok_bind]
        exact hloop'

theorem clearPairs_eq (h : Represents none s k) (hinv : StoreInv k) (hd : d ∈ k.devs) :
    ∃ s' k', Linked.clearPairs d.addr s = .ok s' ∧ clearPairs d k = .ok k' ∧ Represents none s' k' := by
  have hring : k.Ring (.pairList d.addr) d.pairEntries := .pairs hd
  have hcells := h.rings.ring hring
  have hfirst := hcells.next_mem List.mem_cons_self
  have hlen : d.pairList.length < hweMaxPairs + 1 := by
    have hle := (hinv.ok d hd).indexes.length_le
    rw [List.length_map] at hle
    exact Nat.lt_succ_of_le hle
  obtain ⟨s', k', hloop, hclear, h'⟩ := h.clearPairsFrom_eq hinv hd hlen
  refine ⟨s', k', ?_, hclear, h'⟩
  rw [Linked.clearPairs, LinkedKernel.next_eq (h.access hring List.mem_cons_self), Except.ok_bind,
    LinkedKernel.next_eq (h.access hring hfirst), Except.ok_bind, hcells.next_head]
  exact hloop

/-- A device with no pairs left: there is nothing to clear. -/
theorem clearPairs_nil (h : Represents none s k) (hd : d ∈ k.devs) (hpairs : d.pairList = []) :
    Linked.clearPairs d.addr s = .ok s := by
  have hring : k.Ring (.pairList d.addr) d.pairEntries := .pairs hd
  have hcells := h.rings.ring hring
  have hhead : s.links.next (.pairList d.addr) = .pairList d.addr := by
    rw [hcells.next_head, Dev.pairEntries, hpairs]
    rfl
  have hnext := LinkedKernel.next_eq (h.access hring List.mem_cons_self)
  rw [Linked.clearPairs, hnext, Except.ok_bind, hhead, hnext, Except.ok_bind, Linked.clearPairsFrom]
  exact if_pos rfl

theorem destroyIfCreated (h : Represents none s k) (d : Dev w) :
    Represents none (Linked.destroyIfCreated d.device s) (destroyIfCreated d k) := by
  unfold Linked.destroyIfCreated Hwemu.destroyIfCreated
  cases d.device with
  | none => exact h
  | some priv => exact h.kfree priv

/-- `shutdown_dev` of a device, whose record may have been read before its pairs were cleared. -/
theorem shutdownDev_of_clear (h : Represents none s k) (hd : d ∈ k.devs) {s₁ : LinkedKernel w}
    {k₁ : Kernel w} {d₁ : Dev w}
    (hclear : Linked.clearPairs d.addr (Linked.destroyIfCreated d.device s) = .ok s₁)
    (hclear' : clearPairs d (Hwemu.destroyIfCreated d k) = .ok k₁) (h₁ : Represents none s₁ k₁)
    (hd₁ : d₁ ∈ k₁.devs) (hpairs : d₁.pairList = []) (haddr : d₁.addr = d.addr) (hiface : d₁.iface = d.iface)
    (hindex : d₁.index = d.index) :
    ∃ s' k', Linked.shutdownDev d.addr s = .ok s' ∧ shutdownDev d k = .ok k' ∧ Represents none s' k' := by
  obtain ⟨s', hremove, h'⟩ := h₁.removeDev hd₁ hpairs
  refine ⟨s', delDev d₁ k₁, ?_, ?_, h'⟩
  · rw [Linked.shutdownDev, h.derefDev hd, Except.ok_bind]
    have hdevice : d.record.device = d.device := rfl
    rw [hdevice, hclear, Except.ok_bind, ← haddr]
    exact hremove
  · rw [shutdownDev, hclear', Except.ok_bind, delDev, unlinkDev, unlinkDev, putDevIndex, putDevIndex, haddr,
      hiface, hindex]
    rfl

theorem shutdownDev_eq (h : Represents none s k) (hinv : StoreInv k) (hd : d ∈ k.devs) :
    ∃ s' k', Linked.shutdownDev d.addr s = .ok s' ∧ shutdownDev d k = .ok k' ∧ Represents none s' k' := by
  obtain ⟨hifaces, _, hnext⟩ := destroyIfCreated_same d k
  have hinv₀ : StoreInv (Hwemu.destroyIfCreated d k) := hinv.congr hifaces hnext.ge
  have hd₀ : d ∈ (Hwemu.destroyIfCreated d k).devs := mem_devs_congr hifaces hd
  obtain ⟨s₁, k₁, hclear, hclear', h₁⟩ := (h.destroyIfCreated d).clearPairs_eq hinv₀ hd₀
  obtain ⟨k₂, hclear₂, hchanged⟩ := clearPairs_changed hinv₀ hd₀
  obtain rfl : k₁ = k₂ := Except.ok.inj (hclear'.symm.trans hclear₂)
  have hd₁ : d.noPairs ∈ k₁.devs :=
    mem_devs_congr hchanged.ifaces (Kernel.mem_devs_modifyDev.mpr ⟨d, hd₀, if_pos rfl⟩)
  exact h.shutdownDev_of_clear hd hclear hclear' h₁ hd₁ rfl rfl rfl rfl

theorem shutdownDev_nil (h : Represents none s k) (hd : d ∈ k.devs) (hpairs : d.pairList = []) :
    ∃ s' k', Linked.shutdownDev d.addr s = .ok s' ∧ shutdownDev d k = .ok k' ∧ Represents none s' k' := by
  have hd₀ : d ∈ (Hwemu.destroyIfCreated d k).devs := mem_devs_congr (destroyIfCreated_same d k).1 hd
  have h₀ := h.destroyIfCreated d
  refine h.shutdownDev_of_clear hd (h₀.clearPairs_nil hd₀ hpairs) ?_ h₀ hd₀ hpairs rfl rfl rfl
  rw [clearPairs, hpairs]
  rfl

/-! ### Adding devices -/

/-- The pointer to a new device, and the record it points at. -/
def NewDev (k : Kernel w) (a : Option Nat) (b : Option (Dev w)) : Prop :=
  a = b.map (·.addr) ∧ ∀ d ∈ b, d ∈ k.devs

/-- A write to a device; `e'` is what becomes of its record. -/
theorem setUp {loose : Option Nat} (h : Represents loose s k) {e e' : Dev w} (he : e ∈ k.devs) {f : Dev w → Dev w}
    {g : DevRecord → DevRecord} (haddr : ∀ d, (f d).addr = d.addr) (hiface : ∀ d, (f d).iface = d.iface)
    (hpairs : ∀ d, (f d).pairList = d.pairList) (hrecord : (f e).record = g e.record) (he' : f e = e') :
    ∃ s', s.modifyDev e.addr g = .ok s' ∧ Represents loose s' (k.modifyDev e.addr f) ∧
      e' ∈ (k.modifyDev e.addr f).devs := by
  obtain ⟨s', hset, h'⟩ := h.modifyDev he haddr hiface hpairs hrecord
  exact ⟨s', hset, h', Kernel.mem_devs_modifyDev.mpr ⟨e, he, (if_pos rfl).trans he'⟩⟩

theorem newDev_rel (h : Represents none s k) (env : NewDevEnv) (iface : HweIface) :
    Except.Rel (fun a b => NewDev b.2 a.1 b.1 ∧ Represents none a.2 b.2) (Linked.newDev env iface s)
      (newDev env iface k) := by
  have hnone : ∀ {s' : LinkedKernel w} {k' : Kernel w}, Represents none s' k' →
      NewDev k' none none ∧ Represents none s' k' := fun h' =>
    ⟨⟨rfl, fun d hd => absurd hd (Option.not_mem_none d)⟩, h'⟩
  have hfree : Linked.findFreeDevIndex iface s = findFreeDevIndex iface k := by
    rw [Linked.findFreeDevIndex, h.devIndexes, findFreeDevIndex]
  unfold Linked.newDev newDev
  rw [hfree]
  cases findFreeDevIndex iface k with
  | none => exact .ok (hnone h)
  | some idx =>
      cases env.kzalloc with
      | false => exact .ok (hnone h)
      | true =>
          obtain ⟨s₁, hadd, h₁⟩ := h.linkDev iface idx
          let e : Dev w := Dev.blank k.heap.next iface idx
          let k₁ := (addDev true iface idx k).2
          have hadd' : addDev true iface idx k = (some e, k₁) := by
            simp only [e, k₁, addDev, Kernel.alloc, Dev.blank]
            rfl
          have he : e ∈ k₁.devs := mem_addDev.mpr (Or.inl rfl)
          have haddr : k.heap.next = e.addr := rfl
          dsimp only
          rw [hadd, hadd', Except.ok_bind, haddr]
          dsimp only
          cases env.create with
          | false =>
              obtain ⟨s₂, hdel, h₂⟩ := h₁.removeDev he rfl
              simp only [Linked.createDevice, createDevice, Bool.false_eq_true, if_false, hdel,
                Except.ok_bind]
              exact .ok (hnone h₂)
          | true =>
              -- the private device, then the name, then the directory of the pairs
              have hpriv : s₁.alloc.1 = k₁.alloc.1 := congrArg Heap.next h₁.heap
              simp only [Linked.createDevice, createDevice, if_true, hpriv]
              obtain ⟨s₂, hset₂, h₂, he₂⟩ := h₁.alloc.setUp
                (f := fun d => { d with device := some k₁.alloc.1 })
                (g := fun d => { d with device := some k₁.alloc.1 }) he (fun _ => rfl) (fun _ => rfl)
                (fun _ => rfl) rfl rfl
              rw [hset₂, Except.ok_bind]
              cases env.kobjectInitAndAdd with
              | some err =>
                  obtain ⟨s₃, k₃, hshut, hshut', h₃⟩ := h₂.shutdownDev_nil he₂ rfl
                  simp only [Option.isSome_some, if_true]
                  rw [hshut', Except.ok_bind]
                  exact (Except.bind_of_eq_ok hshut _) ▸ .ok (hnone h₃)
              | none =>
                  obtain ⟨s₃, hset₃, h₃, he₃⟩ := h₂.setUp (f := fun d => { d with name := devName iface idx })
                    (g := fun d => { d with name := devName iface idx }) he₂ (fun _ => rfl) (fun _ => rfl)
                    (fun _ => rfl) rfl rfl
                  simp only [Option.isSome_none, Bool.false_eq_true, if_false]
                  rw [Except.bind_of_eq_ok hset₃]
                  cases env.kobjectCreateAndAdd with
                  | false =>
                      obtain ⟨s₄, k₄, hshut, hshut', h₄⟩ := h₃.shutdownDev_nil he₃ rfl
                      simp only [Bool.not_false, if_true]
                      rw [Except.bind_of_eq_ok hshut']
                      exact (Except.bind_of_eq_ok hshut _) ▸ .ok (hnone h₄)
                  | true =>
                      obtain ⟨s₄, hset₄, h₄, he₄⟩ := h₃.setUp (f := fun d => { d with pairsKobj := true })
                        (g := fun d => { d with pairsKobj := true }) he₃ (fun _ => rfl) (fun _ => rfl)
                        (fun _ => rfl) rfl rfl
                      simp only [Bool.not_true, Bool.false_eq_true, if_false]
                      rw [Except.bind_of_eq_ok hset₄]
                      refine .ok ⟨⟨rfl, fun d hd => ?_⟩, h₄⟩
                      rw [← Option.some.inj hd]
                      exact he₄

/-! ### Searching -/

theorem length_devList (hinv : StoreInv k) (iface : HweIface) :
    (k.ifaces iface).devList.length ≤ hweMaxDevices := by
  have hle := (hinv.indexes iface).length_le
  rwa [List.length_map] at hle

theorem length_pairList (hinv : StoreInv k) (hd : d ∈ k.devs) : d.pairList.length ≤ hweMaxPairs := by
  have hle := (hinv.ok d hd).indexes.length_le
  rwa [List.length_map] at hle

variable {loose : Option Nat}

theorem findDevice_eq (h : Represents loose s k) (hinv : StoreInv k) (iface : HweIface) (name : List UInt8) :
    Linked.findDevice iface name s = .ok ((findDevice iface name k).map (·.addr)) :=
  Linked.findDev_eq h (length_devList hinv iface) fun d => d.name == name

theorem findDeviceByIndex_eq (h : Represents loose s k) (hinv : StoreInv k) (iface : HweIface) (index : Int) :
    Linked.findDeviceByIndex iface index s = .ok ((findDeviceByIndex iface index k).map (·.addr)) :=
  Linked.findDev_eq h (length_devList hinv iface) fun d => (d.index : Int) == index

theorem findPair_eq (h : Represents loose s k) (hinv : StoreInv k) (hd : d ∈ k.devs) (request : List UInt8)
    (reqSize : Nat) : Linked.findPair d.addr request reqSize s =
      .ok ((findPair d.pairList request reqSize).map (·.addr)) :=
  Linked.findInPairs_eq h hd (length_pairList hinv hd) _

theorem getPairAtIndex_eq (h : Represents loose s k) (hinv : StoreInv k) (hd : d ∈ k.devs) (index : Nat) :
    Linked.getPairAtIndex d.addr index s = .ok ((getPairAtIndex d.pairList index).map (·.addr)) :=
  Linked.findInPairs_eq h hd (length_pairList hinv hd) _

/-! ### Adding pairs -/

/-- `set_bit` and `list_add_tail` for a pair that was in no list. -/
theorem appendPair (h : Represents (some p.addr) s k) (hd : d ∈ k.devs) (hput : s.pairs p.addr = some p)
    (hlt : p.addr < k.heap.next) (hfresh : ∀ d ∈ k.devs, ∀ q ∈ d.pairList, q.addr ≠ p.addr) (idx : Nat) :
    ∃ s₁ s₂, s.modifyDev d.addr (fun d => { d with pairsIndexes := Bitmap.setBit idx d.pairsIndexes }) =
        .ok s₁ ∧
      Linked.listAddTail (.pairEntry p.addr) (.pairList d.addr) s₁ = .ok s₂ ∧
      Represents none s₂ (k.modifyDev d.addr fun d => { d with
        pairsIndexes := Bitmap.setBit idx d.pairsIndexes
        pairList := d.pairList ++ [p] }) := by
  let f : Dev w → Dev w := fun d => { d with pairsIndexes := Bitmap.setBit idx d.pairsIndexes }
  let g : Dev w → Dev w := fun d => { d with pairList := d.pairList ++ [p] }
  obtain ⟨s₁, hset, h₁, hd₁⟩ := h.setUp (f := f)
    (g := fun d => { d with pairsIndexes := Bitmap.setBit idx d.pairsIndexes }) hd (fun _ => rfl)
    (fun _ => rfl) (fun _ => rfl) rfl rfl
  have hput₁ : s₁.pairs p.addr = some p := by
    rw [LinkedKernel.modifyDev, h.derefDev hd] at hset
    obtain rfl := Except.ok.inj hset
    exact hput
  have hfresh₁ : ∀ d' ∈ (k.modifyDev d.addr f).devs, ∀ q ∈ d'.pairList, q.addr ≠ p.addr := by
    intro d' hd' q hq
    obtain ⟨d₀, hd₀, rfl⟩ := Kernel.mem_devs_modifyDev.mp hd'
    refine hfresh d₀ hd₀ q ?_
    split at hq
    · exact hq
    · exact hq
  obtain ⟨s₂, hadd, h₂⟩ := h₁.linkPair hd₁ hput₁ hlt hfresh₁
  have hcompose : (k.modifyDev d.addr f).modifyDev d.addr g = k.modifyDev d.addr (g ∘ f) :=
    Kernel.modifyDev_modifyDev fun _ => rfl
  exact ⟨s₁, s₂, hset, hadd, hcompose ▸ h₂⟩

theorem addPair_rel (h : Represents none s k) (hinv : StoreInv k) (HZ : Nat) (env : AddPairEnv w)
    (str : List UInt8) (dev : Option (Dev w)) (hdev : ∀ d ∈ dev, d ∈ k.devs) :
    Except.Rel Answers (Linked.addPair HZ env str (dev.map (·.addr)) s) (addPair HZ env str dev k) := by
  unfold Linked.addPair addPair
  cases env.kmalloc with
  | none => exact .ok ⟨rfl, h⟩
  | some mem =>
      have hnext : s.alloc.1 = k.heap.next := congrArg Heap.next h.heap
      have hfresh : ∀ d ∈ k.alloc.2.devs, ∀ q ∈ d.pairList, q.addr ≠ k.heap.next := fun d hd q hq =>
        Nat.ne_of_lt (hinv.pairFresh d hd q hq)
      have hinv₁ : StoreInv k.alloc.2 := hinv.congr rfl (Nat.le_succ _)
      have h₁ := h.alloc.putPair (p := { mem with addr := k.heap.next }) (Or.inl rfl) hfresh
      have hmem : k.alloc.1 = k.heap.next := rfl
      dsimp only
      rw [hnext, hmem]
      cases hparse : strToPair HZ str { mem with addr := k.heap.next } with
      | error fault => exact .error fault
      | ok parsed =>
          rw [Except.ok_bind, Except.ok_bind]
          cases parsed with
          | error err => exact .ok ⟨rfl, h₁.kfreeLoose hfresh⟩
          | ok q =>
              have hq : q.addr = k.heap.next := by
                rw [(strToPair_ok hparse).2]
                exact Pair.addr_filled ..
              rw [← hq] at hfresh h₁ ⊢
              have h₂ := h₁.putPair (p := q) (Or.inr rfl) hfresh
              cases dev with
              | none => exact .error Fault.nullDeref
              | some d =>
                  have hd : d ∈ k.alloc.2.devs := hdev d rfl
                  dsimp only [Option.map_some]
                  have hbits : d.record.pairsIndexes = d.pairsIndexes := rfl
                  rw [h₂.derefDev hd, Except.ok_bind, hbits]
                  by_cases hfull : Bitmap.findFirstZeroBit d.pairsIndexes = hweMaxPairs
                  · rw [if_pos hfull, if_pos hfull]
                    exact .ok ⟨rfl, h₂.kfreeLoose hfresh⟩
                  · rw [if_neg hfull, if_neg hfull, h₂.findPair_eq hinv₁ hd, Except.ok_bind]
                    cases hfind : findPair d.pairList q.req q.req.length with
                    | some p =>
                        have hp := (findPair_some hfind).1
                        dsimp only [Option.map_some]
                        rw [h₂.derefPair hd hp, Except.ok_bind]
                        exact .ok ⟨rfl, h₂.kfreeLoose hfresh⟩
                    | none =>
                        dsimp only [Option.map_none]
                        generalize hidx : Bitmap.findFirstZeroBit d.pairsIndexes = idx
                        let p : Pair w := { q with
                          dev := d.addr
                          index := idx
                          filename := scnprintf filenameSize (decimal idx) }
                        have h₃ := h₂.putPair (p := p) (Or.inr rfl) hfresh
                        cases env.sysfsCreateFile with
                        | some err => exact .ok ⟨rfl, h₃.kfreeLoose hfresh⟩
                        | none =>
                            have hlt : p.addr < k.heap.next + 1 :=
                              lt_of_eq_of_lt hq (Nat.lt_succ_self _)
                            obtain ⟨s₄, s₅, hset, hadd, h₅⟩ :=
                              h₃.appendPair hd (Function.update_self ..) hlt hfresh idx
                            rw [Except.bind_of_eq_ok hset]
                            exact (Except.bind_of_eq_ok hadd _) ▸ .ok ⟨rfl, h₅⟩

/-! ### The operations -/

/-- What is done under the lock answers the same, with the lock as it was. -/
theorem withLock_rel_of {α : Type} (h : Represents none s k) (hinv : StoreInv k) {iface : HweIface}
    {body : LinkedKernel w → Except Fault (α × LinkedKernel w)}
    {body' : Kernel w → Except Fault (α × Kernel w)}
    (hbody : ∀ s₁ k₁, Represents none s₁ k₁ → StoreInv k₁ → k₁.ifaces = k.ifaces →
      Except.Rel Answers (body s₁) (body' k₁)) :
    Except.Rel Answers (Linked.withLock iface s body) (withLock iface k body') := by
  unfold Linked.withLock withLock Linked.lockIfaceDevs lockIfaceDevs
  rw [h.sems]
  split
  · exact .error _
  · refine (hbody _ _ (h.setSem iface _) (hinv.setSem iface _) rfl).bind ?_
    rintro ⟨a, s₁⟩ ⟨_, k₁⟩ ⟨rfl, h₁⟩
    have hsems : s₁.sems = k₁.sems := h₁.sems
    refine .ok ⟨rfl, ?_⟩
    dsimp only
    rw [Linked.unlockIfaceDevs, unlockIfaceDevs, hsems]
    exact h₁.setSem iface _

theorem withLock_rel {α : Type} (h : Represents none s k) (hinv : StoreInv k) {iface : HweIface}
    {body : LinkedKernel w → Except Fault (α × LinkedKernel w)}
    {body' : Kernel w → Except Fault (α × Kernel w)}
    (hbody : ∀ s k, Represents none s k → StoreInv k → Except.Rel Answers (body s) (body' k)) :
    Except.Rel Answers (Linked.withLock iface s body) (withLock iface k body') :=
  h.withLock_rel_of hinv fun s k h hinv _ => hbody s k h hinv

theorem ifaceAddStore_rel (h : Represents none s k) (hinv : StoreInv k) (iface : HweIface) (buf : List UInt8)
    (env : NewDevEnv) :
    Except.Rel Answers (Linked.ifaceAddStore iface buf env s) (ifaceAddStore iface buf env k) := by
  unfold Linked.ifaceAddStore ifaceAddStore
  split
  · exact .ok ⟨rfl, h⟩
  · rw [strToIface_ifaceToStr]
    refine h.withLock_rel hinv fun s k h _ => (h.newDev_rel env iface).bind ?_
    rintro ⟨_, s₁⟩ ⟨dev, k₁⟩ ⟨⟨rfl, _⟩, h₁⟩
    cases dev with
    | none => exact .ok ⟨rfl, h₁⟩
    | some d => exact .ok ⟨rfl, h₁⟩

theorem hweAddDevice_rel (h : Represents none s k) (hinv : StoreInv k) (iface : HweIface) (env : NewDevEnv) :
    Except.Rel Answers (Linked.hweAddDevice iface env s) (hweAddDevice iface env k) := by
  refine h.withLock_rel hinv fun s k h _ => (h.newDev_rel env iface).bind ?_
  rintro ⟨_, s₁⟩ ⟨dev, k₁⟩ ⟨⟨rfl, hdev⟩, h₁⟩
  cases dev with
  | none => exact .ok ⟨rfl, h₁⟩
  | some d =>
      dsimp only [Option.map_some]
      rw [h₁.derefDev (hdev d rfl)]
      exact .ok ⟨rfl, h₁⟩

theorem ifaceUninstallStore_rel (h : Represents none s k) (hinv : StoreInv k) (iface : HweIface)
    (buf : List UInt8) :
    Except.Rel Answers (Linked.ifaceUninstallStore iface buf s) (ifaceUninstallStore iface buf k) := by
  unfold Linked.ifaceUninstallStore ifaceUninstallStore
  split
  · exact .ok ⟨rfl, h⟩
  · rw [strToIface_ifaceToStr]
    dsimp only
    split
    · exact .ok ⟨rfl, h⟩
    · refine h.withLock_rel hinv fun s k h hinv => ?_
      rw [h.findDevice_eq hinv, Except.ok_bind]
      cases hfind : findDevice iface (copyWord buf 16) k with
      | none => exact .ok ⟨rfl, h⟩
      | some d =>
          obtain ⟨s₁, k₁, hshut, hshut', h₁⟩ := h.shutdownDev_eq hinv (findDevice_some hfind)
          dsimp only [Option.map_some]
          rw [hshut, hshut']
          exact .ok ⟨rfl, h₁⟩

theorem hweDeleteDevice_rel (h : Represents none s k) (hinv : StoreInv k) (iface : HweIface) (devIndex : Int) :
    Except.Rel Answers (Linked.hweDeleteDevice iface devIndex s) (hweDeleteDevice iface devIndex k) := by
  refine h.withLock_rel hinv fun s k h hinv => ?_
  rw [h.findDeviceByIndex_eq hinv, Except.ok_bind]
  cases hfind : findDeviceByIndex iface devIndex k with
  | none => exact .ok ⟨rfl, h⟩
  | some d =>
      obtain ⟨s₁, k₁, hshut, hshut', h₁⟩ := h.shutdownDev_eq hinv (findDeviceByIndex_some hfind).1
      dsimp only [Option.map_some]
      rw [hshut, hshut']
      exact .ok ⟨rfl, h₁⟩

theorem hweGetPairCount_rel (h : Represents none s k) (hinv : StoreInv k) (iface : HweIface) (devIndex : Int) :
    Except.Rel Answers (Linked.hweGetPairCount iface devIndex s) (hweGetPairCount iface devIndex k) := by
  refine h.withLock_rel hinv fun s k h hinv => ?_
  rw [h.findDeviceByIndex_eq hinv, Except.ok_bind]
  cases hfind : findDeviceByIndex iface devIndex k with
  | none => exact .ok ⟨rfl, h⟩
  | some d =>
      dsimp only [Option.map_some]
      rw [h.derefDev (findDeviceByIndex_some hfind).1]
      exact .ok ⟨rfl, h⟩

theorem hweGetPair_rel (h : Represents none s k) (hinv : StoreInv k) (iface : HweIface)
    (devIndex pairIndex idx : Int) : Except.Rel Answers (Linked.hweGetPair iface devIndex pairIndex idx s)
      (hweGetPair iface devIndex pairIndex idx k) := by
  refine h.withLock_rel hinv fun s k h hinv => ?_
  rw [h.findDeviceByIndex_eq hinv, Except.ok_bind]
  cases hfind : findDeviceByIndex iface devIndex k with
  | none => exact .ok ⟨rfl, h⟩
  | some d =>
      have hd := (findDeviceByIndex_some hfind).1
      dsimp only [Option.map_some]
      rw [Linked.findInPairs_eq h hd (length_pairList hinv hd), Except.ok_bind]
      cases hpair : d.pairList.find? fun pair => (pair.index : Int) == idx with
      | none => exact .ok ⟨rfl, h⟩
      | some p =>
          dsimp only [Option.map_some]
          rw [h.derefPair hd (List.mem_of_find?_eq_some hpair)]
          exact .ok ⟨rfl, h⟩

theorem devAddStore_rel (h : Represents none s k) (hinv : StoreInv k) (HZ dev : Nat) (buf : List UInt8)
    (env : AddPairEnv w) :
    Except.Rel Answers (Linked.devAddStore HZ dev buf env s) (devAddStore HZ dev buf env k) := by
  refine (h.deref_rel dev).bind ?_
  rintro _ d ⟨hd, rfl, rfl⟩
  refine h.withLock_rel_of hinv fun s k h hinv hifaces => ?_
  have hd' : d ∈ k.devs := mem_devs_congr hifaces hd
  refine (h.addPair_rel hinv HZ env buf (some d) fun e he => Option.some.inj he ▸ hd').bind ?_
  rintro ⟨r, s₁⟩ ⟨_, k₁⟩ ⟨rfl, h₁⟩
  exact .ok ⟨rfl, h₁⟩

theorem hweAddPair_rel (h : Represents none s k) (hinv : StoreInv k) (HZ : Nat) (iface : HweIface)
    (devIndex : Int) (pairStr : List UInt8) (env : AddPairEnv w) :
    Except.Rel Answers (Linked.hweAddPair HZ iface devIndex pairStr env s)
      (hweAddPair HZ iface devIndex pairStr env k) := by
  refine h.withLock_rel hinv fun s k h hinv => ?_
  rw [h.findDeviceByIndex_eq hinv, Except.ok_bind]
  have hfound : ∀ d ∈ findDeviceByIndex iface devIndex k, d ∈ k.devs := fun d hd =>
    (findDeviceByIndex_some hd).1
  refine (h.addPair_rel hinv HZ env (cstr pairStr) _ hfound).bind ?_
  rintro ⟨r, s₁⟩ ⟨_, k₁⟩ ⟨rfl, h₁⟩
  exact .ok ⟨rfl, h₁⟩

theorem devDeleteStore_rel (h : Represents none s k) (hinv : StoreInv k) (dev : Nat) (buf : List UInt8) :
    Except.Rel Answers (Linked.devDeleteStore dev buf s) (devDeleteStore dev buf k) := by
  refine (h.deref_rel dev).bind ?_
  rintro _ d ⟨hd, rfl, rfl⟩
  refine h.withLock_rel_of hinv fun s k h hinv hifaces => ?_
  have hd' : d ∈ k.devs := mem_devs_congr hifaces hd
  split
  · exact .ok ⟨rfl, h⟩
  · cases kstrtouint buf with
    | none => exact .ok ⟨rfl, h⟩
    | some index =>
        dsimp only
        rw [h.getPairAtIndex_eq hinv hd', Except.ok_bind]
        cases hpair : getPairAtIndex d.pairList index with
        | none => exact .ok ⟨rfl, h⟩
        | some p =>
            obtain ⟨s₁, k₁, hdel, hdel', h₁⟩ := h.pairDelete_eq hinv hd' (getPairAtIndex_some hpair).1
            dsimp only [Option.map_some]
            rw [hdel, hdel']
            exact .ok ⟨rfl, h₁⟩

theorem hweDeletePair_rel (h : Represents none s k) (hinv : StoreInv k) (iface : HweIface)
    (devIndex pairIndex : Int) :
    Except.Rel Answers (Linked.hweDeletePair iface devIndex pairIndex s)
      (hweDeletePair iface devIndex pairIndex k) := by
  refine h.withLock_rel hinv fun s k h hinv => ?_
  rw [h.findDeviceByIndex_eq hinv, Except.ok_bind]
  cases hfind : findDeviceByIndex iface devIndex k with
  | none => exact .ok ⟨rfl, h⟩
  | some d =>
      have hd := (findDeviceByIndex_some hfind).1
      dsimp only [Option.map_some]
      rw [h.getPairAtIndex_eq hinv hd, Except.ok_bind]
      cases hpair : getPairAtIndex d.pairList (toSizeT pairIndex) with
      | none => exact .ok ⟨rfl, h⟩
      | some p =>
          obtain ⟨s₁, k₁, hdel, hdel', h₁⟩ := h.pairDelete_eq hinv hd (getPairAtIndex_some hpair).1
          dsimp only [Option.map_some]
          rw [hdel, hdel']
          exact .ok ⟨rfl, h₁⟩

theorem devClearStore_rel (h : Represents none s k) (hinv : StoreInv k) (dev : Nat) (buf : List UInt8) :
    Except.Rel Answers (Linked.devClearStore dev buf s) (devClearStore dev buf k) := by
  unfold Linked.devClearStore devClearStore
  split
  · exact .ok ⟨rfl, h⟩
  · refine (h.deref_rel dev).bind ?_
    rintro _ d ⟨hd, rfl, rfl⟩
    refine h.withLock_rel_of hinv fun s k h hinv hifaces => ?_
    obtain ⟨s₁, k₁, hclear, hclear', h₁⟩ := h.clearPairs_eq hinv (mem_devs_congr hifaces hd)
    rw [hclear, hclear']
    exact .ok ⟨rfl, h₁⟩

theorem hweClearPairs_rel (h : Represents none s k) (hinv : StoreInv k) (iface : HweIface) (devIndex : Int) :
    Except.Rel Answers (Linked.hweClearPairs iface devIndex s) (hweClearPairs iface devIndex k) := by
  refine h.withLock_rel hinv fun s k h hinv => ?_
  rw [h.findDeviceByIndex_eq hinv, Except.ok_bind]
  cases hfind : findDeviceByIndex iface devIndex k with
  | none => exact .ok ⟨rfl, h⟩
  | some d =>
      obtain ⟨s₁, k₁, hclear, hclear', h₁⟩ := h.clearPairs_eq hinv (findDeviceByIndex_some hfind).1
      dsimp only [Option.map_some]
      rw [hclear, hclear']
      exact .ok ⟨rfl, h₁⟩

/-! ### The read handlers -/

theorem devCountShow_rel (h : Represents none s k) (hinv : StoreInv k) (dev : Nat) :
    Except.Rel Answers (Linked.devCountShow dev s) (devCountShow dev k) := by
  refine (h.deref_rel dev).bind ?_
  rintro _ d ⟨hd, rfl, rfl⟩
  refine h.withLock_rel_of hinv fun s k h hinv hifaces => ?_
  rw [h.derefDev (mem_devs_congr hifaces hd), Except.ok_bind]
  exact .ok ⟨rfl, h⟩

theorem pairShow_rel (h : Represents none s k) (hinv : StoreInv k) (ifaceName devName filename : List UInt8) :
    Except.Rel Answers (Linked.pairShow ifaceName devName filename s)
      (pairShow ifaceName devName filename k) := by
  unfold Linked.pairShow pairShow
  cases kstrtol w filename with
  | none => exact .ok ⟨rfl, h⟩
  | some idx =>
      cases strToIface ifaceName with
      | none => exact .ok ⟨rfl, h⟩
      | some iface =>
          refine (h.withLock_rel hinv fun s k h hinv => ?_).bind ?_
          · rw [h.findDevice_eq hinv, Except.ok_bind]
            cases hfind : findDevice iface devName k with
            | none => exact .ok ⟨rfl, h⟩
            | some d =>
                have hd := findDevice_some hfind
                dsimp only [Option.map_some]
                rw [Linked.findInPairs_eq h hd (length_pairList hinv hd), Except.ok_bind]
                cases hpair : d.pairList.find? fun pair => (pair.index : Int) == idx with
                | none => exact .ok ⟨rfl, h⟩
                | some p =>
                    dsimp only [Option.map_some]
                    rw [h.derefPair hd (List.mem_of_find?_eq_some hpair)]
                    exact .ok ⟨rfl, h⟩
          · rintro ⟨ret, s₁⟩ ⟨_, k₁⟩ ⟨rfl, h₁⟩
            dsimp only
            split
            · exact .ok ⟨rfl, h₁⟩
            · exact .ok ⟨rfl, h₁⟩

/-! ### The commands -/

theorem ioctlAddDevice_rel (h : Represents none s k) (hinv : StoreInv k) (arg : Nat) (env : IoctlEnv w) :
    Except.Rel Answers (Linked.ioctlAddDevice arg env s) (ioctlAddDevice arg env k) := by
  unfold Linked.ioctlAddDevice ioctlAddDevice
  cases HweIface.ofNat? arg with
  | none => exact .ok ⟨rfl, h⟩
  | some iface =>
      refine (h.hweAddDevice_rel hinv iface env.newDev).bind ?_
      rintro ⟨idx, s₁⟩ ⟨_, k₁⟩ ⟨rfl, h₁⟩
      exact .ok ⟨rfl, h₁⟩

theorem ioctlReadPair_rel (h : Represents none s k) (hinv : StoreInv k) (hp : HweioctlPair) (env : IoctlEnv w) :
    Except.Rel Answers (Linked.ioctlReadPair hp env s) (ioctlReadPair hp env k) := by
  unfold Linked.ioctlReadPair ioctlReadPair
  cases env.getDeviceId with
  | false => exact .ok ⟨rfl, h⟩
  | true =>
      cases parseDevid (toSizeT hp.deviceId.toInt) with
      | none => exact .ok ⟨rfl, h⟩
      | some devid =>
          cases env.getPairIndex with
          | false => exact .ok ⟨rfl, h⟩
          | true =>
              cases env.kmalloc with
              | false => exact .ok ⟨rfl, h⟩
              | true =>
                  have hnext : s.alloc.1 = k.alloc.1 := congrArg Heap.next h.heap
                  dsimp only [Bool.not_true]
                  rw [hnext]
                  refine (h.alloc.hweGetPair_rel (hinv.congr rfl (Nat.le_succ _)) devid.1 devid.2
                    hp.pairIndex.toInt env.idx).bind ?_
                  rintro ⟨⟨ret, text⟩, s₁⟩ ⟨_, k₁⟩ ⟨rfl, h₁⟩
                  dsimp only
                  split
                  · exact .ok ⟨rfl, h₁.kfree _⟩
                  · exact .ok ⟨rfl, h₁.kfree _⟩

theorem ioctlWritePair_rel (h : Represents none s k) (hinv : StoreInv k) (HZ : Nat) (hp : HweioctlPair)
    (env : IoctlEnv w) :
    Except.Rel Answers (Linked.ioctlWritePair HZ hp env s) (ioctlWritePair HZ hp env k) := by
  unfold Linked.ioctlWritePair ioctlWritePair
  cases env.getDeviceId with
  | false => exact .ok ⟨rfl, h⟩
  | true =>
      cases parseDevid (toSizeT hp.deviceId.toInt) with
      | none => exact .ok ⟨rfl, h⟩
      | some devid =>
          cases env.kmalloc with
          | false => exact .ok ⟨rfl, h⟩
          | true =>
              cases env.copyFromUser with
              | false => exact .ok ⟨rfl, h.alloc⟩
              | true =>
                  have hnext : s.alloc.1 = k.alloc.1 := congrArg Heap.next h.heap
                  dsimp only [Bool.not_true]
                  rw [hnext]
                  refine (h.alloc.hweAddPair_rel (hinv.congr rfl (Nat.le_succ _)) HZ devid.1 devid.2
                    (hp.pair.take hweMaxPairStr ++ [0]) env.addPair).bind ?_
                  rintro ⟨ret, s₁⟩ ⟨_, k₁⟩ ⟨rfl, h₁⟩
                  dsimp only
                  split
                  · exact .ok ⟨rfl, h₁.kfree _⟩
                  · split
                    · exact .ok ⟨rfl, h₁.kfree _⟩
                    · exact .ok ⟨rfl, h₁.kfree _⟩

theorem ioctlDeletePair_rel (h : Represents none s k) (hinv : StoreInv k) (hp : HweioctlPair)
    (env : IoctlEnv w) :
    Except.Rel Answers (Linked.ioctlDeletePair hp env s) (ioctlDeletePair hp env k) := by
  unfold Linked.ioctlDeletePair ioctlDeletePair
  cases env.getDeviceId with
  | false => exact .ok ⟨rfl, h⟩
  | true =>
      cases parseDevid (toSizeT hp.deviceId.toInt) with
      | none => exact .ok ⟨rfl, h⟩
      | some devid =>
          cases env.getPairIndex with
          | false => exact .ok ⟨rfl, h⟩
          | true => exact h.hweDeletePair_rel hinv devid.1 devid.2 hp.pairIndex.toInt

/-- The commands whose argument is the number of a device. -/
theorem parseDevid_rel (h : Represents none s k) (arg : Nat)
    {f : HweIface → Nat → LinkedKernel w → Except Fault (Int × LinkedKernel w)}
    {g : HweIface → Nat → Kernel w → Except Fault (Int × Kernel w)}
    (hfg : ∀ ifc idx, Except.Rel Answers (f ifc idx s) (g ifc idx k)) :
    Except.Rel Answers
      (match parseDevid arg with
        | none => return (-einval, s)
        | some (ifc, idx) => f ifc idx s)
      (match parseDevid arg with
        | none => return (-einval, k)
        | some (ifc, idx) => g ifc idx k) := by
  cases parseDevid arg with
  | none => exact .ok ⟨rfl, h⟩
  | some devid => exact hfg devid.1 devid.2

/-- The structure of the caller is not written to. -/
theorem withPair_rel {x : Except Fault (Int × LinkedKernel w)} {y : Except Fault (Int × Kernel w)}
    (hxy : Except.Rel Answers x y) (hp : HweioctlPair) :
    Except.Rel Answers (do
        let (ret, s) ← x
        return ((ret, hp), s)) (do
        let (ret, k) ← y
        return ((ret, hp), k)) := by
  refine hxy.bind ?_
  rintro ⟨ret, s₁⟩ ⟨_, k₁⟩ ⟨rfl, h₁⟩
  exact .ok ⟨rfl, h₁⟩

theorem hwemuIoctl_rel (h : Represents none s k) (hinv : StoreInv k) (HZ cmd arg : Nat) (hp : HweioctlPair)
    (env : IoctlEnv w) :
    Except.Rel Answers (Linked.hwemuIoctl HZ cmd arg hp env s) (hwemuIoctl HZ cmd arg hp env k) := by
  unfold Linked.hwemuIoctl hwemuIoctl
  cases IoctlCmd.ofCode cmd with
  | readPair => exact h.ioctlReadPair_rel hinv hp env
  | writePair => exact h.ioctlWritePair_rel hinv HZ hp env
  | addDevice => exact withPair_rel (h.ioctlAddDevice_rel hinv arg env) hp
  | uninstallDevice =>
      exact withPair_rel (h.parseDevid_rel arg fun ifc idx => h.hweDeleteDevice_rel hinv ifc idx) hp
  | pairCount => exact withPair_rel (h.parseDevid_rel arg fun ifc idx => h.hweGetPairCount_rel hinv ifc idx) hp
  | deletePair => exact withPair_rel (h.ioctlDeletePair_rel hinv hp env) hp
  | clearPairs => exact withPair_rel (h.parseDevid_rel arg fun ifc idx => h.hweClearPairs_rel hinv ifc idx) hp
  | other => exact .ok ⟨rfl, h⟩

end Represents

end Hwemu
