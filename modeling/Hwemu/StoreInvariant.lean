import Hwemu.PairText
import Hwemu.Sysfs

/-!
# The invariant of the store

What holds of every device record and of the store as a whole, and the few ways in which an
operation can change the store. Every operation makes one of these changes; each change keeps the
invariant.
-/

namespace Hwemu

variable {w : Nat}

/-! ### Devices -/

/-- The bitmap and the list of a device agree, and every pair is owned, valid and addressed once. -/
structure Dev.Ok (d : Dev w) : Prop where
  indexes : Bitmap.Tracks d.pairsIndexes (d.pairList.map (·.index))
  owner : ∀ p ∈ d.pairList, p.dev = d.addr
  valid : ∀ p ∈ d.pairList, p.Valid
  filename : ∀ p ∈ d.pairList, p.filename = decimal p.index
  distinct : d.pairList.Pairwise fun p q => p.asyncRx = false → q.asyncRx = false → p.req ≠ q.req
  addrs : (d.pairList.map (·.addr)).Nodup

def Dev.addPair (d : Dev w) (p : Pair w) : Dev w :=
  { d with
    pairsIndexes := Bitmap.setBit p.index d.pairsIndexes
    pairList := d.pairList ++ [p] }

def Dev.removePair (d : Dev w) (p : Pair w) : Dev w :=
  { d with
    pairsIndexes := Bitmap.clearBit p.index d.pairsIndexes
    pairList := d.pairList.filter fun q => q.addr ≠ p.addr }

def Dev.noPairs (d : Dev w) : Dev w := { d with pairsIndexes := 0, pairList := [] }

/-- A pair that the checks of an addition let through. -/
structure Dev.Accepts (d : Dev w) (p : Pair w) : Prop where
  valid : p.Valid
  owner : p.dev = d.addr
  index : p.index = Bitmap.findFirstZeroBit d.pairsIndexes
  filename : p.filename = decimal p.index
  room : p.index ≠ hweMaxPairs
  unmatched : findPair d.pairList p.req p.req.length = none
  fresh : ∀ q ∈ d.pairList, q.addr ≠ p.addr
  unfired : p.asyncRx = true → p.time = 0

namespace Dev.Ok

variable {d : Dev w} {p q : Pair w}

theorem eq_of_addr (h : d.Ok) (hp : p ∈ d.pairList) (hq : q ∈ d.pairList) (haddr : p.addr = q.addr) :
    p = q :=
  List.inj_on_of_nodup_map h.addrs hp hq haddr

theorem eq_of_index (h : d.Ok) (hp : p ∈ d.pairList) (hq : q ∈ d.pairList)
    (hindex : p.index = q.index) : p = q :=
  List.inj_on_of_nodup_map h.indexes.nodup hp hq hindex

theorem index_lt (h : d.Ok) (hp : p ∈ d.pairList) : p.index < hweMaxPairs :=
  h.indexes.lt (List.mem_map_of_mem hp)

/-- Taking out a pair by its address is taking it out by its index. -/
theorem addr_ne_iff (h : d.Ok) (hp : p ∈ d.pairList) (hq : q ∈ d.pairList) :
    q.addr ≠ p.addr ↔ q.index ≠ p.index := by
  apply not_congr
  constructor
  · intro haddr
    rw [h.eq_of_addr hq hp haddr]
  · intro hindex
    rw [h.eq_of_index hq hp hindex]

end Dev.Ok

theorem findPair_eq_none_iff {list : List (Pair w)} {request : List UInt8} :
    findPair list request request.length = none ↔
      ∀ p ∈ list, p.asyncRx = false → p.req ≠ request := by
  simp only [findPair, List.find?_eq_none, List.take_length, Bool.and_eq_true, Bool.not_eq_true',
    beq_iff_eq, not_and]
  constructor
  · intro h p hp hsync heq
    exact h p hp ⟨hsync, by rw [heq]⟩ heq
  · intro h p hp hsync
    exact h p hp hsync.1

theorem findPair_some {list : List (Pair w)} {request : List UInt8} {p : Pair w}
    (h : findPair list request request.length = some p) :
    p ∈ list ∧ p.asyncRx = false ∧ p.req = request := by
  have hmatch := List.find?_some h
  simp only [List.take_length, Bool.and_eq_true, Bool.not_eq_true', beq_iff_eq] at hmatch
  exact ⟨List.mem_of_find?_eq_some h, hmatch.1.1, hmatch.2⟩

theorem Dev.Ok.noPairs {d : Dev w} : d.noPairs.Ok :=
  ⟨Bitmap.Tracks.zero, by simp [Dev.noPairs], by simp [Dev.noPairs], by simp [Dev.noPairs],
    List.Pairwise.nil, List.nodup_nil⟩

theorem Dev.Ok.addPair {d : Dev w} {p : Pair w} (h : d.Ok) (hp : d.Accepts p) : (d.addPair p).Ok := by
  have hlt : p.index < hweMaxPairs := by
    have hle := Bitmap.findFirstZeroBit_le d.pairsIndexes
    have hne := hp.room
    rw [hp.index] at hne ⊢
    omega
  have hfree : p.index ∉ d.pairList.map (·.index) := by
    rw [hp.index]
    exact h.indexes.notMem_findFirstZeroBit
  constructor
  · have htracks := h.indexes.concat hlt hfree
    simpa [Dev.addPair] using htracks
  · intro q hq
    rcases List.mem_append.mp hq with hold | hnew
    · exact h.owner q hold
    · rw [List.mem_singleton.mp hnew]
      exact hp.owner
  · intro q hq
    rcases List.mem_append.mp hq with hold | hnew
    · exact h.valid q hold
    · rw [List.mem_singleton.mp hnew]
      exact hp.valid
  · intro q hq
    rcases List.mem_append.mp hq with hold | hnew
    · exact h.filename q hold
    · rw [List.mem_singleton.mp hnew]
      exact hp.filename
  · refine List.pairwise_append.mpr ⟨h.distinct, List.pairwise_singleton _ _, ?_⟩
    intro q hq r hr hsync _
    rw [List.mem_singleton.mp hr]
    exact findPair_eq_none_iff.mp hp.unmatched q hq hsync
  · have hnew : p.addr ∉ d.pairList.map (·.addr) := by
      intro hmem
      obtain ⟨q, hq, haddr⟩ := List.mem_map.mp hmem
      exact hp.fresh q hq haddr
    have hperm := List.perm_append_singleton p.addr (d.pairList.map (·.addr))
    simpa [Dev.addPair] using hperm.nodup_iff.mpr (List.nodup_cons.mpr ⟨hnew, h.addrs⟩)

theorem Dev.Ok.removePair {d : Dev w} {p : Pair w} (h : d.Ok) (hp : p ∈ d.pairList) :
    (d.removePair p).Ok := by
  have hsub : (d.removePair p).pairList.Sublist d.pairList := List.filter_sublist
  have hmem : ∀ q ∈ (d.removePair p).pairList, q ∈ d.pairList := fun q hq => hsub.mem hq
  constructor
  · have htracks := h.indexes.filter_ne p.index
    have hlist : (d.removePair p).pairList.map (·.index) =
        (d.pairList.map (·.index)).filter fun j => decide (j ≠ p.index) := by
      rw [List.filter_map]
      congr 1
      apply List.filter_congr
      intro q hq
      exact decide_eq_decide.mpr (h.addr_ne_iff hp hq)
    rwa [← hlist] at htracks
  · exact fun q hq => h.owner q (hmem q hq)
  · exact fun q hq => h.valid q (hmem q hq)
  · exact fun q hq => h.filename q (hmem q hq)
  · exact h.distinct.sublist hsub
  · exact h.addrs.sublist (hsub.map _)

/-! ### The store -/

/-- What a device looks like once `new_dev` has succeeded. -/
structure Dev.Published (d : Dev w) : Prop where
  name : d.name = devName d.iface d.index
  device : d.device.isSome = true
  pairsKobj : d.pairsKobj = true

structure StoreInv (k : Kernel w) : Prop where
  indexes : ∀ iface, Bitmap.Tracks (k.ifaces iface).devIndexes ((k.ifaces iface).devList.map (·.index))
  iface : ∀ iface, ∀ d ∈ (k.ifaces iface).devList, d.iface = iface
  ok : ∀ d ∈ k.devs, d.Ok
  published : ∀ d ∈ k.devs, d.Published
  devAddr : ∀ d ∈ k.devs, ∀ d' ∈ k.devs, d.addr = d'.addr → d = d'
  pairAddr : ∀ d ∈ k.devs, ∀ d' ∈ k.devs, ∀ p ∈ d.pairList, ∀ p' ∈ d'.pairList,
    p.addr = p'.addr → d = d'
  devFresh : ∀ d ∈ k.devs, d.addr < k.heap.next
  pairFresh : ∀ d ∈ k.devs, ∀ p ∈ d.pairList, p.addr < k.heap.next

namespace Kernel

variable {k : Kernel w} {d : Dev w}

theorem mem_devs : d ∈ k.devs ↔ ∃ iface, d ∈ (k.ifaces iface).devList := by
  unfold devs
  rw [List.mem_flatMap]
  constructor
  · rintro ⟨iface, _, hd⟩
    exact ⟨iface, hd⟩
  · rintro ⟨iface, hd⟩
    exact ⟨iface, iface.mem_all, hd⟩

theorem mem_devs_of_mem {iface : HweIface} (h : d ∈ (k.ifaces iface).devList) : d ∈ k.devs :=
  mem_devs.mpr ⟨iface, h⟩

/-- The devices after a write to one of them. -/
theorem mem_devs_modifyDev {a : Nat} {f : Dev w → Dev w} :
    d ∈ (k.modifyDev a f).devs ↔ ∃ d₀ ∈ k.devs, (if d₀.addr = a then f d₀ else d₀) = d := by
  simp only [mem_devs, modifyDev, List.mem_map]
  constructor
  · rintro ⟨iface, d₀, hd₀, heq⟩
    exact ⟨d₀, ⟨iface, hd₀⟩, heq⟩
  · rintro ⟨d₀, ⟨iface, hd₀⟩, heq⟩
    exact ⟨iface, d₀, hd₀, heq⟩

end Kernel

namespace StoreInv

variable {k k' : Kernel w} {d : Dev w}

theorem mem_devs (h : StoreInv k) : d ∈ k.devs ↔ d ∈ (k.ifaces d.iface).devList := by
  constructor
  · intro hd
    obtain ⟨iface, hmem⟩ := Kernel.mem_devs.mp hd
    rwa [h.iface iface d hmem]
  · exact Kernel.mem_devs_of_mem

theorem deref_eq (h : StoreInv k) (hd : d ∈ k.devs) : k.deref d.addr = .ok d := by
  unfold Kernel.deref
  cases hfind : k.devs.find? fun d' => d'.addr == d.addr with
  | none =>
      have hne := List.find?_eq_none.mp hfind d hd
      simp at hne
  | some d' =>
      have haddr : d'.addr = d.addr := by simpa using List.find?_some hfind
      rw [h.devAddr d' (List.mem_of_find?_eq_some hfind) d hd haddr]

/-- Nothing else of the kernel enters the invariant, and the heap may only grow. -/
theorem congr (h : StoreInv k) (hifaces : k'.ifaces = k.ifaces)
    (hnext : k.heap.next ≤ k'.heap.next) : StoreInv k' := by
  have hdevs : k'.devs = k.devs := by
    unfold Kernel.devs
    rw [hifaces]
  constructor
  · rw [hifaces]
    exact h.indexes
  · rw [hifaces]
    exact h.iface
  · rw [hdevs]
    exact h.ok
  · rw [hdevs]
    exact h.published
  · rw [hdevs]
    exact h.devAddr
  · rw [hdevs]
    exact h.pairAddr
  · intro d hd
    rw [hdevs] at hd
    exact lt_of_lt_of_le (h.devFresh d hd) hnext
  · intro d hd p hp
    rw [hdevs] at hd
    exact lt_of_lt_of_le (h.pairFresh d hd p hp) hnext

end StoreInv

/-- A store without devices. -/
theorem StoreInv.of_empty {k : Kernel w} (hifaces : k.ifaces = fun _ => { devList := [], devIndexes := 0 }) :
    StoreInv k := by
  have hdevs : k.devs = [] := by
    unfold Kernel.devs
    rw [hifaces]
    rfl
  constructor
  · intro iface
    rw [hifaces]
    exact Bitmap.Tracks.zero
  · intro iface d hd
    rw [hifaces] at hd
    exact absurd hd List.not_mem_nil
  all_goals
    intro d hd
    rw [hdevs] at hd
    exact absurd hd List.not_mem_nil

theorem StoreInv.loaded : StoreInv (Kernel.loaded w) := .of_empty rfl

theorem mem_devs_congr {k k' : Kernel w} {d : Dev w} (hifaces : k'.ifaces = k.ifaces)
    (hd : d ∈ k.devs) : d ∈ k'.devs := by
  unfold Kernel.devs
  rw [hifaces]
  exact hd

/-! ### Changes -/

/-- What an operation can do to the lists and bitmaps of the store. -/
inductive Change (w : Nat) where
  | keep
  | addDev (d : Dev w)
  | removeDev (d : Dev w)
  | addPair (dev : Nat) (p : Pair w)
  | removePair (dev : Nat) (p : Pair w)
  | clearPairs (dev : Nat)

namespace Change

def apply : Change w → Kernel w → Kernel w
  | keep, k => k
  | addDev d, k => k.setIface d.iface
      { devList := d :: (k.ifaces d.iface).devList
        devIndexes := Bitmap.setBit d.index (k.ifaces d.iface).devIndexes }
  | removeDev d, k => k.setIface d.iface
      { devList := (k.ifaces d.iface).devList.filter fun d' => d'.addr ≠ d.addr
        devIndexes := Bitmap.clearBit d.index (k.ifaces d.iface).devIndexes }
  | addPair dev p, k => k.modifyDev dev fun d => d.addPair p
  | removePair dev p, k => k.modifyDev dev fun d => d.removePair p
  | clearPairs dev, k => k.modifyDev dev Dev.noPairs

/-- What is known of the change an operation makes in the store `k`; `next` bounds the addresses
used up to its end. -/
def Allowed (k : Kernel w) (next : Nat) : Change w → Prop
  | keep => True
  | addDev d => d.pairList = [] ∧ d.pairsIndexes = 0 ∧ d.Published ∧ k.heap.next ≤ d.addr ∧
      d.addr < next ∧ d.index ≠ hweMaxDevices ∧
      d.index = Bitmap.findFirstZeroBit (k.ifaces d.iface).devIndexes
  | removeDev d => d ∈ k.devs
  | addPair dev p => (∃ d ∈ k.devs, d.addr = dev ∧ d.Accepts p) ∧ k.heap.next ≤ p.addr ∧ p.addr < next
  | removePair dev p => ∃ d ∈ k.devs, d.addr = dev ∧ p ∈ d.pairList
  | clearPairs dev => ∃ d ∈ k.devs, d.addr = dev

/-- The change removes nothing. -/
def Adds : Change w → Prop
  | keep => True
  | addDev _ => True
  | addPair _ _ => True
  | _ => False

/-- The change leaves the lists of devices alone. -/
def OnPairs : Change w → Prop
  | addDev _ => False
  | removeDev _ => False
  | _ => True

/-- The change takes the pair at `pair` from the list of the device at `dev`, or the device with it. -/
def Drops (dev pair : Nat) : Change w → Prop
  | removeDev d => d.addr = dev
  | removePair dev' p => dev' = dev ∧ p.addr = pair
  | clearPairs dev' => dev' = dev
  | _ => False

end Change

/-- The kernel `k'` is `k` after the change `c`, with memory allocated and freed on the way. -/
structure Changed (c : Change w) (k k' : Kernel w) : Prop where
  ifaces : k'.ifaces = (c.apply k).ifaces
  sems : k'.sems = k.sems
  next : k.heap.next ≤ k'.heap.next
  allowed : c.Allowed k k'.heap.next

namespace StoreInv

variable {k k' : Kernel w} {d : Dev w}

theorem addDev (h : StoreInv k) (hc : Changed (.addDev d) k k') : StoreInv k' := by
  obtain ⟨hpairs, hbits, hpub, hfresh, hnext, hroom, hindex⟩ := hc.allowed
  have hself : (k'.ifaces d.iface) =
      { devList := d :: (k.ifaces d.iface).devList
        devIndexes := Bitmap.setBit d.index (k.ifaces d.iface).devIndexes } := by
    rw [hc.ifaces]
    exact Function.update_self ..
  have hother : ∀ iface, iface ≠ d.iface → k'.ifaces iface = k.ifaces iface := by
    intro iface hne
    rw [hc.ifaces]
    exact Function.update_of_ne hne ..
  have hdevs : ∀ d', d' ∈ k'.devs → d' = d ∨ d' ∈ k.devs := by
    intro d' hd'
    obtain ⟨iface, hmem⟩ := Kernel.mem_devs.mp hd'
    by_cases heq : iface = d.iface
    · rw [heq, hself] at hmem
      exact (List.mem_cons.mp hmem).imp_right Kernel.mem_devs_of_mem
    · rw [hother iface heq] at hmem
      exact Or.inr (Kernel.mem_devs_of_mem hmem)
  have hne : ∀ d' ∈ k.devs, d'.addr ≠ d.addr := fun d' hd' =>
    Nat.ne_of_lt (lt_of_lt_of_le (h.devFresh d' hd') hfresh)
  have hok : d.Ok := by
    have hd : d = d.noPairs := by
      cases d
      simp_all [Dev.noPairs]
    rw [hd]
    exact Dev.Ok.noPairs
  constructor
  · intro iface
    by_cases heq : iface = d.iface
    · rw [heq, hself]
      have hle := Bitmap.findFirstZeroBit_le (k.ifaces d.iface).devIndexes
      have hlt : d.index < hweMaxDevices := by omega
      have hfree : d.index ∉ (k.ifaces d.iface).devList.map (·.index) := by
        rw [hindex]
        exact (h.indexes d.iface).notMem_findFirstZeroBit
      exact (h.indexes d.iface).cons hlt hfree
    · rw [hother iface heq]
      exact h.indexes iface
  · intro iface d' hd'
    by_cases heq : iface = d.iface
    · rw [heq, hself] at hd'
      rcases List.mem_cons.mp hd' with rfl | hold
      · exact heq.symm
      · rw [heq]
        exact h.iface d.iface d' hold
    · rw [hother iface heq] at hd'
      exact h.iface iface d' hd'
  · intro d' hd'
    rcases hdevs d' hd' with rfl | hold
    · exact hok
    · exact h.ok d' hold
  · intro d' hd'
    rcases hdevs d' hd' with rfl | hold
    · exact hpub
    · exact h.published d' hold
  · intro d₁ hd₁ d₂ hd₂ haddr
    rcases hdevs d₁ hd₁ with rfl | hold₁
    · rcases hdevs d₂ hd₂ with rfl | hold₂
      · rfl
      · exact absurd haddr.symm (hne d₂ hold₂)
    · rcases hdevs d₂ hd₂ with rfl | hold₂
      · exact absurd haddr (hne d₁ hold₁)
      · exact h.devAddr d₁ hold₁ d₂ hold₂ haddr
  · intro d₁ hd₁ d₂ hd₂ p hp p' hp' haddr
    rcases hdevs d₁ hd₁ with rfl | hold₁
    · rw [hpairs] at hp
      exact absurd hp List.not_mem_nil
    · rcases hdevs d₂ hd₂ with rfl | hold₂
      · rw [hpairs] at hp'
        exact absurd hp' List.not_mem_nil
      · exact h.pairAddr d₁ hold₁ d₂ hold₂ p hp p' hp' haddr
  · intro d' hd'
    rcases hdevs d' hd' with rfl | hold
    · exact hnext
    · exact lt_of_lt_of_le (h.devFresh d' hold) hc.next
  · intro d' hd' p hp
    rcases hdevs d' hd' with rfl | hold
    · rw [hpairs] at hp
      exact absurd hp List.not_mem_nil
    · exact lt_of_lt_of_le (h.pairFresh d' hold p hp) hc.next

/-- The devices left when one is removed. -/
theorem mem_devs_removeDev (h : StoreInv k) (hd : d ∈ k.devs) {d' : Dev w} :
    d' ∈ ((Change.removeDev d).apply k).devs ↔ d' ∈ k.devs ∧ d'.addr ≠ d.addr := by
  constructor
  · intro hd'
    obtain ⟨iface, hmem⟩ := Kernel.mem_devs.mp hd'
    by_cases heq : iface = d.iface
    · subst heq
      simp only [Change.apply, Kernel.setIface, Function.update_self, List.mem_filter,
        decide_eq_true_eq] at hmem
      exact ⟨Kernel.mem_devs_of_mem hmem.1, hmem.2⟩
    · simp only [Change.apply, Kernel.setIface, Function.update_of_ne heq] at hmem
      have hmem' := Kernel.mem_devs_of_mem hmem
      refine ⟨hmem', ?_⟩
      intro haddr
      rw [h.devAddr d' hmem' d hd haddr] at hmem
      exact heq (h.iface iface d hmem).symm
  · rintro ⟨hmem, hne⟩
    refine Kernel.mem_devs.mpr ⟨d'.iface, ?_⟩
    have hlist := h.mem_devs.mp hmem
    by_cases heq : d'.iface = d.iface
    · rw [heq] at hlist ⊢
      simp only [Change.apply, Kernel.setIface, Function.update_self, List.mem_filter,
        decide_eq_true_eq]
      exact ⟨hlist, hne⟩
    · simpa only [Change.apply, Kernel.setIface, Function.update_of_ne heq] using hlist

theorem removeDev (h : StoreInv k) (hc : Changed (.removeDev d) k k') : StoreInv k' := by
  have hd : d ∈ k.devs := hc.allowed
  have hdevs : ∀ d' ∈ k'.devs, d' ∈ k.devs := by
    intro d' hd'
    have heq : k'.devs = ((Change.removeDev d).apply k).devs := by
      unfold Kernel.devs
      rw [hc.ifaces]
    rw [heq] at hd'
    exact ((h.mem_devs_removeDev hd).mp hd').1
  constructor
  · intro iface
    rw [hc.ifaces]
    by_cases heq : iface = d.iface
    · subst heq
      simp only [Change.apply, Kernel.setIface, Function.update_self]
      have htracks := (h.indexes d.iface).filter_ne d.index
      have hlist : ((k.ifaces d.iface).devList.filter fun d' => d'.addr ≠ d.addr).map (·.index) =
          ((k.ifaces d.iface).devList.map (·.index)).filter fun j => decide (j ≠ d.index) := by
        rw [List.filter_map]
        congr 1
        apply List.filter_congr
        intro d' hd'
        apply decide_eq_decide.mpr
        apply not_congr
        constructor
        · intro haddr
          rw [h.devAddr d' (Kernel.mem_devs_of_mem hd') d hd haddr]
        · intro hindex
          rw [List.inj_on_of_nodup_map (h.indexes d.iface).nodup hd' (h.mem_devs.mp hd) hindex]
      rwa [hlist]
    · simp only [Change.apply, Kernel.setIface, Function.update_of_ne heq]
      exact h.indexes iface
  · intro iface d' hd'
    rw [hc.ifaces] at hd'
    by_cases heq : iface = d.iface
    · subst heq
      simp only [Change.apply, Kernel.setIface, Function.update_self] at hd'
      exact h.iface _ d' (List.mem_of_mem_filter hd')
    · simp only [Change.apply, Kernel.setIface, Function.update_of_ne heq] at hd'
      exact h.iface iface d' hd'
  · exact fun d' hd' => h.ok d' (hdevs d' hd')
  · exact fun d' hd' => h.published d' (hdevs d' hd')
  · exact fun d₁ hd₁ d₂ hd₂ => h.devAddr d₁ (hdevs d₁ hd₁) d₂ (hdevs d₂ hd₂)
  · exact fun d₁ hd₁ d₂ hd₂ => h.pairAddr d₁ (hdevs d₁ hd₁) d₂ (hdevs d₂ hd₂)
  · exact fun d' hd' => lt_of_lt_of_le (h.devFresh d' (hdevs d' hd')) hc.next
  · exact fun d' hd' p hp => lt_of_lt_of_le (h.pairFresh d' (hdevs d' hd') p hp) hc.next

/-- A write to the pair list and the pair bitmap of one device, `d`. New pairs get new addresses. -/
theorem modifyDev (h : StoreInv k) (hd : d ∈ k.devs) {f : Dev w → Dev w}
    (hf : ∀ d, f d = { d with pairList := (f d).pairList, pairsIndexes := (f d).pairsIndexes })
    (hok : (f d).Ok) (hifaces : k'.ifaces = (k.modifyDev d.addr f).ifaces)
    (hnext : k.heap.next ≤ k'.heap.next)
    (hpairs : ∀ p ∈ (f d).pairList, (∃ q ∈ d.pairList, q.addr = p.addr) ∨
      (k.heap.next ≤ p.addr ∧ p.addr < k'.heap.next)) : StoreInv k' := by
  -- every device of `k'` is `f d` or a device of `k` other than `d`
  have hdevs : ∀ d', d' ∈ k'.devs → d' = f d ∨ (d' ∈ k.devs ∧ d'.addr ≠ d.addr) := by
    intro d' hd'
    have heq : k'.devs = (k.modifyDev d.addr f).devs := by
      unfold Kernel.devs
      rw [hifaces]
    rw [heq] at hd'
    obtain ⟨d₀, hd₀, hd'⟩ := Kernel.mem_devs_modifyDev.mp hd'
    by_cases haddr : d₀.addr = d.addr
    · rw [if_pos haddr, h.devAddr d₀ hd₀ d hd haddr] at hd'
      exact Or.inl hd'.symm
    · rw [if_neg haddr] at hd'
      rw [← hd']
      exact Or.inr ⟨hd₀, haddr⟩
  have haddr : ∀ d, (f d).addr = d.addr := fun d => by rw [hf d]
  have hindex : ∀ d, (f d).index = d.index := fun d => by rw [hf d]
  have hiface : ∀ d, (f d).iface = d.iface := fun d => by rw [hf d]
  -- the addresses of the pairs of `f d` belong to no other device
  have hforeign : ∀ p ∈ (f d).pairList, ∀ d' ∈ k.devs, d'.addr ≠ d.addr → ∀ p' ∈ d'.pairList,
      p.addr ≠ p'.addr := by
    intro p hp d' hd' hne p' hp' heq
    rcases hpairs p hp with ⟨q, hq, hqp⟩ | ⟨hlow, _⟩
    · exact hne (by rw [h.pairAddr d' hd' d hd p' hp' q hq (heq.symm.trans hqp.symm)])
    · have hlt := h.pairFresh d' hd' p' hp'
      omega
  constructor
  · intro iface
    rw [hifaces]
    simp only [Kernel.modifyDev, List.map_map]
    have hmap : ((k.ifaces iface).devList.map
        ((·.index) ∘ fun d' => if d'.addr = d.addr then f d' else d')) =
        (k.ifaces iface).devList.map (·.index) := by
      apply List.map_congr_left
      intro d' _
      by_cases heq : d'.addr = d.addr
      · rw [Function.comp_apply, if_pos heq, hindex]
      · rw [Function.comp_apply, if_neg heq]
    rw [hmap]
    exact h.indexes iface
  · intro iface d' hd'
    rw [hifaces] at hd'
    obtain ⟨d₀, hd₀, hd'⟩ := List.mem_map.mp hd'
    rw [← hd', ← h.iface iface d₀ hd₀]
    by_cases heq : d₀.addr = d.addr
    · rw [if_pos heq, hiface]
    · rw [if_neg heq]
  · intro d' hd'
    rcases hdevs d' hd' with rfl | ⟨hold, _⟩
    · exact hok
    · exact h.ok d' hold
  · intro d' hd'
    rcases hdevs d' hd' with rfl | ⟨hold, _⟩
    · have hpub := h.published d hd
      rw [hf d]
      exact ⟨hpub.name, hpub.device, hpub.pairsKobj⟩
    · exact h.published d' hold
  · intro d₁ hd₁ d₂ hd₂ heq
    rcases hdevs d₁ hd₁ with rfl | ⟨hold₁, hne₁⟩
    · rcases hdevs d₂ hd₂ with rfl | ⟨hold₂, hne₂⟩
      · rfl
      · exact absurd (heq.symm.trans (haddr d)) hne₂
    · rcases hdevs d₂ hd₂ with rfl | ⟨hold₂, hne₂⟩
      · exact absurd (heq.trans (haddr d)) hne₁
      · exact h.devAddr d₁ hold₁ d₂ hold₂ heq
  · intro d₁ hd₁ d₂ hd₂ p hp p' hp' heq
    rcases hdevs d₁ hd₁ with rfl | ⟨hold₁, hne₁⟩
    · rcases hdevs d₂ hd₂ with rfl | ⟨hold₂, hne₂⟩
      · rfl
      · exact absurd heq (hforeign p hp d₂ hold₂ hne₂ p' hp')
    · rcases hdevs d₂ hd₂ with rfl | ⟨hold₂, hne₂⟩
      · exact absurd heq.symm (hforeign p' hp' d₁ hold₁ hne₁ p hp)
      · exact h.pairAddr d₁ hold₁ d₂ hold₂ p hp p' hp' heq
  · intro d' hd'
    rcases hdevs d' hd' with rfl | ⟨hold, _⟩
    · rw [haddr]
      exact lt_of_lt_of_le (h.devFresh d hd) hnext
    · exact lt_of_lt_of_le (h.devFresh d' hold) hnext
  · intro d' hd' p hp
    rcases hdevs d' hd' with rfl | ⟨hold, _⟩
    · rcases hpairs p hp with ⟨q, hq, hqp⟩ | ⟨_, hlt⟩
      · have hlt := h.pairFresh d hd q hq
        omega
      · exact hlt
    · exact lt_of_lt_of_le (h.pairFresh d' hold p hp) hnext

/-- **Every change keeps the invariant.** -/
theorem changed {c : Change w} (h : StoreInv k) (hc : Changed c k k') : StoreInv k' := by
  cases c with
  | keep => exact h.congr hc.ifaces hc.next
  | addDev d => exact h.addDev hc
  | removeDev d => exact h.removeDev hc
  | addPair dev p =>
      obtain ⟨⟨d, hd, rfl, haccepts⟩, hlow, hhigh⟩ := hc.allowed
      refine h.modifyDev hd (fun _ => rfl) ((h.ok d hd).addPair haccepts) hc.ifaces hc.next ?_
      intro q hq
      rcases List.mem_append.mp hq with hold | hnew
      · exact Or.inl ⟨q, hold, rfl⟩
      · rw [List.mem_singleton.mp hnew]
        exact Or.inr ⟨hlow, hhigh⟩
  | removePair dev p =>
      obtain ⟨d, hd, rfl, hp⟩ := hc.allowed
      refine h.modifyDev hd (fun _ => rfl) ((h.ok d hd).removePair hp) hc.ifaces hc.next ?_
      intro q hq
      exact Or.inl ⟨q, List.mem_of_mem_filter hq, rfl⟩
  | clearPairs dev =>
      obtain ⟨d, hd, rfl⟩ := hc.allowed
      refine h.modifyDev hd (fun _ => rfl) Dev.Ok.noPairs hc.ifaces hc.next ?_
      intro q hq
      exact absurd hq List.not_mem_nil

end StoreInv

/-! ### What becomes of a device and of a pair -/

/-- The record of a device after a change that does not remove it. -/
def Change.onDev : Change w → Dev w → Dev w
  | addPair dev p, d => if d.addr = dev then d.addPair p else d
  | removePair dev p, d => if d.addr = dev then d.removePair p else d
  | clearPairs dev, d => if d.addr = dev then d.noPairs else d
  | _, d => d

section

variable {k k' : Kernel w} {d : Dev w} {c : Change w}

theorem Change.onDev_same (c : Change w) (d : Dev w) :
    (c.onDev d).addr = d.addr ∧ (c.onDev d).iface = d.iface ∧ (c.onDev d).index = d.index ∧
      (c.onDev d).device = d.device := by
  have hite : ∀ (dev : Nat) (f : Dev w → Dev w), ((f d).addr = d.addr ∧ (f d).iface = d.iface ∧
      (f d).index = d.index ∧ (f d).device = d.device) →
      (if d.addr = dev then f d else d).addr = d.addr ∧ (if d.addr = dev then f d else d).iface = d.iface ∧
        (if d.addr = dev then f d else d).index = d.index ∧
        (if d.addr = dev then f d else d).device = d.device := by
    intro dev f hf
    split
    · exact hf
    · exact ⟨rfl, rfl, rfl, rfl⟩
  cases c with
  | addPair dev p => exact hite dev (fun d => d.addPair p) ⟨rfl, rfl, rfl, rfl⟩
  | removePair dev p => exact hite dev (fun d => d.removePair p) ⟨rfl, rfl, rfl, rfl⟩
  | clearPairs dev => exact hite dev Dev.noPairs ⟨rfl, rfl, rfl, rfl⟩
  | _ => exact ⟨rfl, rfl, rfl, rfl⟩

/-- A change removes a device or leaves it listed with the record that the change gives it. -/
theorem Changed.onDev_mem (h : StoreInv k) (hc : Changed c k k') (hd : d ∈ k.devs) :
    c.onDev d ∈ k'.devs ∨ ∀ d' ∈ k'.devs, d'.addr ≠ d.addr := by
  have heq : k'.devs = (c.apply k).devs := by
    unfold Kernel.devs
    rw [hc.ifaces]
  rw [heq]
  cases c with
  | keep => exact Or.inl hd
  | addDev e =>
      refine Or.inl ?_
      obtain ⟨iface, hmem⟩ := Kernel.mem_devs.mp hd
      refine Kernel.mem_devs.mpr ⟨iface, ?_⟩
      by_cases hiface : iface = e.iface
      · subst hiface
        simp only [Change.onDev, Change.apply, Kernel.setIface, Function.update_self]
        exact List.mem_cons_of_mem e hmem
      · simpa only [Change.onDev, Change.apply, Kernel.setIface, Function.update_of_ne hiface] using hmem
  | removeDev e =>
      have he : e ∈ k.devs := hc.allowed
      by_cases haddr : d.addr = e.addr
      · refine Or.inr ?_
        intro d' hd'
        rw [haddr]
        exact ((h.mem_devs_removeDev he).mp hd').2
      · exact Or.inl ((h.mem_devs_removeDev he).mpr ⟨hd, haddr⟩)
  | addPair dev p => exact Or.inl (Kernel.mem_devs_modifyDev.mpr ⟨d, hd, rfl⟩)
  | removePair dev p => exact Or.inl (Kernel.mem_devs_modifyDev.mpr ⟨d, hd, rfl⟩)
  | clearPairs dev => exact Or.inl (Kernel.mem_devs_modifyDev.mpr ⟨d, hd, rfl⟩)

/-- A change deletes a pair or leaves it as it is. -/
theorem Change.onDev_pair (c : Change w) {p : Pair w} (hp : p ∈ d.pairList) :
    p ∈ (c.onDev d).pairList ∨ ∀ p' ∈ (c.onDev d).pairList, p'.addr ≠ p.addr := by
  cases c with
  | addPair dev q =>
      refine Or.inl ?_
      rw [Change.onDev]
      split
      · exact List.mem_append_left _ hp
      · exact hp
  | removePair dev q =>
      rw [Change.onDev]
      split
      · by_cases haddr : p.addr = q.addr
        · refine Or.inr ?_
          intro p' hp'
          rw [haddr]
          simpa using (List.mem_filter.mp hp').2
        · exact Or.inl (List.mem_filter.mpr ⟨hp, by simpa using haddr⟩)
      · exact Or.inl hp
  | clearPairs dev =>
      rw [Change.onDev]
      split
      · exact Or.inr fun p' hp' => absurd hp' List.not_mem_nil
      · exact Or.inl hp
  | _ => exact Or.inl hp

/-- The pair of a changed store was there before, or it is the one that the change added. -/
theorem Changed.pair_origin (hc : Changed c k k') (hd : d ∈ k'.devs) {p : Pair w} (hp : p ∈ d.pairList) :
    (∃ d₀ ∈ k.devs, d₀.addr = d.addr ∧ p ∈ d₀.pairList) ∨ ∃ d₀ ∈ k.devs, d₀.Accepts p := by
  have heq : k'.devs = (c.apply k).devs := by
    unfold Kernel.devs
    rw [hc.ifaces]
  rw [heq] at hd
  cases c with
  | keep => exact Or.inl ⟨d, hd, rfl, hp⟩
  | addDev e =>
      obtain ⟨hpairs, _⟩ := hc.allowed
      obtain ⟨iface, hmem⟩ := Kernel.mem_devs.mp hd
      by_cases hiface : iface = e.iface
      · subst hiface
        simp only [Change.apply, Kernel.setIface, Function.update_self] at hmem
        rcases List.mem_cons.mp hmem with rfl | hold
        · rw [hpairs] at hp
          exact absurd hp List.not_mem_nil
        · exact Or.inl ⟨d, Kernel.mem_devs_of_mem hold, rfl, hp⟩
      · simp only [Change.apply, Kernel.setIface, Function.update_of_ne hiface] at hmem
        exact Or.inl ⟨d, Kernel.mem_devs_of_mem hmem, rfl, hp⟩
  | removeDev e =>
      obtain ⟨iface, hmem⟩ := Kernel.mem_devs.mp hd
      by_cases hiface : iface = e.iface
      · subst hiface
        simp only [Change.apply, Kernel.setIface, Function.update_self] at hmem
        exact Or.inl ⟨d, Kernel.mem_devs_of_mem (List.mem_of_mem_filter hmem), rfl, hp⟩
      · simp only [Change.apply, Kernel.setIface, Function.update_of_ne hiface] at hmem
        exact Or.inl ⟨d, Kernel.mem_devs_of_mem hmem, rfl, hp⟩
  | addPair dev q =>
      obtain ⟨⟨d₁, hd₁, _, haccepts⟩, _⟩ := hc.allowed
      obtain ⟨d₀, hd₀, rfl⟩ := Kernel.mem_devs_modifyDev.mp hd
      split at hp
      · rename_i haddr
        rw [if_pos haddr]
        rcases List.mem_append.mp hp with hold | hadded
        · exact Or.inl ⟨d₀, hd₀, rfl, hold⟩
        · rw [List.mem_singleton.mp hadded]
          exact Or.inr ⟨d₁, hd₁, haccepts⟩
      · rename_i haddr
        rw [if_neg haddr]
        exact Or.inl ⟨d₀, hd₀, rfl, hp⟩
  | removePair dev q =>
      obtain ⟨d₀, hd₀, rfl⟩ := Kernel.mem_devs_modifyDev.mp hd
      split at hp
      · rename_i haddr
        rw [if_pos haddr]
        exact Or.inl ⟨d₀, hd₀, rfl, List.mem_of_mem_filter hp⟩
      · rename_i haddr
        rw [if_neg haddr]
        exact Or.inl ⟨d₀, hd₀, rfl, hp⟩
  | clearPairs dev =>
      obtain ⟨d₀, hd₀, rfl⟩ := Kernel.mem_devs_modifyDev.mp hd
      split at hp
      · exact absurd hp List.not_mem_nil
      · rename_i haddr
        rw [if_neg haddr]
        exact Or.inl ⟨d₀, hd₀, rfl, hp⟩

/-- The pair at an address of the device at an address. -/
def Kernel.HasPair (k : Kernel w) (dev addr : Nat) : Prop :=
  ∃ d ∈ k.devs, d.addr = dev ∧ ∃ p ∈ d.pairList, p.addr = addr

/-- **A pair that is still there is the same pair**, of the same device. -/
theorem Changed.pair_kept (h : StoreInv k) (hc : Changed c k k') (hd : d ∈ k.devs) {p : Pair w}
    (hp : p ∈ d.pairList) (hkept : k'.HasPair d.addr p.addr) :
    ∃ d' ∈ k'.devs, d'.addr = d.addr ∧ d'.iface = d.iface ∧ d'.index = d.index ∧
      d'.device = d.device ∧ p ∈ d'.pairList := by
  obtain ⟨d', hd', haddr, p', hp', hpaddr⟩ := hkept
  rcases hc.onDev_mem h hd with hmem | hgone
  · obtain ⟨hsame, hiface, hindex, hdevice⟩ := c.onDev_same d
    obtain rfl : d' = c.onDev d := (h.changed hc).devAddr d' hd' _ hmem (haddr.trans hsame.symm)
    rcases c.onDev_pair hp with hold | hdeleted
    · exact ⟨_, hmem, hsame, hiface, hindex, hdevice, hold⟩
    · exact absurd hpaddr (hdeleted p' hp')
  · exact absurd haddr (hgone d' hd')

/-- The pair at an address of the device at an address, in the list of an interface. -/
def Kernel.Lists (k : Kernel w) (iface : HweIface) (dev addr : Nat) : Prop :=
  ∃ d ∈ (k.ifaces iface).devList, d.addr = dev ∧ ∃ p ∈ d.pairList, p.addr = addr

theorem Kernel.Lists.congr {iface : HweIface} {dev addr : Nat} (h : k.Lists iface dev addr)
    (hifaces : k'.ifaces iface = k.ifaces iface) : k'.Lists iface dev addr := by
  unfold Kernel.Lists
  rw [hifaces]
  exact h

theorem Kernel.lists_modifyDev {iface : HweIface} {dev addr a : Nat} {f : Dev w → Dev w} :
    (k.modifyDev a f).Lists iface dev addr ↔ ∃ d ∈ (k.ifaces iface).devList,
      (if d.addr = a then f d else d).addr = dev ∧
        ∃ p ∈ (if d.addr = a then f d else d).pairList, p.addr = addr := by
  simp only [Kernel.Lists, Kernel.modifyDev, List.mem_map]
  constructor
  · rintro ⟨_, ⟨d, hd, rfl⟩, hrest⟩
    exact ⟨d, hd, hrest⟩
  · rintro ⟨d, hd, hrest⟩
    exact ⟨_, ⟨d, hd, rfl⟩, hrest⟩

/-- **A listed pair stays listed unless the change drops it.** -/
theorem Changed.lists_iff (h : StoreInv k) (hc : Changed c k k') {iface : HweIface} {dev addr : Nat}
    (hlisted : k.Lists iface dev addr) : k'.Lists iface dev addr ↔ ¬c.Drops dev addr := by
  have heq : k'.Lists iface dev addr ↔ (c.apply k).Lists iface dev addr := by
    unfold Kernel.Lists
    rw [hc.ifaces]
  rw [heq]
  have hsame := hlisted
  obtain ⟨d, hd, rfl, p, hp, rfl⟩ := hlisted
  cases c with
  | keep => exact iff_of_true hsame not_false
  | addDev e =>
      refine iff_of_true ⟨d, ?_, rfl, p, hp, rfl⟩ not_false
      by_cases hiface : iface = e.iface
      · subst hiface
        simp only [Change.apply, Kernel.setIface, Function.update_self]
        exact List.mem_cons_of_mem e hd
      · simpa only [Change.apply, Kernel.setIface, Function.update_of_ne hiface] using hd
  | removeDev e =>
      have he : e ∈ k.devs := hc.allowed
      by_cases hiface : iface = e.iface
      · subst hiface
        simp only [Kernel.Lists, Change.apply, Kernel.setIface, Function.update_self, Change.Drops,
          List.mem_filter, decide_eq_true_eq]
        constructor
        · rintro ⟨d', ⟨_, hne⟩, haddr, _⟩ hdrops
          exact hne (haddr.trans hdrops.symm)
        · intro hkept
          exact ⟨d, ⟨hd, fun haddr => hkept haddr.symm⟩, rfl, p, hp, rfl⟩
      · refine iff_of_true (hsame.congr ?_) ?_
        · simp only [Change.apply, Kernel.setIface, Function.update_of_ne hiface]
        · intro hdrops
          have hde := h.devAddr d (Kernel.mem_devs_of_mem hd) e he hdrops.symm
          exact hiface ((h.iface iface d hd).symm.trans (congrArg Dev.iface hde))
  | addPair a q =>
      refine iff_of_true (Kernel.lists_modifyDev.mpr ⟨d, hd, ?_⟩) not_false
      split
      · exact ⟨rfl, p, List.mem_append_left _ hp, rfl⟩
      · exact ⟨rfl, p, hp, rfl⟩
  | removePair a q =>
      refine Kernel.lists_modifyDev.trans ?_
      constructor
      · rintro ⟨d', _, haddr, p', hp', hpaddr⟩ ⟨rfl, hq⟩
        split at hp'
        · have hne := (List.mem_filter.mp hp').2
          rw [decide_eq_true_eq] at hne
          exact hne (hpaddr.trans hq.symm)
        · rename_i hne
          rw [if_neg hne] at haddr
          exact hne haddr
      · intro hkept
        refine ⟨d, hd, ?_⟩
        split
        · rename_i haddr
          refine ⟨rfl, p, List.mem_filter.mpr ⟨hp, ?_⟩, rfl⟩
          rw [decide_eq_true_eq]
          exact fun hq => hkept ⟨haddr.symm, hq.symm⟩
        · exact ⟨rfl, p, hp, rfl⟩
  | clearPairs a =>
      refine Kernel.lists_modifyDev.trans ?_
      constructor
      · rintro ⟨d', _, haddr, p', hp', _⟩ rfl
        split at hp'
        · exact absurd hp' List.not_mem_nil
        · rename_i hne
          rw [if_neg hne] at haddr
          exact hne haddr
      · intro hkept
        refine ⟨d, hd, ?_⟩
        rw [if_neg fun haddr => hkept haddr.symm]
        exact ⟨rfl, p, hp, rfl⟩

theorem Change.Adds.not_drops {dev addr : Nat} (h : c.Adds) : ¬c.Drops dev addr := by
  cases c <;> simp [Change.Adds, Change.Drops] at h ⊢

end

end Hwemu
