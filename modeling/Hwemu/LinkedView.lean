import Hwemu.LinkedStore
import Hwemu.StoreSteps
import Hwemu.Lib.Machine
import Hwemu.Lib.Keyed
import Mathlib.Data.List.Find

/-!
# What the linked store represents

The store of lists that a linked store stands for, and what the functions of `list.h` and the statements
around them make of it: each of them finds the memory it follows in use, and leaves the linked store of
the list operation that it stands for.
-/

namespace Hwemu

variable {w : Nat} {s s' : LinkedKernel w} {k k' : Kernel w} {d : Dev w} {p : Pair w}

def Dev.record (d : Dev w) : DevRecord :=
  { name := d.name
    iface := d.iface
    index := d.index
    device := d.device
    pairsKobj := d.pairsKobj
    pairsIndexes := d.pairsIndexes }

/-- The record that `add_dev` puts in the list of an interface. -/
def Dev.blank (addr : Nat) (iface : HweIface) (index : Nat) : Dev w :=
  { addr := addr
    name := []
    pairList := []
    iface := iface
    index := index
    device := none
    pairsKobj := false
    pairsIndexes := 0 }

def Dev.pairEntries (d : Dev w) : List ListHead := d.pairList.map fun p => .pairEntry p.addr

namespace Kernel

def devEntries (k : Kernel w) (iface : HweIface) : List ListHead :=
  (k.ifaces iface).devList.map fun d => .entry d.addr

/-- The lists of a store, as rings of list heads. -/
inductive Ring (k : Kernel w) : ListHead → List ListHead → Prop
  | devs (iface : HweIface) : Ring k (.devList iface) (k.devEntries iface)
  | pairs {d : Dev w} (hd : d ∈ k.devs) : Ring k (.pairList d.addr) d.pairEntries

/-- Addresses tell the devices and the pairs of a store apart, and were handed out before. -/
structure Addressed (k : Kernel w) : Prop where
  iface : ∀ iface, ∀ d ∈ (k.ifaces iface).devList, d.iface = iface
  devAddr : ∀ d ∈ k.devs, ∀ d' ∈ k.devs, d.addr = d'.addr → d = d'
  pairAddr : ∀ d ∈ k.devs, ∀ d' ∈ k.devs, ∀ p ∈ d.pairList, ∀ p' ∈ d'.pairList,
    p.addr = p'.addr → d = d'
  devFresh : ∀ d ∈ k.devs, d.addr < k.heap.next
  pairFresh : ∀ d ∈ k.devs, ∀ p ∈ d.pairList, p.addr < k.heap.next

end Kernel

theorem StoreInv.addressed (h : StoreInv k) : k.Addressed :=
  ⟨h.iface, h.devAddr, h.pairAddr, h.devFresh, h.pairFresh⟩

/-- The memory `s` holds the store `k`, and no other devices or pairs but a pair at the address `loose`,
which is in no list. -/
structure Represents (loose : Option Nat) (s : LinkedKernel w) (k : Kernel w) : Prop where
  addressed : k.Addressed
  rings : s.links.Rings k.Ring
  dev : ∀ d ∈ k.devs, s.devs d.addr = some d.record
  pair : ∀ d ∈ k.devs, ∀ p ∈ d.pairList, s.pairs p.addr = some p
  devOnly : ∀ a, s.devs a ≠ none → ∃ d ∈ k.devs, d.addr = a
  pairOnly : ∀ a, s.pairs a ≠ none → loose = some a ∨ ∃ d ∈ k.devs, ∃ p ∈ d.pairList, p.addr = a
  devIndexes : ∀ iface, s.devIndexes iface = (k.ifaces iface).devIndexes
  sems : s.sems = k.sems
  heap : s.heap = k.heap

/-! ### Reading -/

section

variable {loose : Option Nat}

/-- Every list head of a ring stands in memory that is in use. -/
theorem Represents.access (h : Represents loose s k) {head c : ListHead} {cells : List ListHead}
    (hring : k.Ring head cells) (hc : c ∈ head :: cells) : s.access c = .ok () := by
  cases hring with
  | devs iface =>
      rcases List.mem_cons.mp hc with rfl | hentry
      · rfl
      · obtain ⟨d, hd, rfl⟩ := List.mem_map.mp hentry
        simp [LinkedKernel.access, h.dev d (Kernel.mem_devs_of_mem hd)]
  | pairs hd =>
      rcases List.mem_cons.mp hc with rfl | hentry
      · simp [LinkedKernel.access, h.dev _ hd]
      · obtain ⟨p, hp, rfl⟩ := List.mem_map.mp hentry
        simp [LinkedKernel.access, h.pair _ hd p hp]

theorem LinkedKernel.next_eq {c : ListHead} (haccess : s.access c = .ok ()) :
    s.next c = .ok (s.links.next c) := by
  rw [LinkedKernel.next, haccess]
  rfl

theorem LinkedKernel.prev_eq {c : ListHead} (haccess : s.access c = .ok ()) :
    s.prev c = .ok (s.links.prev c) := by
  rw [LinkedKernel.prev, haccess]
  rfl

theorem Represents.derefDev (h : Represents loose s k) (hd : d ∈ k.devs) :
    s.derefDev d.addr = .ok d.record := by
  rw [LinkedKernel.derefDev, h.dev d hd]

theorem Represents.derefPair (h : Represents loose s k) (hd : d ∈ k.devs) (hp : p ∈ d.pairList) :
    s.derefPair p.addr = .ok p := by
  rw [LinkedKernel.derefPair, h.pair d hd p hp]

/-- A pointer to a device points at a device in both, or at freed memory in both. -/
theorem Represents.deref_rel (h : Represents loose s k) (a : Nat) :
    Except.Rel (fun r d => d ∈ k.devs ∧ d.addr = a ∧ r = d.record) (s.derefDev a) (k.deref a) := by
  by_cases hlisted : ∃ d ∈ k.devs, d.addr = a
  · obtain ⟨d, hd, rfl⟩ := hlisted
    have hderef : k.deref d.addr = .ok d := by
      unfold Kernel.deref
      cases hfind : k.devs.find? fun d' => d'.addr == d.addr with
      | none => simpa using List.find?_eq_none.mp hfind d hd
      | some d' =>
          have haddr : d'.addr = d.addr := by simpa using List.find?_some hfind
          rw [h.addressed.devAddr d' (List.mem_of_find?_eq_some hfind) d hd haddr]
    rw [h.derefDev hd, hderef]
    exact .ok ⟨hd, rfl, rfl⟩
  · have hgone : s.devs a = none := by
      by_contra hne
      exact hlisted (h.devOnly a hne)
    have hderef : k.deref a = .error .useAfterFree := by
      unfold Kernel.deref
      rw [List.find?_eq_none.mpr fun d hd => by simpa using fun haddr => hlisted ⟨d, hd, haddr⟩]
    rw [LinkedKernel.derefDev, hgone, hderef]
    exact .error _

end

namespace Linked

/-! ### The functions of `list.h` -/

theorem listAddBetween_eq {new a b : ListHead} (hnew : s.access new = .ok ()) (ha : s.access a = .ok ())
    (hb : s.access b = .ok ()) :
    listAddBetween new a b s = .ok { s with links := s.links.insert new a b } := by
  have hsame : ∀ (m : Links ListHead) c, LinkedKernel.access c { s with links := m } = s.access c :=
    fun _ _ => rfl
  simp only [listAddBetween, LinkedKernel.setPrev, LinkedKernel.setNext, hb, hnew, ha, hsame, Except.ok_bind,
    pure_bind]
  rfl

theorem initListHead_eq {ptr : ListHead} (hptr : s.access ptr = .ok ()) :
    initListHead ptr s = .ok { s with links := s.links.init ptr } := by
  have hsame : ∀ (m : Links ListHead) c, LinkedKernel.access c { s with links := m } = s.access c :=
    fun _ _ => rfl
  simp only [initListHead, LinkedKernel.setPrev, LinkedKernel.setNext, hptr, hsame, Except.ok_bind, pure_bind]
  rfl

theorem listDel_eq {e : ListHead} (he : s.access e = .ok ()) (ha : s.access (s.links.prev e) = .ok ())
    (hb : s.access (s.links.next e) = .ok ()) :
    listDel e s = .ok { s with links :=
      ((s.links.join (s.links.prev e) (s.links.next e)).setNext e .poison1).setPrev e .poison2 } := by
  have hsame : ∀ (m : Links ListHead) c, LinkedKernel.access c { s with links := m } = s.access c :=
    fun _ _ => rfl
  simp only [listDel, listDelBetween, LinkedKernel.next, LinkedKernel.prev, LinkedKernel.setPrev,
    LinkedKernel.setNext, he, hb, ha, hsame, Except.ok_bind, pure_bind, bind_assoc]
  rfl

/-- The search from the entries `post` on, by induction on them. -/
theorem findFrom_eq {test : ListHead → Except Fault Bool} {f : ListHead → Bool} {head : ListHead}
    {pre post : List ListHead} {fuel : Nat} (hring : s.links.IsRing head (pre ++ post))
    (haccess : ∀ c ∈ post, s.access c = .ok ()) (htest : ∀ c ∈ post, test c = .ok (f c))
    (hfuel : post.length < fuel) :
    findFrom test head s fuel (post.headD head) = .ok (post.find? f) := by
  induction post generalizing pre fuel with
  | nil =>
      obtain ⟨fuel, rfl⟩ := Nat.exists_eq_succ_of_ne_zero (Nat.ne_of_gt hfuel)
      rw [findFrom, List.headD_nil, if_pos rfl]
      rfl
  | cons c post ih =>
      obtain ⟨fuel, rfl⟩ := Nat.exists_eq_succ_of_ne_zero (Nat.ne_of_gt (Nat.zero_lt_of_lt hfuel))
      have hne : c ≠ head := by
        rintro rfl
        exact (List.nodup_cons.mp hring.nodup).1 (List.mem_append_right pre List.mem_cons_self)
      rw [findFrom, List.headD_cons, if_neg hne, htest c List.mem_cons_self, Except.ok_bind, List.find?_cons]
      cases f c with
      | true => rfl
      | false =>
          rw [LinkedKernel.next_eq (haccess c List.mem_cons_self), hring.next_cell]
          rw [List.append_cons] at hring
          exact ih hring (fun x hx => haccess x (List.mem_cons_of_mem c hx))
            (fun x hx => htest x (List.mem_cons_of_mem c hx)) (Nat.lt_of_succ_lt_succ hfuel)

theorem listFind_eq {loose : Option Nat} (h : Represents loose s k) {test : ListHead → Except Fault Bool}
    {f : ListHead → Bool} {head : ListHead} {cells : List ListHead} {bound : Nat}
    (hring : k.Ring head cells) (htest : ∀ c ∈ cells, test c = .ok (f c)) (hbound : cells.length ≤ bound) :
    listFind test bound head s = .ok (cells.find? f) := by
  have hcells := h.rings.ring hring
  rw [listFind, LinkedKernel.next_eq (h.access hring List.mem_cons_self), hcells.next_head]
  have hall : s.links.IsRing head ([] ++ cells) := hcells
  exact findFrom_eq hall (fun c hc => h.access hring (List.mem_cons_of_mem head hc)) htest
    (Nat.lt_succ_of_le hbound)

/-! ### Searching -/

/-- The device that an entry belongs to passes a test. -/
def devPasses (test : DevRecord → Bool) (s : LinkedKernel w) : ListHead → Bool
  | .entry dev => (s.devs dev).any test
  | _ => false

def pairPasses (test : Pair w → Bool) (s : LinkedKernel w) : ListHead → Bool
  | .pairEntry pair => (s.pairs pair).any test
  | _ => false

theorem findDev_eq {loose : Option Nat} (h : Represents loose s k) {iface : HweIface}
    (hbound : (k.ifaces iface).devList.length ≤ hweMaxDevices) (test : DevRecord → Bool) :
    findDev test iface s = .ok (((k.ifaces iface).devList.find? fun d => test d.record).map (·.addr)) := by
  have htest : ∀ c ∈ k.devEntries iface,
      (do return test (← s.derefDev (← c.toDev)) : Except Fault Bool) = .ok (devPasses test s c) := by
    intro c hc
    obtain ⟨d, hd, rfl⟩ := List.mem_map.mp hc
    have hdev := h.dev d (Kernel.mem_devs_of_mem hd)
    simp [ListHead.toDev, LinkedKernel.derefDev, hdev, devPasses]
  have hfind : (k.devEntries iface).find? (devPasses test s) =
      ((k.ifaces iface).devList.find? fun d => test d.record).map fun d => .entry d.addr := by
    rw [Kernel.devEntries, List.find?_map]
    congr 1
    apply List.find?_congr
    intro d hd
    have hdev := h.dev d (Kernel.mem_devs_of_mem hd)
    simp [hdev, devPasses]
  have hlist := listFind_eq h (.devs iface) htest (by simpa [Kernel.devEntries] using hbound)
  rw [findDev, hlist, hfind]
  cases (k.ifaces iface).devList.find? fun d => test d.record with
  | none => rfl
  | some d => rfl

theorem findInPairs_eq {loose : Option Nat} (h : Represents loose s k) (hd : d ∈ k.devs)
    (hbound : d.pairList.length ≤ hweMaxPairs) (test : Pair w → Bool) :
    findInPairs test d.addr s = .ok ((d.pairList.find? test).map (·.addr)) := by
  have htest : ∀ c ∈ d.pairEntries,
      (do return test (← s.derefPair (← c.toPair)) : Except Fault Bool) = .ok (pairPasses test s c) := by
    intro c hc
    obtain ⟨p, hp, rfl⟩ := List.mem_map.mp hc
    simp [ListHead.toPair, LinkedKernel.derefPair, h.pair d hd p hp, pairPasses]
  have hfind : d.pairEntries.find? (pairPasses test s) =
      (d.pairList.find? test).map fun p => .pairEntry p.addr := by
    rw [Dev.pairEntries, List.find?_map]
    congr 1
    apply List.find?_congr
    intro p hp
    simp [h.pair d hd p hp, pairPasses]
  have hlist := listFind_eq h (.pairs hd) htest (by simpa [Dev.pairEntries] using hbound)
  rw [findInPairs, hlist, hfind]
  cases d.pairList.find? test with
  | none => rfl
  | some p => rfl

end Linked

/-! ### Writing -/

section

variable {loose : Option Nat} {a : Nat} {f : Dev w → Dev w}

/-- A write to one device changes at most the ring of its pairs. -/
theorem Kernel.Addressed.differs_modifyDev (h : k.Addressed) (hd : d ∈ k.devs)
    (hf : ∀ d, (f d).addr = d.addr) :
    Links.Differs k.Ring (k.modifyDev d.addr f).Ring (.pairList d.addr) (f d).pairEntries := by
  intro head cells hring
  cases hring with
  | devs iface =>
      refine Or.inr ⟨nofun, ?_⟩
      have hentries : (k.modifyDev d.addr f).devEntries iface = k.devEntries iface := by
        simp only [Kernel.devEntries, Kernel.modifyDev, List.map_map]
        apply List.map_congr_left
        intro d' _
        by_cases heq : d'.addr = d.addr
        · simp [heq, hf]
        · simp [heq]
      rw [hentries]
      exact .devs iface
  | pairs hd' =>
      obtain ⟨d₀, hd₀, rfl⟩ := Kernel.mem_devs_modifyDev.mp hd'
      by_cases heq : d₀.addr = d.addr
      · obtain rfl := h.devAddr d₀ hd₀ d hd heq
        rw [if_pos rfl]
        exact Or.inl ⟨by rw [hf], rfl⟩
      · rw [if_neg heq]
        refine Or.inr ⟨?_, .pairs hd₀⟩
        simpa using heq

/-- The pairs of `f d` stand where pairs of `d` stood, or where no pair stood. -/
theorem Kernel.Addressed.modifyDev (h : k.Addressed) (hd : d ∈ k.devs) (haddr : ∀ d, (f d).addr = d.addr)
    (hiface : ∀ d, (f d).iface = d.iface)
    (hpairs : ∀ p ∈ (f d).pairList, (∃ q ∈ d.pairList, q.addr = p.addr) ∨
      p.addr < k.heap.next ∧ ∀ d' ∈ k.devs, ∀ q ∈ d'.pairList, q.addr ≠ p.addr) :
    (k.modifyDev d.addr f).Addressed := by
  have hold : ∀ d' ∈ (k.modifyDev d.addr f).devs, (d' = f d ∧ d'.addr = d.addr) ∨
      d' ∈ k.devs ∧ d'.addr ≠ d.addr := by
    intro d' hd'
    obtain ⟨d₀, hd₀, rfl⟩ := Kernel.mem_devs_modifyDev.mp hd'
    by_cases hsame : d₀.addr = d.addr
    · obtain rfl := h.devAddr d₀ hd₀ d hd hsame
      exact Or.inl ⟨if_pos rfl, by rw [if_pos rfl, haddr]⟩
    · rw [if_neg hsame]
      exact Or.inr ⟨hd₀, hsame⟩
  have hforeign : ∀ p ∈ (f d).pairList, ∀ d' ∈ k.devs, d'.addr ≠ d.addr → ∀ q ∈ d'.pairList,
      p.addr ≠ q.addr := by
    intro p hp d' hd' hne q hq heq
    rcases hpairs p hp with ⟨r, hr, hrp⟩ | ⟨_, hnone⟩
    · exact hne (by rw [h.pairAddr d' hd' d hd q hq r hr (heq.symm.trans hrp.symm)])
    · exact hnone d' hd' q hq heq.symm
  constructor
  · intro iface d' hd'
    obtain ⟨d₀, hd₀, rfl⟩ := List.mem_map.mp hd'
    split
    · rw [hiface]
      exact h.iface iface d₀ hd₀
    · exact h.iface iface d₀ hd₀
  · intro d₁ hd₁ d₂ hd₂ heq
    rcases hold d₁ hd₁ with ⟨hf₁, ha₁⟩ | ⟨hm₁, hne₁⟩
    · rcases hold d₂ hd₂ with ⟨hf₂, _⟩ | ⟨_, hne₂⟩
      · exact hf₁.trans hf₂.symm
      · exact absurd (heq.symm.trans ha₁) hne₂
    · rcases hold d₂ hd₂ with ⟨_, ha₂⟩ | ⟨hm₂, _⟩
      · exact absurd (heq.trans ha₂) hne₁
      · exact h.devAddr d₁ hm₁ d₂ hm₂ heq
  · intro d₁ hd₁ d₂ hd₂ p₁ hp₁ p₂ hp₂ heq
    rcases hold d₁ hd₁ with ⟨rfl, _⟩ | ⟨hm₁, hne₁⟩
    · rcases hold d₂ hd₂ with ⟨hf₂, _⟩ | ⟨hm₂, hne₂⟩
      · exact hf₂.symm
      · exact absurd heq (hforeign p₁ hp₁ d₂ hm₂ hne₂ p₂ hp₂)
    · rcases hold d₂ hd₂ with ⟨rfl, _⟩ | ⟨hm₂, _⟩
      · exact absurd heq.symm (hforeign p₂ hp₂ d₁ hm₁ hne₁ p₁ hp₁)
      · exact h.pairAddr d₁ hm₁ d₂ hm₂ p₁ hp₁ p₂ hp₂ heq
  · intro d' hd'
    rcases hold d' hd' with ⟨_, ha⟩ | ⟨hm, _⟩
    · rw [ha]
      exact h.devFresh d hd
    · exact h.devFresh d' hm
  · intro d' hd' p hp
    rcases hold d' hd' with ⟨rfl, _⟩ | ⟨hm, _⟩
    · rcases hpairs p hp with ⟨q, hq, hqp⟩ | ⟨hlt, _⟩
      · rw [← hqp]
        exact h.pairFresh d hd q hq
      · exact hlt
    · exact h.pairFresh d' hm p hp

namespace Represents

/-- Devices of one list stand at different addresses, and so do pairs. -/
theorem addrs_nodup (h : Represents loose s k) (iface : HweIface) :
    ((k.ifaces iface).devList.map (·.addr)).Nodup := by
  have hnodup := (List.nodup_cons.mp (h.rings.ring (.devs iface)).nodup).2
  have hentries : k.devEntries iface = ((k.ifaces iface).devList.map (·.addr)).map ListHead.entry :=
    (List.map_map ..).symm
  rw [hentries] at hnodup
  exact hnodup.of_map

theorem pair_addrs_nodup (h : Represents loose s k) (hd : d ∈ k.devs) : (d.pairList.map (·.addr)).Nodup := by
  have hnodup := (List.nodup_cons.mp (h.rings.ring (.pairs hd)).nodup).2
  have hentries : d.pairEntries = (d.pairList.map (·.addr)).map ListHead.pairEntry := (List.map_map ..).symm
  rw [hentries] at hnodup
  exact hnodup.of_map

/-- Semaphores and the allocator are no part of the lists. -/
theorem congr (h : Represents loose s k) (hifaces : k'.ifaces = k.ifaces)
    (hnext : k.heap.next ≤ k'.heap.next) (hsems : s'.sems = k'.sems) (hheap : s'.heap = k'.heap)
    (hsame : s' = { s with sems := s'.sems, heap := s'.heap }) : Represents loose s' k' := by
  obtain ⟨ifaces, sems, heap⟩ := k'
  subst hifaces
  have hring : ∀ head cells, Kernel.Ring { k with sems := sems, heap := heap } head cells →
      k.Ring head cells := by
    rintro head cells (iface | hd)
    · exact .devs iface
    · exact .pairs hd
  rw [hsame]
  exact
    { addressed :=
        { h.addressed with
          devFresh := fun d hd => lt_of_lt_of_le (h.addressed.devFresh d hd) hnext
          pairFresh := fun d hd p hp => lt_of_lt_of_le (h.addressed.pairFresh d hd p hp) hnext }
      rings := h.rings.mono hring
      dev := h.dev
      pair := h.pair
      devOnly := h.devOnly
      pairOnly := h.pairOnly
      devIndexes := h.devIndexes
      sems := hsems
      heap := hheap }

theorem setSem (h : Represents loose s k) (iface : HweIface) (n : Nat) :
    Represents loose (Linked.setSem iface n s) (k.setSem iface n) :=
  h.congr rfl le_rfl (by simp only [Linked.setSem, Kernel.setSem, h.sems]) h.heap rfl

theorem alloc (h : Represents loose s k) : Represents loose s.alloc.2 k.alloc.2 :=
  h.congr rfl (Nat.le_succ _) h.sems (by simp only [LinkedKernel.alloc, Kernel.alloc, h.heap]) rfl

theorem kfree (h : Represents loose s k) (addr : Nat) : Represents loose (s.kfree addr) (k.kfree addr) :=
  h.congr rfl le_rfl h.sems (by simp only [LinkedKernel.kfree, Kernel.kfree, h.heap]) rfl

/-- **A change to one device**: to its record, to its list of pairs and to the memory of pairs. -/
theorem write (h : Represents loose s k) (hd : d ∈ k.devs) (loose' : Option Nat) {m : Links ListHead}
    (prs : Nat → Option (Pair w)) (haddr : ∀ d, (f d).addr = d.addr) (hiface : ∀ d, (f d).iface = d.iface)
    (hpairs : ∀ p ∈ (f d).pairList, (∃ q ∈ d.pairList, q.addr = p.addr) ∨
      p.addr < k.heap.next ∧ ∀ d' ∈ k.devs, ∀ q ∈ d'.pairList, q.addr ≠ p.addr)
    (hrings : m.Rings (k.modifyDev d.addr f).Ring) (hown : ∀ p ∈ (f d).pairList, prs p.addr = some p)
    (hother : ∀ d' ∈ k.devs, d' ≠ d → ∀ p ∈ d'.pairList, prs p.addr = some p)
    (honly : ∀ a, prs a ≠ none → loose' = some a ∨ (∃ p ∈ (f d).pairList, p.addr = a) ∨
      ∃ d' ∈ k.devs, d' ≠ d ∧ ∃ p ∈ d'.pairList, p.addr = a) :
    Represents loose'
      { s with links := m, pairs := prs, devs := Function.update s.devs d.addr (some (f d).record) }
      (k.modifyDev d.addr f) := by
  have hdevs : ∀ d' ∈ (k.modifyDev d.addr f).devs, d' = f d ∨ d' ∈ k.devs ∧ d' ≠ d := by
    intro d' hd'
    obtain ⟨d₀, hd₀, rfl⟩ := Kernel.mem_devs_modifyDev.mp hd'
    by_cases hsame : d₀.addr = d.addr
    · obtain rfl := h.addressed.devAddr d₀ hd₀ d hd hsame
      exact Or.inl (if_pos rfl)
    · rw [if_neg hsame]
      exact Or.inr ⟨hd₀, fun heq => hsame (congrArg Dev.addr heq)⟩
  have hself : f d ∈ (k.modifyDev d.addr f).devs := Kernel.mem_devs_modifyDev.mpr ⟨d, hd, if_pos rfl⟩
  have hkept : ∀ d' ∈ k.devs, d' ≠ d → d' ∈ (k.modifyDev d.addr f).devs := by
    intro d' hd' hne
    exact Kernel.mem_devs_modifyDev.mpr
      ⟨d', hd', if_neg fun heq => hne (h.addressed.devAddr d' hd' d hd heq)⟩
  exact
    { addressed := h.addressed.modifyDev hd haddr hiface hpairs
      rings := hrings
      dev := fun d' hd' => by
        rcases hdevs d' hd' with rfl | ⟨hold, hne⟩
        · rw [haddr]
          exact Function.update_self ..
        · have haddr' : d'.addr ≠ d.addr := fun heq => hne (h.addressed.devAddr d' hold d hd heq)
          exact (Function.update_of_ne haddr' ..).trans (h.dev d' hold)
      pair := fun d' hd' p hp => by
        rcases hdevs d' hd' with rfl | ⟨hold, hne⟩
        · exact hown p hp
        · exact hother d' hold hne p hp
      devOnly := fun a ha => by
        by_cases heq : a = d.addr
        · exact ⟨f d, hself, (haddr d).trans heq.symm⟩
        · obtain ⟨d', hd', rfl⟩ := h.devOnly a fun hnone => ha ((Function.update_of_ne heq ..).trans hnone)
          exact ⟨d', hkept d' hd' fun hsame => heq (congrArg Dev.addr hsame), rfl⟩
      pairOnly := fun a ha => by
        rcases honly a ha with hloose | ⟨p, hp, rfl⟩ | ⟨d', hd', hne, p, hp, rfl⟩
        · exact Or.inl hloose
        · exact Or.inr ⟨f d, hself, p, hp, rfl⟩
        · exact Or.inr ⟨d', hkept d' hd' hne, p, hp, rfl⟩
      devIndexes := h.devIndexes
      sems := h.sems
      heap := h.heap }

/-- A write to fields of a device other than its list heads. -/
theorem modifyDev (h : Represents loose s k) (hd : d ∈ k.devs) {g : DevRecord → DevRecord}
    (haddr : ∀ d, (f d).addr = d.addr) (hiface : ∀ d, (f d).iface = d.iface)
    (hpairs : ∀ d, (f d).pairList = d.pairList) (hrecord : (f d).record = g d.record) :
    ∃ s', s.modifyDev d.addr g = .ok s' ∧ Represents loose s' (k.modifyDev d.addr f) := by
  have hrings : s.links.Rings (k.modifyDev d.addr f).Ring := by
    refine h.rings.mono fun head cells hring => ?_
    rcases h.addressed.differs_modifyDev hd haddr head cells hring with ⟨rfl, rfl⟩ | ⟨_, hold⟩
    · have hsame : (f d).pairEntries = d.pairEntries := by rw [Dev.pairEntries, hpairs, Dev.pairEntries]
      rw [hsame]
      exact .pairs hd
    · exact hold
  refine ⟨_, by rw [LinkedKernel.modifyDev, h.derefDev hd]; rfl, ?_⟩
  rw [← hrecord]
  refine h.write hd loose s.pairs haddr hiface (fun p hp => Or.inl ⟨p, by rwa [hpairs] at hp, rfl⟩) hrings ?_ ?_ ?_
  · intro p hp
    rw [hpairs] at hp
    exact h.pair d hd p hp
  · exact fun d' hd' _ p hp => h.pair d' hd' p hp
  · intro a ha
    refine (h.pairOnly a ha).imp_right ?_
    rintro ⟨d', hd', p, hp, rfl⟩
    by_cases heq : d' = d
    · subst heq
      exact Or.inl ⟨p, by rwa [hpairs], rfl⟩
    · exact Or.inr ⟨d', hd', heq, p, hp, rfl⟩

/-! ### Pairs -/

/-- The record of a device stays in place when only its pairs change. -/
theorem update_record (h : Represents loose s k) (hd : d ∈ k.devs) (hrecord : (f d).record = d.record) :
    Function.update s.devs d.addr (some (f d).record) = s.devs := by
  rw [hrecord, ← h.dev d hd]
  exact Function.update_eq_self ..

/-- `list_del` and `kfree` of a pair. -/
theorem unlinkPair (h : Represents loose s k) (hd : d ∈ k.devs) (hp : p ∈ d.pairList) :
    ∃ s', Linked.listDel (.pairEntry p.addr) s = .ok s' ∧ Represents loose (s'.kfreePair p.addr)
      ((k.modifyDev d.addr fun d => { d with pairList := d.pairList.filter fun q => q.addr ≠ p.addr }).kfree
        p.addr) := by
  obtain ⟨pre, post, hsplit, hpre, hpost⟩ := Keyed.split (h.pair_addrs_nodup hd) hp
  have hring : k.Ring (.pairList d.addr) d.pairEntries := .pairs hd
  have hcells := h.rings.ring hring
  have hentries : d.pairEntries = pre.map (fun q => .pairEntry q.addr) ++
      .pairEntry p.addr :: post.map fun q => .pairEntry q.addr := by
    rw [Dev.pairEntries, hsplit, List.map_append, List.map_cons]
  have hmem : ListHead.pairEntry p.addr ∈ ListHead.pairList d.addr :: d.pairEntries :=
    List.mem_cons_of_mem _ (List.mem_map_of_mem hp)
  have hfilter : (d.pairList.filter fun q => q.addr ≠ p.addr) = pre ++ post := by
    rw [hsplit]
    exact Keyed.filter_split hpre hpost
  refine ⟨_, Linked.listDel_eq (h.access hring hmem) (h.access hring (hcells.prev_mem hmem))
    (h.access hring (hcells.next_mem hmem)), ?_⟩
  let f : Dev w → Dev w := fun d => { d with pairList := d.pairList.filter fun q => q.addr ≠ p.addr }
  have hdiff := h.addressed.differs_modifyDev (f := f) hd fun _ => rfl
  have hleft : (f d).pairEntries =
      pre.map (fun q => ListHead.pairEntry q.addr) ++ post.map fun q => .pairEntry q.addr := by
    rw [Dev.pairEntries, ← List.map_append, ← hfilter]
  rw [hleft] at hdiff
  have hremoved := h.rings.remove (hentries ▸ hring) hdiff
  have hother : ∀ d' ∈ k.devs, d' ≠ d → ∀ q ∈ d'.pairList, q.addr ≠ p.addr := fun d' hd' hne q hq heq =>
    hne (h.addressed.pairAddr d' hd' d hd q hq p hp heq)
  have hunused : Links.Unused (k.modifyDev d.addr f).Ring (.pairEntry p.addr) := by
    intro head cells hring'
    rcases hdiff head cells hring' with ⟨rfl, rfl⟩ | ⟨hne, hold⟩
    · rw [← List.map_append]
      intro hin
      obtain ⟨q, hq, heq⟩ := List.mem_map.mp ((List.mem_cons.mp hin).resolve_left nofun)
      exact List.forall_mem_append.mpr ⟨hpre, hpost⟩ q hq (ListHead.pairEntry.inj heq)
    · exact fun hin => h.rings.apart hring hold (Ne.symm hne) hmem hin
  have hrings := hremoved.frame (((s.links.join _ _).setNext (.pairEntry p.addr) .poison1).setPrev
      (.pairEntry p.addr) .poison2) fun c hc => by
    have hne : c ≠ .pairEntry p.addr := by
      rintro rfl
      exact hc hunused
    exact ⟨Function.update_of_ne hne .., Function.update_of_ne hne ..⟩
  have hwrite := h.write (f := f) hd loose (Function.update s.pairs p.addr none)
    (fun _ => rfl) (fun _ => rfl) (fun q hq => Or.inl ⟨q, List.mem_of_mem_filter hq, rfl⟩) hrings
    (fun q hq => ?_) (fun d' hd' hne q hq => ?_) (fun a ha => ?_)
  · rw [h.update_record (f := f) hd rfl] at hwrite
    exact hwrite.kfree p.addr
  · obtain ⟨hq, hne⟩ := List.mem_filter.mp hq
    exact (Function.update_of_ne (by simpa using hne) ..).trans (h.pair d hd q hq)
  · exact (Function.update_of_ne (hother d' hd' hne q hq) ..).trans (h.pair d' hd' q hq)
  · have hne : a ≠ p.addr := by
      rintro rfl
      exact ha (Function.update_self ..)
    refine (h.pairOnly a fun hnone => ha ((Function.update_of_ne hne ..).trans hnone)).imp_right ?_
    rintro ⟨d', hd', q, hq, rfl⟩
    by_cases heq : d' = d
    · subst heq
      exact Or.inl ⟨q, List.mem_filter.mpr ⟨hq, by simpa using hne⟩, rfl⟩
    · exact Or.inr ⟨d', hd', heq, q, hq, rfl⟩

/-- A pair that is in no list, written or overwritten. -/
theorem putPair (h : Represents loose s k) (hloose : loose = none ∨ loose = some p.addr)
    (hfresh : ∀ d ∈ k.devs, ∀ q ∈ d.pairList, q.addr ≠ p.addr) :
    Represents (some p.addr) (s.putPair p) k :=
  { h with
    pair := fun d hd q hq => (Function.update_of_ne (hfresh d hd q hq) ..).trans (h.pair d hd q hq)
    pairOnly := fun a ha => by
      by_cases heq : a = p.addr
      · exact Or.inl (congrArg some heq.symm)
      · refine (h.pairOnly a fun hnone => ha ((Function.update_of_ne heq ..).trans hnone)).imp_left ?_
        intro hsome
        rcases hloose with hnone | hsame
        · exact absurd (hnone.symm.trans hsome) nofun
        · exact hsame.symm.trans hsome }

/-- `kfree` of a pair that is in no list. -/
theorem kfreeLoose (h : Represents (some a) s k) (hfresh : ∀ d ∈ k.devs, ∀ q ∈ d.pairList, q.addr ≠ a) :
    Represents none (s.kfreePair a) (k.kfree a) := by
  have hfreed : Represents none { s with pairs := Function.update s.pairs a none } k :=
    { h with
      pair := fun d hd q hq => (Function.update_of_ne (hfresh d hd q hq) ..).trans (h.pair d hd q hq)
      pairOnly := fun b hb => by
        have hne : b ≠ a := by
          rintro rfl
          exact hb (Function.update_self ..)
        refine Or.inr ((h.pairOnly b fun hnone => hb ((Function.update_of_ne hne ..).trans hnone)).resolve_left ?_)
        exact fun heq => hne (Option.some.inj heq).symm }
  exact hfreed.kfree a

/-- `list_add_tail` of a pair that was in no list. -/
theorem linkPair (h : Represents (some p.addr) s k) (hd : d ∈ k.devs) (hput : s.pairs p.addr = some p)
    (hlt : p.addr < k.heap.next) (hfresh : ∀ d ∈ k.devs, ∀ q ∈ d.pairList, q.addr ≠ p.addr) :
    ∃ s', Linked.listAddTail (.pairEntry p.addr) (.pairList d.addr) s = .ok s' ∧
      Represents none s' (k.modifyDev d.addr fun d => { d with pairList := d.pairList ++ [p] }) := by
  have hring : k.Ring (.pairList d.addr) d.pairEntries := .pairs hd
  have hcells := h.rings.ring hring
  have hhead := h.access hring List.mem_cons_self
  have hnew : s.access (.pairEntry p.addr) = .ok () := by simp [LinkedKernel.access, hput]
  let f : Dev w → Dev w := fun d => { d with pairList := d.pairList ++ [p] }
  have hunused : Links.Unused k.Ring (.pairEntry p.addr) := by
    rintro head cells (iface | hd') hin
    · obtain ⟨_, _, heq⟩ := List.mem_map.mp ((List.mem_cons.mp hin).resolve_left nofun)
      exact absurd heq nofun
    · obtain ⟨q, hq, heq⟩ := List.mem_map.mp ((List.mem_cons.mp hin).resolve_left nofun)
      exact hfresh _ hd' q hq (ListHead.pairEntry.inj heq)
  have hdiff := h.addressed.differs_modifyDev (f := f) hd fun _ => rfl
  have hentries : (f d).pairEntries = d.pairEntries ++ [.pairEntry p.addr] := by
    rw [Dev.pairEntries, List.map_append, List.map_singleton, Dev.pairEntries]
  rw [hentries] at hdiff
  have hrings := h.rings.addLast hring hunused hdiff
  let m := s.links.insert (.pairEntry p.addr) (s.links.prev (.pairList d.addr)) (.pairList d.addr)
  refine ⟨{ s with links := m }, ?_, ?_⟩
  · rw [Linked.listAddTail, LinkedKernel.prev_eq hhead, Except.ok_bind]
    exact Linked.listAddBetween_eq hnew (h.access hring (hcells.prev_mem List.mem_cons_self)) hhead
  · have hwrite := h.write (f := f) hd none s.pairs (fun _ => rfl) (fun _ => rfl)
      (fun q hq => ?_) hrings (fun q hq => ?_) (fun d' hd' _ q hq => h.pair d' hd' q hq) (fun a ha => ?_)
    · rwa [h.update_record (f := f) hd rfl] at hwrite
    · rcases List.mem_append.mp hq with hold | hadded
      · exact Or.inl ⟨q, hold, rfl⟩
      · rw [List.mem_singleton.mp hadded]
        exact Or.inr ⟨hlt, hfresh⟩
    · rcases List.mem_append.mp hq with hold | hadded
      · exact h.pair d hd q hold
      · rw [List.mem_singleton.mp hadded]
        exact hput
    · refine Or.inr ?_
      rcases h.pairOnly a ha with hloose | ⟨d', hd', q, hq, rfl⟩
      · exact Or.inl ⟨p, List.mem_append_right _ List.mem_cons_self, Option.some.inj hloose⟩
      · by_cases heq : d' = d
        · subst heq
          exact Or.inl ⟨q, List.mem_append_left _ hq, rfl⟩
        · exact Or.inr ⟨d', hd', heq, q, hq, rfl⟩

/-- A listed pair overwritten. -/
theorem replacePair (h : Represents loose s k) (hd : d ∈ k.devs) {pre post : List (Pair w)} {p' : Pair w}
    (hsplit : d.pairList = pre ++ p :: post) (haddr : p'.addr = p.addr) :
    Represents loose (s.putPair p')
      (k.modifyDev d.addr fun d => { d with pairList := pre ++ p' :: post }) := by
  let f : Dev w → Dev w := fun d => { d with pairList := pre ++ p' :: post }
  have hp : p ∈ d.pairList := hsplit ▸ List.mem_append_right pre List.mem_cons_self
  have hsub : ∀ q, q ∈ pre ∨ q ∈ post → q ∈ d.pairList := by
    intro q hq
    rw [hsplit, List.mem_append, List.mem_cons]
    tauto
  have hring : k.Ring (.pairList d.addr) d.pairEntries := .pairs hd
  have hentries : (f d).pairEntries = d.pairEntries := by
    simp only [Dev.pairEntries, f, hsplit, List.map_append, List.map_cons, haddr]
  have hrings : s.links.Rings (k.modifyDev d.addr f).Ring := by
    refine h.rings.mono fun head cells hring' => ?_
    rcases h.addressed.differs_modifyDev (f := f) hd (fun _ => rfl) head cells hring' with
      ⟨rfl, rfl⟩ | ⟨_, hold⟩
    · rw [hentries]
      exact hring
    · exact hold
  -- the other pairs of the list stand elsewhere
  have hrest : ∀ q, q ∈ pre ∨ q ∈ post → q.addr ≠ p'.addr := by
    have hnodup := h.pair_addrs_nodup hd
    rw [hsplit, List.map_append, List.map_cons] at hnodup
    have hnotMem := (List.nodup_cons.mp (List.perm_middle.nodup_iff.mp hnodup)).1
    intro q hq heq
    refine hnotMem ?_
    rw [← haddr, ← heq, ← List.map_append]
    exact List.mem_map_of_mem (List.mem_append.mpr hq)
  have hmem : ∀ q ∈ (f d).pairList, q = p' ∨ q ∈ pre ∨ q ∈ post := by
    intro q hq
    rw [List.mem_append, List.mem_cons] at hq
    tauto
  have hwrite := h.write (f := f) hd loose (Function.update s.pairs p'.addr (some p'))
    (fun _ => rfl) (fun _ => rfl) (fun q hq => ?_) hrings (fun q hq => ?_) (fun d' hd' hne q hq => ?_)
    (fun a ha => ?_)
  · rwa [h.update_record (f := f) hd rfl] at hwrite
  · rcases hmem q hq with rfl | hold
    · exact Or.inl ⟨p, hp, haddr.symm⟩
    · exact Or.inl ⟨q, hsub q hold, rfl⟩
  · rcases hmem q hq with rfl | hold
    · exact Function.update_self ..
    · exact (Function.update_of_ne (hrest q hold) ..).trans (h.pair d hd q (hsub q hold))
  · have hqp : q.addr ≠ p'.addr := by
      intro heq
      exact hne (h.addressed.pairAddr d' hd' d hd q hq p hp (heq.trans haddr))
    exact (Function.update_of_ne hqp ..).trans (h.pair d' hd' q hq)
  · by_cases heq : a = p'.addr
    · exact Or.inr (Or.inl ⟨p', List.mem_append_right pre List.mem_cons_self, heq.symm⟩)
    · refine (h.pairOnly a fun hnone => ha ((Function.update_of_ne heq ..).trans hnone)).imp_right ?_
      rintro ⟨d', hd', q, hq, rfl⟩
      by_cases hsame : d' = d
      · subst hsame
        refine Or.inl ⟨q, ?_, rfl⟩
        rw [hsplit, List.mem_append, List.mem_cons] at hq
        rw [List.mem_append, List.mem_cons]
        rcases hq with hpre | rfl | hpost
        · exact Or.inl hpre
        · exact absurd haddr.symm heq
        · exact Or.inr (Or.inr hpost)
      · exact Or.inr ⟨d', hd', hsame, q, hq, rfl⟩

/-! ### Devices -/

theorem mem_ifaces (h : Represents loose s k) (hd : d ∈ k.devs) : d ∈ (k.ifaces d.iface).devList := by
  obtain ⟨iface, hmem⟩ := Kernel.mem_devs.mp hd
  rwa [h.addressed.iface iface d hmem]

theorem ifaces_delDev (d : Dev w) (k : Kernel w) : (delDev d k).ifaces = Function.update k.ifaces d.iface
    { devList := (k.ifaces d.iface).devList.filter fun d' => d'.addr ≠ d.addr
      devIndexes := Bitmap.clearBit d.index (k.ifaces d.iface).devIndexes } := by
  simp only [delDev, putDevIndex, unlinkDev, Kernel.kfree, Kernel.setIface, Function.update_self,
    Function.update_idem]

theorem ifaces_addDev (iface : HweIface) (index : Nat) (k : Kernel w) :
    (addDev true iface index k).2.ifaces = Function.update k.ifaces iface
      { devList := Dev.blank k.heap.next iface index :: (k.ifaces iface).devList
        devIndexes := Bitmap.setBit index (k.ifaces iface).devIndexes } := by
  simp only [addDev, Kernel.alloc, takeDevIndex, Kernel.setIface, Function.update_self, Function.update_idem,
    Dev.blank]
  rfl

theorem mem_delDev (h : Represents loose s k) (hd : d ∈ k.devs) {d' : Dev w} :
    d' ∈ (delDev d k).devs ↔ d' ∈ k.devs ∧ d'.addr ≠ d.addr := by
  simp only [Kernel.mem_devs, ifaces_delDev]
  constructor
  · rintro ⟨iface, hmem⟩
    by_cases heq : iface = d.iface
    · subst heq
      rw [Function.update_self] at hmem
      obtain ⟨hmem, hne⟩ := List.mem_filter.mp hmem
      exact ⟨⟨_, hmem⟩, by simpa using hne⟩
    · rw [Function.update_of_ne heq] at hmem
      refine ⟨⟨iface, hmem⟩, fun haddr => heq ?_⟩
      have hsame := h.addressed.devAddr d' (Kernel.mem_devs_of_mem hmem) d hd haddr
      rw [← h.addressed.iface iface d' hmem, hsame]
  · rintro ⟨⟨iface, hmem⟩, hne⟩
    refine ⟨iface, ?_⟩
    by_cases heq : iface = d.iface
    · subst heq
      rw [Function.update_self]
      exact List.mem_filter.mpr ⟨hmem, by simpa using hne⟩
    · rwa [Function.update_of_ne heq]

/-- `list_del`, `put_dev_index` and `kfree` of a device without pairs. -/
theorem removeDev (h : Represents loose s k) (hd : d ∈ k.devs) (hpairs : d.pairList = []) :
    ∃ s', Linked.delDev d.addr s = .ok s' ∧ Represents loose s' (delDev d k) := by
  have hiface := h.mem_ifaces hd
  obtain ⟨pre, post, hsplit, hpre, hpost⟩ := Keyed.split (h.addrs_nodup d.iface) hiface
  have hring : k.Ring (.devList d.iface) (k.devEntries d.iface) := .devs d.iface
  have hcells := h.rings.ring hring
  have hentries : k.devEntries d.iface = pre.map (fun e => .entry e.addr) ++
      .entry d.addr :: post.map fun e => .entry e.addr := by
    rw [Kernel.devEntries, hsplit, List.map_append, List.map_cons]
  have hmem : ListHead.entry d.addr ∈ ListHead.devList d.iface :: k.devEntries d.iface :=
    List.mem_cons_of_mem _ (List.mem_map.mpr ⟨d, hiface, rfl⟩)
  have hfilter : ((k.ifaces d.iface).devList.filter fun e => e.addr ≠ d.addr) = pre ++ post := by
    rw [hsplit]
    exact Keyed.filter_split hpre hpost
  have hdiff : Links.Differs k.Ring (delDev d k).Ring (.devList d.iface)
      (pre.map (fun e => .entry e.addr) ++ post.map fun e => .entry e.addr) := by
    rintro head cells (iface | hd')
    · by_cases heq : iface = d.iface
      · subst heq
        refine Or.inl ⟨rfl, ?_⟩
        rw [Kernel.devEntries, ifaces_delDev, Function.update_self, ← List.map_append, ← hfilter]
      · refine Or.inr ⟨by simpa using heq, ?_⟩
        rw [Kernel.devEntries, ifaces_delDev, Function.update_of_ne heq]
        exact .devs iface
    · exact Or.inr ⟨nofun, .pairs ((h.mem_delDev hd).mp hd').1⟩
  have hunused : Links.Unused (delDev d k).Ring (.entry d.addr) := by
    intro head cells hring'
    rcases hdiff head cells hring' with ⟨rfl, rfl⟩ | ⟨hne, hold⟩
    · rw [← List.map_append]
      intro hin
      obtain ⟨e, he, heq⟩ := List.mem_map.mp ((List.mem_cons.mp hin).resolve_left nofun)
      exact List.forall_mem_append.mpr ⟨hpre, hpost⟩ e he (ListHead.entry.inj heq)
    · exact fun hin => h.rings.apart hring hold (Ne.symm hne) hmem hin
  have hrings := (h.rings.remove (hentries ▸ hring) hdiff).frame
    (((s.links.join _ _).setNext (.entry d.addr) .poison1).setPrev (.entry d.addr) .poison2)
    fun c hc => by
      have hne : c ≠ .entry d.addr := by
        rintro rfl
        exact hc hunused
      exact ⟨Function.update_of_ne hne .., Function.update_of_ne hne ..⟩
  have hdel := Linked.listDel_eq (h.access hring hmem) (h.access hring (hcells.prev_mem hmem))
    (h.access hring (hcells.next_mem hmem))
  refine ⟨_, by rw [Linked.delDev, hdel, Except.ok_bind, LinkedKernel.derefDev, h.dev d hd]; rfl, ?_⟩
  exact
    { addressed :=
        { iface := fun iface e he => by
            rw [ifaces_delDev] at he
            by_cases heq : iface = d.iface
            · subst heq
              rw [Function.update_self] at he
              exact h.addressed.iface _ e (List.mem_of_mem_filter he)
            · rw [Function.update_of_ne heq] at he
              exact h.addressed.iface iface e he
          devAddr := fun e he e' he' =>
            h.addressed.devAddr e ((h.mem_delDev hd).mp he).1 e' ((h.mem_delDev hd).mp he').1
          pairAddr := fun e he e' he' =>
            h.addressed.pairAddr e ((h.mem_delDev hd).mp he).1 e' ((h.mem_delDev hd).mp he').1
          devFresh := fun e he => h.addressed.devFresh e ((h.mem_delDev hd).mp he).1
          pairFresh := fun e he => h.addressed.pairFresh e ((h.mem_delDev hd).mp he).1 }
      rings := hrings
      dev := fun e he => by
        obtain ⟨hold, hne⟩ := (h.mem_delDev hd).mp he
        exact (Function.update_of_ne hne ..).trans (h.dev e hold)
      pair := fun e he => h.pair e ((h.mem_delDev hd).mp he).1
      devOnly := fun a ha => by
        have hne : a ≠ d.addr := by
          rintro rfl
          exact ha (Function.update_self ..)
        obtain ⟨e, he, rfl⟩ := h.devOnly a fun hnone => ha ((Function.update_of_ne hne ..).trans hnone)
        exact ⟨e, (h.mem_delDev hd).mpr ⟨he, hne⟩, rfl⟩
      pairOnly := fun a ha => by
        refine (h.pairOnly a ha).imp_right ?_
        rintro ⟨e, he, p, hp, rfl⟩
        refine ⟨e, (h.mem_delDev hd).mpr ⟨he, fun heq => ?_⟩, p, hp, rfl⟩
        rw [h.addressed.devAddr e he d hd heq, hpairs] at hp
        exact absurd hp List.not_mem_nil
      devIndexes := fun iface => by
        rw [ifaces_delDev]
        by_cases heq : iface = d.iface
        · subst heq
          rw [Function.update_self]
          exact (Function.update_self ..).trans (congrArg (Bitmap.clearBit d.index) (h.devIndexes d.iface))
        · rw [Function.update_of_ne heq]
          exact (Function.update_of_ne heq ..).trans (h.devIndexes iface)
      sems := h.sems
      heap := by
        change Heap.mk _ _ = Heap.mk _ _
        simp only [putDevIndex, unlinkDev, Kernel.setIface, Linked.putDevIndex, h.heap] }

theorem mem_addDev {iface : HweIface} {index : Nat} {d' : Dev w} :
    d' ∈ (addDev true iface index k).2.devs ↔ d' = Dev.blank k.heap.next iface index ∨ d' ∈ k.devs := by
  simp only [Kernel.mem_devs, ifaces_addDev]
  constructor
  · rintro ⟨iface', hmem⟩
    by_cases heq : iface' = iface
    · subst heq
      rw [Function.update_self] at hmem
      exact (List.mem_cons.mp hmem).imp_right fun hold => ⟨_, hold⟩
    · rw [Function.update_of_ne heq] at hmem
      exact Or.inr ⟨iface', hmem⟩
  · rintro (rfl | ⟨iface', hmem⟩)
    · exact ⟨iface, by rw [Function.update_self]; exact List.mem_cons_self⟩
    · refine ⟨iface', ?_⟩
      by_cases heq : iface' = iface
      · subst heq
        rw [Function.update_self]
        exact List.mem_cons_of_mem _ hmem
      · rwa [Function.update_of_ne heq]

/-- The list heads of a device at a new address are in no ring. -/
theorem unused_new (h : Represents loose s k) :
    Links.Unused k.Ring (.pairList k.heap.next) ∧ Links.Unused k.Ring (.entry k.heap.next) := by
  have hfresh : ∀ d ∈ k.devs, d.addr ≠ k.heap.next := fun d hd => Nat.ne_of_lt (h.addressed.devFresh d hd)
  constructor
  · rintro head cells (iface | hd) hin
    · obtain ⟨_, _, heq⟩ := List.mem_map.mp ((List.mem_cons.mp hin).resolve_left nofun)
      exact absurd heq nofun
    · rcases List.mem_cons.mp hin with heq | hin
      · exact hfresh _ hd (ListHead.pairList.inj heq).symm
      · obtain ⟨_, _, heq⟩ := List.mem_map.mp hin
        exact absurd heq nofun
  · rintro head cells (iface | hd) hin
    · obtain ⟨d, hd, heq⟩ := List.mem_map.mp ((List.mem_cons.mp hin).resolve_left nofun)
      exact hfresh d (Kernel.mem_devs_of_mem hd) (ListHead.entry.inj heq)
    · obtain ⟨_, _, heq⟩ := List.mem_map.mp ((List.mem_cons.mp hin).resolve_left nofun)
      exact absurd heq nofun

/-- An empty ring for the pairs of the new device, and the device in the ring of its interface. -/
theorem rings_addDev (h : Represents loose s k) (iface : HweIface) (index : Nat) :
    let m := s.links.init (.pairList k.heap.next)
    m.next (.devList iface) ∈ ListHead.devList iface :: k.devEntries iface ∧
      (m.insert (.entry k.heap.next) (.devList iface) (m.next (.devList iface))).Rings
        (addDev true iface index k).2.Ring := by
  obtain ⟨hlist, hentry⟩ := h.unused_new
  -- the rings between the two steps
  let R : ListHead → List ListHead → Prop := fun head cells =>
    k.Ring head cells ∨ head = .pairList k.heap.next ∧ cells = []
  have hring : R (.devList iface) (k.devEntries iface) := Or.inl (.devs iface)
  have hrings : (s.links.init (.pairList k.heap.next)).Rings R := by
    refine h.rings.init hlist ?_
    rintro head cells (hold | ⟨rfl, rfl⟩)
    · refine Or.inr ⟨?_, hold⟩
      rintro rfl
      exact hlist _ _ hold List.mem_cons_self
    · exact Or.inl ⟨rfl, rfl⟩
  refine ⟨(hrings.ring hring).next_mem List.mem_cons_self, hrings.addFirst hring ?_ ?_⟩
  · rintro head cells (hold | ⟨rfl, rfl⟩)
    · exact hentry head cells hold
    · simp
  · rintro head cells (iface' | hd)
    · by_cases heq : iface' = iface
      · subst heq
        refine Or.inl ⟨rfl, ?_⟩
        rw [Kernel.devEntries, ifaces_addDev, Function.update_self]
        rfl
      · refine Or.inr ⟨by simpa using heq, Or.inl ?_⟩
        rw [Kernel.devEntries, ifaces_addDev, Function.update_of_ne heq]
        exact .devs iface'
    · refine Or.inr ⟨nofun, ?_⟩
      rcases mem_addDev.mp hd with rfl | hold
      · exact Or.inr ⟨rfl, rfl⟩
      · exact Or.inl (.pairs hold)

theorem addressed_addDev (h : Represents loose s k) (iface : HweIface) (index : Nat) :
    (addDev true iface index k).2.Addressed := by
  have hfresh : ∀ d ∈ k.devs, d.addr ≠ k.heap.next := fun d hd => Nat.ne_of_lt (h.addressed.devFresh d hd)
  constructor
  · intro iface' e he
    rw [ifaces_addDev] at he
    by_cases heq : iface' = iface
    · subst heq
      rw [Function.update_self] at he
      rcases List.mem_cons.mp he with rfl | hold
      · rfl
      · exact h.addressed.iface _ e hold
    · rw [Function.update_of_ne heq] at he
      exact h.addressed.iface iface' e he
  · intro e he e' he' heq
    rcases mem_addDev.mp he with rfl | hold
    · rcases mem_addDev.mp he' with rfl | hold'
      · rfl
      · exact absurd heq.symm (hfresh e' hold')
    · rcases mem_addDev.mp he' with rfl | hold'
      · exact absurd heq (hfresh e hold)
      · exact h.addressed.devAddr e hold e' hold' heq
  · intro e he e' he' p hp p' hp' heq
    rcases mem_addDev.mp he with rfl | hold
    · exact absurd hp List.not_mem_nil
    · rcases mem_addDev.mp he' with rfl | hold'
      · exact absurd hp' List.not_mem_nil
      · exact h.addressed.pairAddr e hold e' hold' p hp p' hp' heq
  · intro e he
    rcases mem_addDev.mp he with rfl | hold
    · exact Nat.lt_succ_self _
    · exact Nat.lt_succ_of_lt (h.addressed.devFresh e hold)
  · intro e he p hp
    rcases mem_addDev.mp he with rfl | hold
    · exact absurd hp List.not_mem_nil
    · exact Nat.lt_succ_of_lt (h.addressed.pairFresh e hold p hp)

/-- The record, its index, its empty list of pairs and its place in the list of the interface. -/
theorem linkDev (h : Represents loose s k) (iface : HweIface) (index : Nat) :
    ∃ s', Linked.addDev true iface index s = .ok (some k.heap.next, s') ∧
      Represents loose s' (addDev true iface index k).2 := by
  let new : Dev w := Dev.blank k.heap.next iface index
  let s₁ : LinkedKernel w := Linked.takeDevIndex iface index
    { s.alloc.2 with devs := Function.update s.devs k.heap.next (some new.record) }
  have hkept : ∀ d ∈ k.devs, s₁.devs d.addr = some d.record := fun d hd =>
    (Function.update_of_ne (Nat.ne_of_lt (h.addressed.devFresh d hd)) ..).trans (h.dev d hd)
  have hself : s₁.devs k.heap.next = some new.record := Function.update_self ..
  obtain ⟨hnext, hrings⟩ := h.rings_addDev iface index
  -- all memory that is followed is in use
  have haccess : ∀ c ∈ ListHead.devList iface :: k.devEntries iface, s₁.access c = .ok () := by
    intro c hc
    rcases List.mem_cons.mp hc with rfl | hc
    · rfl
    · obtain ⟨d, hd, rfl⟩ := List.mem_map.mp hc
      simp [LinkedKernel.access, hkept d (Kernel.mem_devs_of_mem hd)]
  have hentry : s₁.access (.entry k.heap.next) = .ok () := by simp [LinkedKernel.access, hself]
  have hlist : s₁.access (.pairList k.heap.next) = .ok () := by simp [LinkedKernel.access, hself]
  let s₂ : LinkedKernel w := { s₁ with links := s.links.init (.pairList k.heap.next) }
  have hinit : Linked.initListHead (.pairList k.heap.next) s₁ = .ok s₂ := Linked.initListHead_eq hlist
  let m := s₂.links.insert (.entry k.heap.next) (.devList iface) (s₂.links.next (.devList iface))
  have hadd : Linked.listAdd (.entry k.heap.next) (.devList iface) s₂ = .ok { s₂ with links := m } := by
    have hhead : s₂.access (.devList iface) = .ok () := rfl
    rw [Linked.listAdd, LinkedKernel.next_eq hhead, Except.ok_bind]
    exact Linked.listAddBetween_eq hentry hhead (haccess _ hnext)
  refine ⟨{ s₂ with links := m }, ?_, ?_⟩
  · have hrun : ∀ a, s.heap.next = a → Linked.addDev true iface index s = (do
        let s ← Linked.initListHead (.pairList a) (Linked.takeDevIndex iface index
          { s.alloc.2 with devs := Function.update s.devs a (some (Dev.blank (w := w) a iface index).record) })
        let s ← Linked.listAdd (.entry a) (.devList iface) s
        return (some a, s)) := by
      rintro _ rfl
      rfl
    rw [hrun k.heap.next (by rw [h.heap]), hinit, Except.ok_bind, hadd]
    rfl
  · exact
      { addressed := h.addressed_addDev iface index
        rings := hrings
        dev := fun e he => by
          rcases mem_addDev.mp he with rfl | hold
          · exact hself
          · exact hkept e hold
        pair := fun e he p hp => by
          rcases mem_addDev.mp he with rfl | hold
          · exact absurd hp List.not_mem_nil
          · exact h.pair e hold p hp
        devOnly := fun a ha => by
          by_cases heq : a = k.heap.next
          · exact ⟨new, mem_addDev.mpr (Or.inl rfl), heq.symm⟩
          · obtain ⟨e, he, rfl⟩ := h.devOnly a fun hnone => ha ((Function.update_of_ne heq ..).trans hnone)
            exact ⟨e, mem_addDev.mpr (Or.inr he), rfl⟩
        pairOnly := fun a ha => by
          refine (h.pairOnly a ha).imp_right ?_
          rintro ⟨e, he, hp⟩
          exact ⟨e, mem_addDev.mpr (Or.inr he), hp⟩
        devIndexes := fun iface' => by
          rw [ifaces_addDev]
          by_cases heq : iface' = iface
          · subst heq
            rw [Function.update_self]
            exact (Function.update_self ..).trans (congrArg (Bitmap.setBit index) (h.devIndexes _))
          · rw [Function.update_of_ne heq]
            exact (Function.update_of_ne heq ..).trans (h.devIndexes iface')
        sems := h.sems
        heap := by
          change Heap.mk (s.heap.next + 1) s.heap.freed = Heap.mk (k.heap.next + 1) k.heap.freed
          rw [h.heap] }

end Represents

end

end Hwemu
