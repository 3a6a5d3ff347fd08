import Hwemu.LinkedOps
import Hwemu.TimerRuns

/-!
# Runs of the linked store

The timer, loading and unloading on the linked store, and the refinement: whatever happens to the module
after it is loaded, the linked store and the store of lists cannot be told apart.
-/

namespace Hwemu

variable {w : Nat} {s s' : LinkedKernel w} {k k' : Kernel w} {d : Dev w} {p : Pair w} {jiff : BitVec w}
  {iface : HweIface}

/-! ### The timer -/

theorem timerPair_idle (h : (timerPair jiff p).2 = false) : (timerPair jiff p).1 = p := by
  unfold timerPair at h ⊢
  split
  · rfl
  · rename_i hsync
    rw [if_neg hsync] at h
    dsimp only at h ⊢
    split
    · rename_i hdue
      rw [if_pos hdue] at h
      exact absurd h Bool.true_eq_false.mp
    · rfl

namespace Kernel

theorem Addressed.modifyDev_eq (h : k.Addressed) (hd : d ∈ k.devs) {f : Dev w → Dev w} (hf : f d = d) :
    k.modifyDev d.addr f = k := by
  have hmap : ∀ iface, ((k.ifaces iface).devList.map fun d' => if d'.addr = d.addr then f d' else d') =
      (k.ifaces iface).devList := by
    intro iface
    refine (List.map_congr_left ?_).trans (List.map_id _)
    intro d' hd'
    by_cases heq : d'.addr = d.addr
    · rw [if_pos heq, h.devAddr d' (mem_devs_of_mem hd') d hd heq, hf]
      rfl
    · rw [if_neg heq]
      rfl
  simp only [Kernel.modifyDev, hmap]

/-- A write to one device is a write to its place in the list of its interface. -/
theorem Addressed.modifyDev_setIface (h : k.Addressed) {pre post : List (Dev w)}
    (hsplit : (k.ifaces iface).devList = pre ++ d :: post)
    (hnodup : ((k.ifaces iface).devList.map (·.addr)).Nodup) (f : Dev w → Dev w) :
    k.modifyDev d.addr f =
      k.setIface iface { k.ifaces iface with devList := pre ++ f d :: post } := by
  have hmem : d ∈ (k.ifaces iface).devList := hsplit ▸ List.mem_append_right pre List.mem_cons_self
  have hkeep : ∀ l : List (Dev w), (∀ e ∈ l, e.addr ≠ d.addr) →
      (l.map fun e => if e.addr = d.addr then f e else e) = l := by
    intro l hl
    refine (List.map_congr_left fun e he => ?_).trans (List.map_id l)
    exact if_neg (hl e he)
  rw [hsplit, List.map_append, List.map_cons, List.nodup_append] at hnodup
  obtain ⟨_, hpost, hapart⟩ := hnodup
  simp only [Kernel.modifyDev, Kernel.setIface, Kernel.mk.injEq, and_true]
  funext iface'
  by_cases heq : iface' = iface
  · subst heq
    rw [Function.update_self, hsplit, List.map_append, List.map_cons, if_pos rfl]
    congr 2
    · refine hkeep pre fun e he => ?_
      exact hapart e.addr (List.mem_map_of_mem he) d.addr List.mem_cons_self
    · refine congrArg (f d :: ·) (hkeep post fun e he haddr => ?_)
      exact (List.nodup_cons.mp hpost).1 (haddr ▸ List.mem_map_of_mem he)
  · rw [Function.update_of_ne heq]
    congr 1
    refine hkeep _ fun e he haddr => heq ?_
    have hsame := h.devAddr e (mem_devs_of_mem he) d (mem_devs_of_mem hmem) haddr
    rw [← h.iface iface' e he, hsame, h.iface iface d hmem]

end Kernel

namespace Represents

/-- The loop over the pairs of a device from the pairs `post` on, by induction on them. -/
theorem timerPairsFrom_eq (jiff : BitVec w) (iface : HweIface) (h : Represents none s k) (hd : d ∈ k.devs)
    (pre : List (Pair w)) {post : List (Pair w)} {fuel : Nat}
    (hsplit : d.pairList = pre ++ post) (hfuel : post.length < fuel) :
    ∃ s', Linked.timerPairsFrom jiff iface d.addr fuel
        ((post.map fun p => ListHead.pairEntry p.addr).headD (.pairList d.addr)) s =
        .ok (post.flatMap (Pair.call jiff iface d.device), s') ∧
      Represents none s' (k.modifyDev d.addr fun d => { d with
        pairList := pre ++ post.map fun p => (timerPair jiff p).1 }) := by
  induction post generalizing s k d pre fuel with
  | nil =>
      obtain ⟨fuel, rfl⟩ := Nat.exists_eq_succ_of_ne_zero (Nat.ne_of_gt hfuel)
      refine ⟨s, by rw [Linked.timerPairsFrom]; exact if_pos rfl, ?_⟩
      rw [h.addressed.modifyDev_eq hd]
      · exact h
      · rw [List.map_nil, ← hsplit]
  | cons p post ih =>
      obtain ⟨fuel, rfl⟩ := Nat.exists_eq_succ_of_ne_zero (Nat.ne_of_gt (Nat.zero_lt_of_lt hfuel))
      have hp : p ∈ d.pairList := hsplit ▸ List.mem_append_right pre List.mem_cons_self
      -- what stands behind the entry of the pair
      have hnext : ∀ {s₁ : LinkedKernel w} {k₁ : Kernel w} {d₁ : Dev w} {p₁ : Pair w},
          Represents none s₁ k₁ → d₁ ∈ k₁.devs → d₁.pairList = pre ++ p₁ :: post →
          s₁.next (.pairEntry p₁.addr) =
            .ok ((post.map fun p => ListHead.pairEntry p.addr).headD (.pairList d₁.addr)) := by
        intro s₁ k₁ d₁ p₁ h₁ hd₁ hsplit₁
        have hring : k₁.Ring (.pairList d₁.addr) d₁.pairEntries := .pairs hd₁
        have hmem : ListHead.pairEntry p₁.addr ∈ d₁.pairEntries :=
          List.mem_map.mpr ⟨p₁, hsplit₁ ▸ List.mem_append_right pre List.mem_cons_self, rfl⟩
        have hcells := h₁.rings.ring hring
        rw [Dev.pairEntries, hsplit₁, List.map_append, List.map_cons] at hcells
        rw [LinkedKernel.next_eq (h₁.access hring (List.mem_cons_of_mem _ hmem)), hcells.next_cell]
      rw [Linked.timerPairsFrom, List.map_cons, List.headD_cons, if_neg ListHead.noConfusion]
      simp only [ListHead.toPair, Except.ok_bind]
      rw [h.derefPair hd hp, Except.ok_bind]
      cases hfired : (timerPair jiff p).2 with
      | false =>
          have hidle := timerPair_idle hfired
          obtain ⟨s', hloop, h'⟩ := ih h hd (pre ++ [p]) (by rw [hsplit, List.append_cons])
            (Nat.lt_of_succ_lt_succ hfuel)
          refine ⟨s', ?_, ?_⟩
          · simp only [Bool.false_eq_true, if_false]
            rw [hnext h hd hsplit, Except.ok_bind, List.flatMap_cons, Pair.call, hfired]
            exact hloop
          · rw [List.map_cons, hidle, List.append_cons]
            exact h'
      | true =>
          let p' := (timerPair jiff p).1
          obtain ⟨time, htime⟩ := timerPair_same jiff p
          have haddr : (timerPair jiff p).1.addr = p.addr := by rw [htime]
          let f : Dev w → Dev w := fun d => { d with pairList := pre ++ p' :: post }
          have h₁ := h.replacePair hd hsplit haddr
          have hd₁ : f d ∈ (k.modifyDev d.addr f).devs := Kernel.mem_devs_modifyDev.mpr ⟨d, hd, if_pos rfl⟩
          obtain ⟨s', hloop, h'⟩ := ih h₁ hd₁ (pre ++ [p']) (List.append_cons pre p' post)
            (Nat.lt_of_succ_lt_succ hfuel)
          refine ⟨s', ?_, ?_⟩
          · have hstep := hnext h₁ hd₁ rfl
            rw [haddr] at hstep
            simp only [if_true]
            rw [h₁.derefDev hd₁, Except.ok_bind, hstep, Except.ok_bind, hloop, List.flatMap_cons, Pair.call,
              if_pos hfired]
            rfl
          · let g : Dev w → Dev w := fun d => { d with
              pairList := pre ++ [p'] ++ post.map fun p => (timerPair jiff p).1 }
            have hcompose : (k.modifyDev d.addr f).modifyDev d.addr g = k.modifyDev d.addr (g ∘ f) :=
              Kernel.modifyDev_modifyDev fun _ => rfl
            have hwritten : Represents none s' ((k.modifyDev d.addr f).modifyDev d.addr g) := h'
            rw [hcompose] at hwritten
            rw [List.map_cons, List.append_cons]
            exact hwritten

/-- The device behind the device `d` of the list. -/
theorem findNextDevice_eq (h : Represents none s k) {pre post : List (Dev w)}
    (hsplit : (k.ifaces iface).devList = pre ++ d :: post) :
    Linked.findNextDevice iface d.addr s = .ok (post.head?.map (·.addr)) := by
  have hring : k.Ring (.devList iface) (k.devEntries iface) := .devs iface
  have hmem : ListHead.entry d.addr ∈ k.devEntries iface :=
    List.mem_map.mpr ⟨d, hsplit ▸ List.mem_append_right pre List.mem_cons_self, rfl⟩
  have hcells := h.rings.ring hring
  rw [Kernel.devEntries, hsplit, List.map_append, List.map_cons] at hcells
  have hnext := LinkedKernel.next_eq (h.access hring (List.mem_cons_of_mem _ hmem))
  rw [hcells.next_cell] at hnext
  rw [Linked.findNextDevice, hnext, Except.ok_bind]
  cases post with
  | nil => exact if_pos rfl
  | cons e post =>
      rw [List.map_cons, List.headD_cons, if_neg ListHead.noConfusion]
      rfl

theorem findFirstDevice_eq (h : Represents none s k) (iface : HweIface) :
    Linked.findFirstDevice iface s = .ok ((k.ifaces iface).devList.head?.map (·.addr)) := by
  have hring : k.Ring (.devList iface) (k.devEntries iface) := .devs iface
  have hnext := LinkedKernel.next_eq (h.access hring List.mem_cons_self)
  rw [(h.rings.ring hring).next_head, Kernel.devEntries] at hnext
  rw [Linked.findFirstDevice, Linked.listEmpty, hnext]
  cases (k.ifaces iface).devList with
  | nil => simp
  | cons d devs => simp [ListHead.toDev]

/-- The loop over the devices of an interface from the devices `post` on, by induction on them. -/
theorem timerDevsFrom_eq (jiff : BitVec w) (iface : HweIface) (h : Represents none s k) (pre : List (Dev w))
    {post : List (Dev w)} {fuel : Nat}
    (hsplit : (k.ifaces iface).devList = pre ++ post) (hpairs : ∀ d ∈ post, d.pairList.length ≤ hweMaxPairs)
    (hfuel : post.length < fuel) :
    ∃ s', Linked.timerDevsFrom jiff iface fuel (post.head?.map (·.addr)) s =
        .ok (post.flatMap (Dev.calls jiff iface), s') ∧
      Represents none s' (k.setIface iface { k.ifaces iface with
        devList := pre ++ post.map (Dev.ticked jiff) }) := by
  induction post generalizing s k pre fuel with
  | nil =>
      obtain ⟨fuel, rfl⟩ := Nat.exists_eq_succ_of_ne_zero (Nat.ne_of_gt hfuel)
      refine ⟨s, rfl, ?_⟩
      rw [List.map_nil, ← hsplit, Kernel.setIface, Function.update_eq_self]
      exact h
  | cons d post ih =>
      obtain ⟨fuel, rfl⟩ := Nat.exists_eq_succ_of_ne_zero (Nat.ne_of_gt (Nat.zero_lt_of_lt hfuel))
      have hmem : d ∈ (k.ifaces iface).devList := hsplit ▸ List.mem_append_right pre List.mem_cons_self
      have hd := Kernel.mem_devs_of_mem hmem
      have hring : k.Ring (.pairList d.addr) d.pairEntries := .pairs hd
      obtain ⟨s₁, hloop, h₁⟩ := timerPairsFrom_eq jiff iface h hd []
        (List.nil_append _).symm (Nat.lt_succ_of_le (hpairs d List.mem_cons_self))
      rw [h.addressed.modifyDev_setIface hsplit (h.addrs_nodup iface)] at h₁
      let k₁ := k.setIface iface { k.ifaces iface with devList := pre ++ d.ticked jiff :: post }
      have h₁ : Represents none s₁ k₁ := h₁
      have hsplit₁ : (k₁.ifaces iface).devList = pre ++ d.ticked jiff :: post := by
        simp only [k₁, Kernel.setIface, Function.update_self]
      obtain ⟨s₂, hrest, h₂⟩ := ih h₁ (pre ++ [d.ticked jiff])
        (by rw [hsplit₁, List.append_cons]) (fun e he => hpairs e (List.mem_cons_of_mem d he))
        (Nat.lt_of_succ_lt_succ hfuel)
      refine ⟨s₂, ?_, ?_⟩
      · have hfirst := LinkedKernel.next_eq (h.access hring List.mem_cons_self)
        rw [(h.rings.ring hring).next_head, Dev.pairEntries] at hfirst
        have hnext := h₁.findNextDevice_eq hsplit₁
        have haddr : (d.ticked jiff).addr = d.addr := rfl
        rw [haddr] at hnext
        rw [List.head?_cons, Option.map_some, Linked.timerDevsFrom, hfirst, Except.ok_bind, hloop,
          Except.ok_bind]
        dsimp only
        rw [hnext, Except.ok_bind, hrest]
        rfl
      · simp only [k₁, Kernel.setIface, Function.update_self, Function.update_idem] at h₂
        rw [Kernel.setIface, List.map_cons, List.append_cons]
        exact h₂

theorem timerIface_eq (jiff : BitVec w) (iface : HweIface) (h : Represents none s k) (hinv : StoreInv k) :
    ∃ s', Linked.timerIface jiff iface s = .ok ((timerIface jiff k iface).2, s') ∧
      Represents none s' (timerIface jiff k iface).1 ∧ StoreInv (timerIface jiff k iface).1 := by
  by_cases hsem : k.sems iface = 0
  · rw [timerIface_busy jiff hsem]
    refine ⟨s, ?_, h, hinv⟩
    rw [Linked.timerIface, Linked.tryLockIfaceDevs, h.sems, if_pos hsem]
    rfl
  · have hticked : StoreInv (k.setIface iface ((k.ifaces iface).ticked jiff)) := by
      refine @StoreInv.ticked w _ _ jiff (fun i => decide (i = iface)) hinv ?_ rfl
      funext i
      by_cases heq : i = iface
      · subst heq
        simp [Kernel.setIface]
      · simp [Kernel.setIface, heq]
    rw [timerIface_free jiff hsem (hinv.addrsNodup iface)]
    have h₁ := h.setSem iface (k.sems iface - 1)
    obtain ⟨s₂, hloop, h₂⟩ := timerDevsFrom_eq jiff iface h₁ []
      (List.nil_append _).symm (fun d hd => length_pairList hinv (Kernel.mem_devs_of_mem hd))
      (Nat.lt_succ_of_le (length_devList hinv iface))
    have hsems : s₂.sems iface = k.sems iface - 1 := by
      rw [h₂.sems]
      exact Function.update_self ..
    refine ⟨Linked.unlockIfaceDevs iface s₂, ?_, ?_, hticked⟩
    · rw [Linked.timerIface, Linked.tryLockIfaceDevs, h.sems, if_neg hsem]
      dsimp only
      rw [h₁.findFirstDevice_eq, Except.ok_bind]
      exact Except.bind_of_eq_ok hloop _
    · have hunlock := h₂.setSem iface (k.sems iface - 1 + 1)
      have hsame : Function.update (Function.update k.sems iface (k.sems iface - 1)) iface
          (k.sems iface - 1 + 1) = k.sems := by
        rw [Function.update_idem, Nat.sub_add_cancel (Nat.pos_of_ne_zero hsem), Function.update_eq_self]
      rw [Linked.unlockIfaceDevs, hsems]
      simp only [Kernel.setSem, Kernel.setIface, hsame] at hunlock
      exact hunlock

theorem timerIfaces_eq (jiff : BitVec w) (rest : List HweIface) (h : Represents none s k) (hinv : StoreInv k) :
    ∃ s', Linked.timerIfaces jiff rest s = .ok ((timerIfaces jiff rest k).2, s') ∧
      Represents none s' (timerIfaces jiff rest k).1 := by
  induction rest generalizing s k with
  | nil => exact ⟨s, rfl, h⟩
  | cons iface rest ih =>
      obtain ⟨s₁, hfirst, h₁, hinv₁⟩ := timerIface_eq jiff iface h hinv
      obtain ⟨s₂, hrest, h₂⟩ := ih h₁ hinv₁
      refine ⟨s₂, ?_, h₂⟩
      rw [Linked.timerIfaces, hfirst, Except.ok_bind]
      exact Except.bind_of_eq_ok hrest _

theorem timerTick_eq (jiff : BitVec w) (free : HweIface → Bool) (h : Represents none s k) (hinv : StoreInv k) :
    ∃ s', Linked.timerTick jiff free s = .ok ((timerTick jiff free k).2, s') ∧
      Represents none s' (timerTick jiff free k).1 := by
  let sems : HweIface → Nat := fun iface => if free iface then k.sems iface else 0
  have h₀ : Represents none { s with sems := sems } { k with sems := sems } := h.congr rfl le_rfl rfl h.heap rfl
  obtain ⟨s₁, hloop, h₁⟩ := timerIfaces_eq jiff HweIface.all h₀ (hinv.congr rfl le_rfl)
  refine ⟨{ s₁ with sems := s.sems }, ?_, h₁.congr rfl le_rfl h.sems h₁.heap rfl⟩
  rw [Linked.timerTick, h.sems]
  exact Except.bind_of_eq_ok hloop _

end Represents

/-! ### Loading -/

theorem initIface_eq (iface : HweIface) (s : LinkedKernel w) : Linked.initIface iface s = .ok
    { s with
      links := s.links.init (.devList iface)
      devIndexes := Function.update s.devIndexes iface 0
      sems := Function.update s.sems iface 1 } := by
  rw [Linked.initIface, Linked.initListHead_eq rfl]
  rfl

/-- The loop of `hwe_init_sysfs`: an empty ring for each interface. -/
theorem initIfaces_eq (s : LinkedKernel w) (done rest : List HweIface) (hnodup : (done ++ rest).Nodup)
    (hrings : s.links.Rings fun head cells => ∃ iface ∈ done, head = .devList iface ∧ cells = []) :
    ∃ s', rest.foldlM (fun s iface => Linked.initIface iface s) s = .ok s' ∧
      (s'.links.Rings fun head cells => ∃ iface ∈ done ++ rest, head = .devList iface ∧ cells = []) ∧
      s'.devs = s.devs ∧ s'.pairs = s.pairs ∧ s'.heap = s.heap ∧
      ∀ iface, s'.devIndexes iface = (if iface ∈ rest then 0 else s.devIndexes iface) ∧
        s'.sems iface = if iface ∈ rest then 1 else s.sems iface := by
  induction rest generalizing s done with
  | nil => exact ⟨s, rfl, by rwa [List.append_nil], rfl, rfl, rfl, fun iface => ⟨rfl, rfl⟩⟩
  | cons iface rest ih =>
      have hdone : iface ∉ done := fun hmem =>
        (List.nodup_append.mp hnodup).2.2 iface hmem iface List.mem_cons_self rfl
      have hrings₁ : (s.links.init (.devList iface)).Rings fun head cells =>
          ∃ i ∈ done ++ [iface], head = .devList i ∧ cells = [] := by
        refine hrings.init ?_ ?_
        · rintro head cells ⟨i, hi, rfl, rfl⟩ hmem
          rw [List.mem_singleton] at hmem
          exact hdone (ListHead.devList.inj hmem ▸ hi)
        · rintro head cells ⟨i, hi, rfl, rfl⟩
          rcases List.mem_append.mp hi with hold | hnew
          · refine Or.inr ⟨fun heq => hdone (ListHead.devList.inj heq ▸ hold), i, hold, rfl, rfl⟩
          · rw [List.mem_singleton.mp hnew]
            exact Or.inl ⟨rfl, rfl⟩
      rw [List.append_cons] at hnodup
      obtain ⟨s', hloop, hrings', hdevs, hpairs, hheap, hfields⟩ := ih
        { s with
          links := s.links.init (.devList iface)
          devIndexes := Function.update s.devIndexes iface 0
          sems := Function.update s.sems iface 1 } (done ++ [iface]) hnodup hrings₁
      refine ⟨s', ?_, by rwa [List.append_cons], hdevs, hpairs, hheap, fun i => ?_⟩
      · rw [List.foldlM_cons, initIface_eq]
        exact hloop
      · obtain ⟨hindexes, hsems⟩ := hfields i
        rw [hindexes, hsems]
        by_cases heq : i = iface
        · subst heq
          simp
        · simp [heq]

/-- An empty store in memory. -/
theorem Represents.loaded (links : Links ListHead) (devIndexes : HweIface → BitVec hweMaxDevices)
    (sems : HweIface → Nat) :
    ∃ s' : LinkedKernel w, Linked.hweInitSysfs (.start links devIndexes sems) = .ok s' ∧
      Represents none s' (Kernel.loaded w) := by
  obtain ⟨s', hloop, hrings, hdevs, hpairs, hheap, hfields⟩ :=
    initIfaces_eq (.start links devIndexes sems : LinkedKernel w) [] HweIface.all (by decide) ⟨nofun, nofun⟩
  have hnone : ∀ d, d ∉ (Kernel.loaded w).devs := fun d hd => absurd hd List.not_mem_nil
  refine ⟨s', hloop, ?_⟩
  exact
    { addressed := StoreInv.loaded.addressed
      rings := hrings.mono fun head cells hring => by
        cases hring with
        | devs iface => exact ⟨iface, iface.mem_all, rfl, rfl⟩
        | pairs hd => exact absurd hd (hnone _)
      dev := fun d hd => absurd hd (hnone d)
      pair := fun d hd => absurd hd (hnone d)
      devOnly := fun a ha => by
        rw [hdevs] at ha
        exact absurd rfl ha
      pairOnly := fun a ha => by
        rw [hpairs] at ha
        exact absurd rfl ha
      devIndexes := fun iface => by
        rw [(hfields iface).1, if_pos iface.mem_all]
        rfl
      sems := by
        funext iface
        rw [(hfields iface).2, if_pos iface.mem_all]
        rfl
      heap := hheap }

/-! ### Runs -/

/-- What happens to the store: an operation, a command with the structure that it reads and writes, a read of
the file `count` of a device or of a pair file, a request that a driver looks up, or a tick while operations
hold the semaphores of the interfaces that are not `free`. -/
inductive StoreEvent (w : Nat) where
  | op (op : Op w)
  | ioctl (cmd arg : Nat) (hp : HweioctlPair) (env : IoctlEnv w)
  | count (dev : Nat)
  | pairFile (ifaceName devName filename : List UInt8)
  | request (dev : Nat) (req : List UInt8) (reqSize : Int)
  | tick (jiff : BitVec w) (free : HweIface → Bool)

inductive StoreOutput (w : Nat) where
  | ret (ret : Int)
  | command (ret : Int) (hp : HweioctlPair)
  | text (text : List UInt8)
  | response (pair : Option (Pair w))
  | calls (calls : List (RxCall w))

namespace StoreEvent

def exec (HZ : Nat) : StoreEvent w → Kernel w → Except Fault (StoreOutput w × Kernel w)
  | op o, k => do
      let (ret, k) ← Hwemu.exec HZ o k
      return (.ret ret, k)
  | ioctl cmd arg hp env, k => do
      let ((ret, hp), k) ← hwemuIoctl HZ cmd arg hp env k
      return (.command ret hp, k)
  | count dev, k => do
      let (text, k) ← devCountShow dev k
      return (.text text, k)
  | pairFile ifaceName devName filename, k => do
      let (text, k) ← pairShow ifaceName devName filename k
      return (.text text, k)
  | request dev req reqSize, k => do
      let d ← k.deref dev
      return (.response (findResponse d req reqSize), k)
  | tick jiff free, k =>
      let (k, calls) := timerTick jiff free k
      return (.calls calls, k)

end StoreEvent

namespace Linked

def exec (HZ : Nat) : Op w → LinkedKernel w → Except Fault (Int × LinkedKernel w)
  | .ifaceAddStore iface buf env, s => ifaceAddStore iface buf env s
  | .hweAddDevice iface env, s => hweAddDevice iface env s
  | .ifaceUninstallStore iface buf, s => ifaceUninstallStore iface buf s
  | .hweDeleteDevice iface devIndex, s => hweDeleteDevice iface devIndex s
  | .devAddStore dev buf env, s => devAddStore HZ dev buf env s
  | .hweAddPair iface devIndex pairStr env, s => hweAddPair HZ iface devIndex pairStr env s
  | .devDeleteStore dev buf, s => devDeleteStore dev buf s
  | .hweDeletePair iface devIndex pairIndex, s => hweDeletePair iface devIndex pairIndex s
  | .devClearStore dev buf, s => devClearStore dev buf s
  | .hweClearPairs iface devIndex, s => hweClearPairs iface devIndex s
  | .hwemuIoctl cmd arg hp env, s => do
      let ((ret, _), s) ← hwemuIoctl HZ cmd arg hp env s
      return (ret, s)

/-- An event on the linked store. A response is the pair that the pointer points at. -/
def execEvent (HZ : Nat) : StoreEvent w → LinkedKernel w → Except Fault (StoreOutput w × LinkedKernel w)
  | .op o, s => do
      let (ret, s) ← exec HZ o s
      return (.ret ret, s)
  | .ioctl cmd arg hp env, s => do
      let ((ret, hp), s) ← hwemuIoctl HZ cmd arg hp env s
      return (.command ret hp, s)
  | .count dev, s => do
      let (text, s) ← devCountShow dev s
      return (.text text, s)
  | .pairFile ifaceName devName filename, s => do
      let (text, s) ← pairShow ifaceName devName filename s
      return (.text text, s)
  | .request dev req reqSize, s => do
      match ← findResponse dev req reqSize s with
      | none => return (.response none, s)
      | some pair => return (.response (some (← s.derefPair pair)), s)
  | .tick jiff free, s => do
      let (calls, s) ← timerTick jiff free s
      return (.calls calls, s)

/-- Loading, a run, and unloading. -/
def lifetime (HZ : Nat) (links : Links ListHead) (devIndexes : HweIface → BitVec hweMaxDevices)
    (sems : HweIface → Nat) (events : List (StoreEvent w)) :
    Except Fault (List (StoreOutput w) × LinkedKernel w) := do
  let s ← hweInitSysfs (.start links devIndexes sems)
  let (outs, s) ← Machine.execAll (execEvent HZ) events s
  return (outs, ← hweCleanupSysfs s)

end Linked

/-! ### One event -/

/-- The invariant of the runs: the memory holds the store, which is well formed and has its semaphores free. -/
structure Simulates (s : LinkedKernel w) (k : Kernel w) : Prop where
  represents : Represents none s k
  inv : StoreInv k
  sems : ∀ iface, k.sems iface = 1

variable {HZ : Nat}

theorem exec_rel (h : Represents none s k) (hinv : StoreInv k) (op : Op w) :
    Except.Rel Answers (Linked.exec HZ op s) (exec HZ op k) := by
  cases op with
  | ifaceAddStore iface buf env => exact h.ifaceAddStore_rel hinv iface buf env
  | hweAddDevice iface env => exact h.hweAddDevice_rel hinv iface env
  | ifaceUninstallStore iface buf => exact h.ifaceUninstallStore_rel hinv iface buf
  | hweDeleteDevice iface devIndex => exact h.hweDeleteDevice_rel hinv iface devIndex
  | devAddStore dev buf env => exact h.devAddStore_rel hinv HZ dev buf env
  | hweAddPair iface devIndex pairStr env => exact h.hweAddPair_rel hinv HZ iface devIndex pairStr env
  | devDeleteStore dev buf => exact h.devDeleteStore_rel hinv dev buf
  | hweDeletePair iface devIndex pairIndex => exact h.hweDeletePair_rel hinv iface devIndex pairIndex
  | devClearStore dev buf => exact h.devClearStore_rel hinv dev buf
  | hweClearPairs iface devIndex => exact h.hweClearPairs_rel hinv iface devIndex
  | hwemuIoctl cmd arg hp env =>
      refine (h.hwemuIoctl_rel hinv HZ cmd arg hp env).bind ?_
      rintro ⟨⟨ret, hp'⟩, s₁⟩ ⟨_, k₁⟩ ⟨rfl, h₁⟩
      exact .ok ⟨rfl, h₁⟩

/-- What only reads under the lock leaves the store as it is. -/
theorem withLock_keep {α : Type} {a : α} {body : Kernel w → Except Fault (α × Kernel w)}
    (hbody : ∀ {k₀ k₁ a}, body k₀ = .ok (a, k₁) → k₁ = k₀) (hrun : withLock iface k body = .ok (a, k')) :
    Changed .keep k k' := by
  obtain ⟨hsem, k₁, hread, rfl⟩ := withLock_eq_ok.mp hrun
  obtain rfl := hbody hread
  exact (Changed.refl _).unlock hsem

theorem devCountShow_keep {dev : Nat} {text : List UInt8} (hrun : devCountShow dev k = .ok (text, k')) :
    Changed .keep k k' := by
  obtain ⟨d, _, hlock⟩ := Except.bind_eq_ok_iff.mp hrun
  refine withLock_keep (fun hread => ?_) hlock
  exact (Prod.mk.inj (Except.ok.inj hread)).2.symm

theorem pairShow_keep {ifaceName devName filename text : List UInt8}
    (hrun : pairShow ifaceName devName filename k = .ok (text, k')) : Changed .keep k k' := by
  unfold pairShow at hrun
  split at hrun
  · obtain ⟨_, rfl⟩ := Prod.mk.inj (Except.ok.inj hrun)
    exact Changed.refl k
  · split at hrun
    · obtain ⟨_, rfl⟩ := Prod.mk.inj (Except.ok.inj hrun)
      exact Changed.refl k
    · obtain ⟨⟨ret, k₁⟩, hlock, hret⟩ := Except.bind_eq_ok_iff.mp hrun
      have hkeep : Changed .keep k k₁ := by
        refine withLock_keep (fun hread => ?_) hlock
        split at hread
        · exact (Prod.mk.inj (Except.ok.inj hread)).2.symm
        · split at hread
          · exact (Prod.mk.inj (Except.ok.inj hread)).2.symm
          · exact (Prod.mk.inj (Except.ok.inj hread)).2.symm
      dsimp only at hret
      split at hret
      · obtain ⟨_, rfl⟩ := Prod.mk.inj (Except.ok.inj hret)
        exact hkeep
      · obtain ⟨_, rfl⟩ := Prod.mk.inj (Except.ok.inj hret)
        exact hkeep

/-- The state relation after an event that makes a single change, if the events answer the same. -/
theorem Simulates.step {α β : Type} (h : Simulates s k) {x : Except Fault (α × LinkedKernel w)}
    {y : Except Fault (α × Kernel w)} (hrel : Except.Rel Answers x y)
    (hchanged : ∀ {a k'}, y = .ok (a, k') → ∃ c, Changed c k k') (f : α → β) :
    Except.Rel (fun a b => a.1 = b.1 ∧ Simulates a.2 b.2)
      (x >>= fun r => .ok (f r.1, r.2)) (y >>= fun r => .ok (f r.1, r.2)) := by
  cases hrel with
  | error e => exact .error e
  | ok hab =>
      rename_i a b
      obtain ⟨a, s₁⟩ := a
      obtain ⟨b, k₁⟩ := b
      obtain ⟨rfl, h₁⟩ := hab
      obtain ⟨c, hc⟩ := hchanged rfl
      refine .ok ⟨rfl, h₁, h.inv.changed hc, fun iface => ?_⟩
      exact (congrFun hc.sems iface).trans (h.sems iface)

theorem request_rel (HZ : Nat) (h : Represents none s k) (hinv : StoreInv k) (dev : Nat) (req : List UInt8) (reqSize : Int) :
    Except.Rel (fun a b => a.1 = b.1 ∧ a.2 = s ∧ b.2 = k) (Linked.execEvent HZ (.request dev req reqSize) s)
      ((StoreEvent.request dev req reqSize).exec HZ k) := by
  by_cases hlisted : ∃ d ∈ k.devs, d.addr = dev
  · obtain ⟨d, hd, rfl⟩ := hlisted
    rw [Linked.execEvent, Linked.findResponse, h.findPair_eq hinv hd, StoreEvent.exec, hinv.deref_eq hd,
      Except.ok_bind, Except.ok_bind, findResponse]
    cases hfind : findPair d.pairList req (toSizeT reqSize) with
    | none => exact .ok ⟨rfl, rfl, rfl⟩
    | some p =>
        dsimp only [Option.map_some]
        rw [h.derefPair hd (List.mem_of_find?_eq_some hfind)]
        exact .ok ⟨rfl, rfl, rfl⟩
  · have hgone : s.devs dev = none := by
      by_contra hne
      exact hlisted (h.devOnly dev hne)
    have hnext : s.next (.pairList dev) = .error .useAfterFree := by
      rw [LinkedKernel.next, LinkedKernel.access, hgone]
      rfl
    have hrel := h.deref_rel dev
    rw [LinkedKernel.derefDev, hgone] at hrel
    have hderef : k.deref dev = .error .useAfterFree := by
      cases hk : k.deref dev with
      | ok d =>
          rw [hk] at hrel
          cases hrel
      | error e =>
          rw [hk] at hrel
          cases hrel
          rfl
    rw [Linked.execEvent, Linked.findResponse, Linked.findPair, Linked.findInPairs, Linked.listFind, hnext,
      StoreEvent.exec, hderef]
    exact .error _

/-- **One event** on the linked store and on the store of lists. -/
theorem execEvent_rel (HZ : Nat) (h : Simulates s k) (e : StoreEvent w) :
    Except.Rel (fun a b => a.1 = b.1 ∧ Simulates a.2 b.2) (Linked.execEvent HZ e s) (e.exec HZ k) := by
  cases e with
  | op o =>
      exact h.step (exec_rel h.represents h.inv o) (fun hrun => exec_changed h.inv hrun)
        (StoreOutput.ret (w := w))
  | ioctl cmd arg hp env =>
      refine h.step (h.represents.hwemuIoctl_rel h.inv HZ cmd arg hp env) (fun hrun => ?_)
        fun r => StoreOutput.command (w := w) r.1 r.2
      exact (hwemuIoctl_changed h.inv hrun).changed
  | count dev =>
      exact h.step (h.represents.devCountShow_rel h.inv dev) (fun hrun => ⟨_, devCountShow_keep hrun⟩)
        (StoreOutput.text (w := w))
  | pairFile ifaceName devName filename =>
      exact h.step (h.represents.pairShow_rel h.inv ifaceName devName filename)
        (fun hrun => ⟨_, pairShow_keep hrun⟩) (StoreOutput.text (w := w))
  | request dev req reqSize =>
      have hrel := request_rel HZ h.represents h.inv dev req reqSize
      generalize Linked.execEvent HZ (.request dev req reqSize) s = x at hrel ⊢
      generalize (StoreEvent.request dev req reqSize).exec HZ k = y at hrel ⊢
      cases hrel with
      | error e => exact .error e
      | ok hab =>
          obtain ⟨hout, hs, hk⟩ := hab
          exact .ok ⟨hout, by rw [hs, hk]; exact h⟩
  | tick jiff free =>
      obtain ⟨s₁, htick, h₁⟩ := Represents.timerTick_eq jiff free h.represents h.inv
      have htick' : SysStep HZ k (.tick jiff free (timerTick jiff free k).2) (timerTick jiff free k).1 := rfl
      have hinv := htick'.inv ⟨h.inv, h.sems⟩
      rw [Linked.execEvent, htick]
      exact .ok ⟨rfl, h₁, hinv.1, hinv.2⟩

/-! ### The refinement -/

theorem simulates_run (HZ : Nat) (links : Links ListHead) (devIndexes : HweIface → BitVec hweMaxDevices)
    (sems : HweIface → Nat) (events : List (StoreEvent w)) :
    ∃ s, Linked.hweInitSysfs (.start links devIndexes sems) = .ok s ∧
      Except.Rel (fun a b => a.1 = b.1 ∧ Simulates a.2 b.2)
        (Machine.execAll (Linked.execEvent HZ) events s)
        (Machine.execAll (StoreEvent.exec HZ) events (Kernel.loaded w)) := by
  obtain ⟨s, hinit, hs⟩ := Represents.loaded links devIndexes sems
  have hstart : Simulates s (Kernel.loaded w) := ⟨hs, StoreInv.loaded, fun _ => rfl⟩
  exact ⟨s, hinit, Machine.execAll_rel (Q := Simulates) (fun e _ _ h => execEvent_rel HZ h e) events hstart⟩

/-- **The linked store refines the store of lists.** After the module is loaded, whatever happens to it in any
order, the functions on linked lists answer as the functions on lists, fault where these fault, and leave a
memory that holds the store of lists: each list a ring through the records of just its members. -/
theorem linked_refines (HZ : Nat) (links : Links ListHead) (devIndexes : HweIface → BitVec hweMaxDevices)
    (sems : HweIface → Nat) (events : List (StoreEvent w)) :
    ∃ s, Linked.hweInitSysfs (.start links devIndexes sems) = .ok s ∧
      Except.Rel (fun a b => a.1 = b.1 ∧ Represents none a.2 b.2)
        (Machine.execAll (Linked.execEvent HZ) events s)
        (Machine.execAll (StoreEvent.exec HZ) events (Kernel.loaded w)) := by
  obtain ⟨s, hinit, hrel⟩ := simulates_run HZ links devIndexes sems events
  exact ⟨s, hinit, hrel.mono fun _ _ hab => ⟨hab.1, hab.2.represents⟩⟩

/-! ### Unloading -/

/-- The loop of `cleanup_iface`, by induction on the devices that are left. -/
theorem shutdownDevs_eq (h : Represents none s k) (hinv : StoreInv k) (iface : HweIface) {fuel : Nat}
    (hfuel : (k.ifaces iface).devList.length < fuel) :
    ∃ s' k', Linked.shutdownDevs iface fuel s = .ok s' ∧ Represents none s' k' ∧ StoreInv k' ∧
      (k'.ifaces iface).devList = [] ∧ ∀ i, i ≠ iface → k'.ifaces i = k.ifaces i := by
  generalize hdevs : (k.ifaces iface).devList = devs at hfuel
  induction devs generalizing s k fuel with
  | nil =>
      obtain ⟨fuel, rfl⟩ := Nat.exists_eq_succ_of_ne_zero (Nat.ne_of_gt hfuel)
      have hnext := LinkedKernel.next_eq (h.access (.devs iface) List.mem_cons_self)
      rw [(h.rings.ring (.devs iface)).next_head, Kernel.devEntries, hdevs] at hnext
      refine ⟨s, k, ?_, h, hinv, hdevs, fun _ _ => rfl⟩
      rw [Linked.shutdownDevs, Linked.listEmpty, hnext]
      simp
  | cons d devs ih =>
      obtain ⟨fuel, rfl⟩ := Nat.exists_eq_succ_of_ne_zero (Nat.ne_of_gt (Nat.zero_lt_of_lt hfuel))
      have hmem : d ∈ (k.ifaces iface).devList := hdevs ▸ List.mem_cons_self
      have hd := Kernel.mem_devs_of_mem hmem
      obtain rfl := hinv.iface iface d hmem
      obtain ⟨s₁, k₁, hshut, hshut', h₁⟩ := h.shutdownDev_eq hinv hd
      obtain ⟨k₂, hshut₂, hchanged⟩ := shutdownDev_changed hinv hd
      obtain rfl : k₁ = k₂ := Except.ok.inj (hshut'.symm.trans hshut₂)
      have hrest : (k₁.ifaces d.iface).devList = devs := by
        have hnodup := h.addrs_nodup d.iface
        rw [hdevs] at hnodup
        rw [hchanged.ifaces]
        simp only [Change.apply, Kernel.setIface, Function.update_self, hdevs]
        exact Keyed.filter_head hnodup
      obtain ⟨s', k', hloop, h', hinv', hempty, hkept⟩ := ih h₁ (hinv.changed hchanged) hrest
        (Nat.lt_of_succ_lt_succ hfuel)
      refine ⟨s', k', ?_, h', hinv', hempty, fun i hi => ?_⟩
      · have hnext := LinkedKernel.next_eq (h.access (.devs d.iface) List.mem_cons_self)
        rw [(h.rings.ring (.devs d.iface)).next_head, Kernel.devEntries, hdevs] at hnext
        rw [Linked.shutdownDevs, Linked.listEmpty, hnext]
        simp only [List.map_cons, List.headD_cons, Except.ok_bind, Except.pure_eq_ok, ListHead.toDev, hshut]
        exact hloop
      · rw [hkept i hi, hchanged.ifaces]
        exact Function.update_of_ne hi ..

theorem cleanupIfaces_eq (ifaces : List HweIface) (h : Represents none s k) (hinv : StoreInv k) :
    ∃ s' k', ifaces.foldlM (fun s iface => Linked.cleanupIface iface s) s = .ok s' ∧ Represents none s' k' ∧
      ∀ i, (k'.ifaces i).devList = if i ∈ ifaces then [] else (k.ifaces i).devList := by
  induction ifaces generalizing s k with
  | nil => exact ⟨s, k, rfl, h, fun i => by simp⟩
  | cons iface ifaces ih =>
      obtain ⟨s₁, k₁, hfirst, h₁, hinv₁, hempty, hkept⟩ :=
        shutdownDevs_eq h hinv iface (Nat.lt_succ_of_le (Represents.length_devList hinv iface))
      obtain ⟨s', k', hrest, h', hlists⟩ := ih h₁ hinv₁
      refine ⟨s', k', ?_, h', fun i => ?_⟩
      · rw [List.foldlM_cons]
        exact Except.bind_of_eq_ok hfirst _ ▸ hrest
      · rw [hlists i]
        by_cases heq : i = iface
        · subst heq
          simp [hempty]
        · simp [heq, hkept i heq]

theorem cleanupSysfs_eq (h : Represents none s k) (hinv : StoreInv k) :
    ∃ s', Linked.hweCleanupSysfs s = .ok s' ∧ (∀ dev, s'.devs dev = none) ∧ ∀ pair, s'.pairs pair = none := by
  obtain ⟨s', k', hloop, h', hlists⟩ := cleanupIfaces_eq HweIface.all.reverse h hinv
  have hnone : ∀ d, d ∉ k'.devs := by
    intro d hd
    obtain ⟨iface, hmem⟩ := Kernel.mem_devs.mp hd
    rw [hlists iface, if_pos (List.mem_reverse.mpr iface.mem_all)] at hmem
    exact List.not_mem_nil hmem
  refine ⟨s', hloop, fun dev => ?_, fun pair => ?_⟩
  · by_contra hne
    obtain ⟨d, hd, _⟩ := h'.devOnly dev hne
    exact hnone d hd
  · by_contra hne
    rcases h'.pairOnly pair hne with hloose | ⟨d, hd, _⟩
    · exact absurd hloose nofun
    · exact hnone d hd

/-- **Unloading frees what the store holds.** A module that is loaded, used and unloaded answers as the store of
lists does, the unloading does not fault, and no device and no pair is left in memory. -/
theorem lifetime_frees (HZ : Nat) (links : Links ListHead) (devIndexes : HweIface → BitVec hweMaxDevices)
    (sems : HweIface → Nat) (events : List (StoreEvent w)) :
    Except.Rel (fun a b => a.1 = b.1 ∧ (∀ dev, a.2.devs dev = none) ∧ ∀ pair, a.2.pairs pair = none)
      (Linked.lifetime HZ links devIndexes sems events)
      (Machine.execAll (StoreEvent.exec HZ) events (Kernel.loaded w)) := by
  obtain ⟨s₀, hinit, hrel⟩ := simulates_run HZ links devIndexes sems events
  unfold Linked.lifetime
  rw [hinit, Except.ok_bind]
  generalize Machine.execAll (Linked.execEvent HZ) events s₀ = x at hrel ⊢
  generalize Machine.execAll (StoreEvent.exec HZ) events (Kernel.loaded w) = y at hrel ⊢
  cases hrel with
  | error e => exact .error e
  | ok hab =>
      rename_i a b
      obtain ⟨outs, s₁⟩ := a
      obtain ⟨hout, hsim⟩ := hab
      obtain ⟨s', hclean, hdevs, hpairs⟩ := cleanupSysfs_eq hsim.represents hsim.inv
      rw [Except.ok_bind]
      dsimp only
      rw [Except.bind_of_eq_ok hclean]
      exact .ok ⟨hout, hdevs, hpairs⟩

end Hwemu
