import Hwemu.StoreInvariant

/-!
# Asynchronous interactions

The timer of `hwe_async.c`. A tick goes through the interfaces whose semaphore it can take, their
devices and their pairs, and calls the driver's `async_rx` for each timer pair that is due. The calls
are what can be observed of a tick.
-/

namespace Hwemu

variable {w : Nat}

/-- `time_after_eq(a, b)`, the signed comparison. -/
def timeAfterEq (a b : BitVec w) : Bool := 0 ≤ (a - b).toInt

/-- A call of `async_rx[iface](device, pair)`. -/
structure RxCall (w : Nat) where
  iface : HweIface
  device : Option Nat
  pair : Pair w
  deriving DecidableEq

/-- `j`, the time at which a timer pair is due; 0 stands for a pair that has not been due yet. -/
def timerTime (jiff : BitVec w) (p : Pair w) : BitVec w :=
  if p.time ≠ 0 then p.time + p.period else jiff

/-- The body of the loop over the pairs: the pair as it is left, and whether `async_rx` is called. -/
def timerPair (jiff : BitVec w) (p : Pair w) : Pair w × Bool :=
  if !p.asyncRx then (p, false)
  else
    let j := timerTime jiff p
    if timeAfterEq jiff j then ({ p with time := j }, true) else (p, false)

/-- The loop over the pairs of a device. -/
def timerPairs (jiff : BitVec w) (iface : HweIface) (device : Option Nat) :
    List (Pair w) → List (Pair w) × List (RxCall w)
  | [] => ([], [])
  | p :: ps =>
      let (p, fired) := timerPair jiff p
      let (ps, calls) := timerPairs jiff iface device ps
      (p :: ps, if fired then ⟨iface, device, p⟩ :: calls else calls)

def findFirstDevice (devList : List (Dev w)) : Option (Dev w) := devList.head?

/-- The device behind the one at an address. -/
def findNextDevice (device : Nat) : List (Dev w) → Option (Dev w)
  | [] => none
  | d :: devList => if d.addr = device then devList.head? else findNextDevice device devList

/-- The loop over the devices of an interface, from the device `dev` on. -/
def timerDevs (jiff : BitVec w) (iface : HweIface) :
    Nat → Option (Dev w) → List (Dev w) → List (Dev w) × List (RxCall w)
  | 0, _, devList => (devList, [])
  | _ + 1, none, devList => (devList, [])
  | fuel + 1, some dev, devList =>
      let (pairs, calls) := timerPairs jiff iface dev.device dev.pairList
      let devList := devList.map fun d => if d.addr = dev.addr then { d with pairList := pairs } else d
      let (devList, rest) := timerDevs jiff iface fuel (findNextDevice dev.addr devList) devList
      (devList, calls ++ rest)

/-- The body of the loop over the interfaces. -/
def timerIface (jiff : BitVec w) (k : Kernel w) (iface : HweIface) : Kernel w × List (RxCall w) :=
  match tryLockIfaceDevs iface k with
  | none => (k, [])
  | some k =>
      let devList := (k.ifaces iface).devList
      let (devList, calls) := timerDevs jiff iface devList.length (findFirstDevice devList) devList
      (unlockIfaceDevs iface (k.setIface iface { k.ifaces iface with devList := devList }), calls)

/-- The loop over the interfaces. -/
def timerIfaces (jiff : BitVec w) : List HweIface → Kernel w → Kernel w × List (RxCall w)
  | [], k => (k, [])
  | iface :: rest, k =>
      let (k, calls) := timerIface jiff k iface
      let (k, more) := timerIfaces jiff rest k
      (k, calls ++ more)

/-- `timer_func` up to the restart of the timer. -/
def timerFunc (jiff : BitVec w) (k : Kernel w) : Kernel w × List (RxCall w) :=
  timerIfaces jiff HweIface.all k

/-! ### The loops -/

def Dev.ticked (jiff : BitVec w) (d : Dev w) : Dev w :=
  { d with pairList := d.pairList.map fun p => (timerPair jiff p).1 }

/-- The call made for a pair, if any. -/
def Pair.call (jiff : BitVec w) (iface : HweIface) (device : Option Nat) (p : Pair w) :
    List (RxCall w) :=
  if (timerPair jiff p).2 then [⟨iface, device, (timerPair jiff p).1⟩] else []

def Dev.calls (jiff : BitVec w) (iface : HweIface) (d : Dev w) : List (RxCall w) :=
  d.pairList.flatMap (Pair.call jiff iface d.device)

theorem timerPair_same (jiff : BitVec w) (p : Pair w) :
    ∃ time, (timerPair jiff p).1 = { p with time := time } := by
  unfold timerPair
  split
  · exact ⟨p.time, rfl⟩
  · dsimp only
    split
    · exact ⟨_, rfl⟩
    · exact ⟨p.time, rfl⟩

theorem timerPair_timer {p : Pair w} (hasync : p.asyncRx = true) (jiff : BitVec w) :
    timerPair jiff p = if timeAfterEq jiff (timerTime jiff p) then
      ({ p with time := timerTime jiff p }, true) else (p, false) := by
  unfold timerPair
  rw [hasync]
  rfl

theorem timerPairs_eq (jiff : BitVec w) (iface : HweIface) (device : Option Nat) (ps : List (Pair w)) :
    timerPairs jiff iface device ps =
      (ps.map fun p => (timerPair jiff p).1, ps.flatMap (Pair.call jiff iface device)) := by
  induction ps with
  | nil => rfl
  | cons p ps ih =>
      rw [timerPairs, ih, List.flatMap_cons, Pair.call]
      cases hpair : timerPair jiff p with
      | mk p' fired =>
          cases fired with
          | false => simp [hpair]
          | true => simp [hpair]

theorem findNextDevice_append {pre post : List (Dev w)} {d : Dev w}
    (h : ((pre ++ d :: post).map (·.addr)).Nodup) :
    findNextDevice d.addr (pre ++ d :: post) = post.head? := by
  induction pre with
  | nil => exact if_pos rfl
  | cons e pre ih =>
      obtain ⟨hnotMem, hrest⟩ := List.nodup_cons.mp h
      have hne : e.addr ≠ d.addr := by
        intro heq
        apply hnotMem
        exact List.mem_map.mpr ⟨d, List.mem_append_right pre List.mem_cons_self, heq.symm⟩
      rw [List.cons_append, findNextDevice, if_neg hne]
      exact ih hrest

/-- **The loop over the devices** visits each device once. -/
theorem timerDevs_eq (jiff : BitVec w) (iface : HweIface) {pre post : List (Dev w)} {fuel : Nat}
    (hfuel : post.length ≤ fuel) (hnodup : ((pre ++ post).map (·.addr)).Nodup) :
    timerDevs jiff iface fuel post.head? (pre ++ post) =
      (pre ++ post.map (Dev.ticked jiff), post.flatMap (Dev.calls jiff iface)) := by
  induction post generalizing pre fuel with
  | nil =>
      cases fuel with
      | zero => rfl
      | succ fuel => rfl
  | cons d post ih =>
      cases fuel with
      | zero => simp at hfuel
      | succ fuel =>
          have hwritten : ((pre ++ d :: post).map fun d' =>
              if d'.addr = d.addr then
                { d' with pairList := d.pairList.map fun p => (timerPair jiff p).1 } else d') =
              pre ++ d.ticked jiff :: post := by
            have hother : ∀ e ∈ pre ++ post, e.addr ≠ d.addr := by
              intro e he heq
              rw [List.map_append, List.map_cons] at hnodup
              apply (List.nodup_cons.mp (List.perm_middle.nodup_iff.mp hnodup)).1
              rw [← heq, ← List.map_append]
              exact List.mem_map_of_mem he
            have hkeep : ∀ devList : List (Dev w), (∀ e ∈ devList, e ∈ pre ++ post) →
                (devList.map fun d' => if d'.addr = d.addr then
                  { d' with pairList := d.pairList.map fun p => (timerPair jiff p).1 } else d') =
                  devList := by
              intro devList hsub
              conv => rhs; rw [← List.map_id devList]
              apply List.map_congr_left
              intro e he
              exact if_neg (hother e (hsub e he))
            rw [List.map_append, List.map_cons, if_pos rfl,
              hkeep pre fun e he => List.mem_append_left _ he,
              hkeep post fun e he => List.mem_append_right _ he]
            rfl
          have haddrs : (((pre ++ [d.ticked jiff]) ++ post).map (·.addr)).Nodup := by
            simpa [Dev.ticked] using hnodup
          have hnext : findNextDevice d.addr (pre ++ d.ticked jiff :: post) = post.head? := by
            have hsame : d.addr = (d.ticked jiff).addr := rfl
            rw [hsame]
            apply findNextDevice_append
            simpa using haddrs
          rw [List.head?_cons, timerDevs, timerPairs_eq]
          dsimp only
          rw [hwritten, hnext, List.append_cons, ih (Nat.le_of_succ_le_succ hfuel) haddrs]
          simp [Dev.calls]

def Iface.ticked (jiff : BitVec w) (ifc : Iface w) : Iface w :=
  { ifc with devList := ifc.devList.map (Dev.ticked jiff) }

def Iface.calls (jiff : BitVec w) (iface : HweIface) (ifc : Iface w) : List (RxCall w) :=
  ifc.devList.flatMap (Dev.calls jiff iface)

/-- The devices of each interface have addresses of their own. -/
def Kernel.AddrsNodup (k : Kernel w) : Prop :=
  ∀ iface, ((k.ifaces iface).devList.map (·.addr)).Nodup

theorem StoreInv.addrsNodup {k : Kernel w} (h : StoreInv k) : k.AddrsNodup := by
  intro iface
  apply List.Nodup.map_on
  · intro d hd d' hd' haddr
    exact h.devAddr d (Kernel.mem_devs_of_mem hd) d' (Kernel.mem_devs_of_mem hd') haddr
  · exact (h.indexes iface).nodup.of_map

theorem timerIface_busy {k : Kernel w} {iface : HweIface} (jiff : BitVec w) (hsem : k.sems iface = 0) :
    timerIface jiff k iface = (k, []) := by
  unfold timerIface tryLockIfaceDevs
  rw [if_pos hsem]

theorem timerIface_free {k : Kernel w} {iface : HweIface} (jiff : BitVec w) (hsem : k.sems iface ≠ 0)
    (hnodup : ((k.ifaces iface).devList.map (·.addr)).Nodup) :
    timerIface jiff k iface =
      (k.setIface iface ((k.ifaces iface).ticked jiff), (k.ifaces iface).calls jiff iface) := by
  have hloop := @timerDevs_eq w jiff iface [] (k.ifaces iface).devList _ le_rfl hnodup
  have hsems : Function.update (Function.update k.sems iface (k.sems iface - 1)) iface
      (k.sems iface - 1 + 1) = k.sems := by
    rw [Function.update_idem, Nat.sub_add_cancel (Nat.pos_of_ne_zero hsem), Function.update_eq_self]
  unfold timerIface tryLockIfaceDevs
  rw [if_neg hsem]
  simp only [Kernel.setSem, findFirstDevice]
  rw [List.nil_append] at hloop
  rw [hloop]
  simp only [unlockIfaceDevs, Kernel.setSem, Kernel.setIface, Function.update_self, hsems,
    List.nil_append]
  rfl

theorem timerIfaces_eq (jiff : BitVec w) {rest : List HweIface} {k : Kernel w} (hrest : rest.Nodup)
    (hnodup : ∀ iface, k.sems iface ≠ 0 → ((k.ifaces iface).devList.map (·.addr)).Nodup) :
    timerIfaces jiff rest k =
      ({ k with ifaces := fun iface => if iface ∈ rest ∧ k.sems iface ≠ 0 then
          (k.ifaces iface).ticked jiff else k.ifaces iface },
        rest.flatMap fun iface => if k.sems iface ≠ 0 then (k.ifaces iface).calls jiff iface
          else []) := by
  induction rest generalizing k with
  | nil => simp [timerIfaces]
  | cons iface rest ih =>
      obtain ⟨hnotMem, hrest⟩ := List.nodup_cons.mp hrest
      rw [timerIfaces]
      by_cases hsem : k.sems iface = 0
      · rw [timerIface_busy jiff hsem]
        dsimp only
        rw [ih hrest hnodup]
        apply Prod.ext
        · dsimp only
          congr 1
          funext i
          by_cases hi : i = iface
          · subst hi
            simp [hsem]
          · simp [hi]
        · simp [hsem]
      · rw [timerIface_free jiff hsem (hnodup iface hsem)]
        dsimp only
        have hnodup' : ∀ i, k.sems i ≠ 0 →
            (((k.setIface iface ((k.ifaces iface).ticked jiff)).ifaces i).devList.map (·.addr)).Nodup := by
          intro i hfree
          by_cases hi : i = iface
          · subst hi
            simpa [Kernel.setIface, Iface.ticked, Dev.ticked, Function.comp_def] using hnodup i hfree
          · simpa [Kernel.setIface, hi] using hnodup i hfree
        rw [ih hrest hnodup']
        apply Prod.ext
        · dsimp only [Kernel.setIface]
          congr 1
          funext i
          by_cases hi : i = iface
          · subst hi
            simp [hsem, hnotMem]
          · simp [hi]
        · dsimp only [Kernel.setIface]
          rw [List.flatMap_cons, if_pos hsem]
          congr 1
          apply List.flatMap_congr
          intro i hi
          have hne : i ≠ iface := by
            rintro rfl
            exact hnotMem hi
          rw [Function.update_of_ne hne]
          rfl

/-- **A whole tick**, whatever the interfaces hold that it cannot enter. -/
theorem timerFunc_entered (jiff : BitVec w) {k : Kernel w}
    (hnodup : ∀ iface, k.sems iface ≠ 0 → ((k.ifaces iface).devList.map (·.addr)).Nodup) :
    timerFunc jiff k =
      ({ k with ifaces := fun iface => if k.sems iface ≠ 0 then (k.ifaces iface).ticked jiff
          else k.ifaces iface },
        HweIface.all.flatMap fun iface => if k.sems iface ≠ 0 then (k.ifaces iface).calls jiff iface
          else []) := by
  have hloop := @timerIfaces_eq w jiff HweIface.all k (by decide) hnodup
  simp only [HweIface.mem_all, true_and] at hloop
  exact hloop

theorem timerFunc_eq (jiff : BitVec w) {k : Kernel w} (hnodup : k.AddrsNodup) :
    timerFunc jiff k =
      ({ k with ifaces := fun iface => if k.sems iface ≠ 0 then (k.ifaces iface).ticked jiff
          else k.ifaces iface },
        HweIface.all.flatMap fun iface => if k.sems iface ≠ 0 then (k.ifaces iface).calls jiff iface
          else []) :=
  timerFunc_entered jiff fun iface _ => hnodup iface

/-! ### The store after a tick -/

/-- The record of a device after a tick that takes the semaphores of the interfaces in `free`. -/
def Dev.tickedIn (free : HweIface → Bool) (jiff : BitVec w) (d : Dev w) : Dev w :=
  if free d.iface then d.ticked jiff else d

section

variable {k k' : Kernel w} {d : Dev w} {jiff : BitVec w} {free : HweIface → Bool}

theorem Dev.tickedIn_eq (free : HweIface → Bool) (jiff : BitVec w) (d : Dev w) :
    ∃ pairs, d.tickedIn free jiff = { d with pairList := pairs } ∧
      ∀ p ∈ pairs, ∃ q ∈ d.pairList, q.addr = p.addr := by
  unfold Dev.tickedIn
  split
  · refine ⟨_, rfl, ?_⟩
    intro p hp
    obtain ⟨q, hq, rfl⟩ := List.mem_map.mp hp
    obtain ⟨time, hsame⟩ := timerPair_same jiff q
    refine ⟨q, hq, ?_⟩
    rw [hsame]
  · exact ⟨d.pairList, rfl, fun p hp => ⟨p, hp, rfl⟩⟩

theorem Dev.Ok.ticked (h : d.Ok) (jiff : BitVec w) : (d.ticked jiff).Ok := by
  have hsame : ∀ p : Pair w, (timerPair jiff p).1 = { p with time := (timerPair jiff p).1.time } := by
    intro p
    obtain ⟨time, htime⟩ := timerPair_same jiff p
    rw [htime]
  have hmap : ∀ {β : Type} (f : Pair w → β), (∀ p time, f { p with time := time } = f p) →
      (d.ticked jiff).pairList.map f = d.pairList.map f := by
    intro β f hf
    unfold Dev.ticked
    rw [List.map_map]
    apply List.map_congr_left
    intro p _
    rw [Function.comp_apply, hsame, hf]
  have hall : ∀ {P : Pair w → Prop}, (∀ p time, P p → P { p with time := time }) →
      (∀ p ∈ d.pairList, P p) → ∀ p ∈ (d.ticked jiff).pairList, P p := by
    intro P hP hold p hp
    obtain ⟨q, hq, rfl⟩ := List.mem_map.mp hp
    rw [hsame]
    exact hP q _ (hold q hq)
  constructor
  · rw [hmap _ fun _ _ => rfl]
    exact h.indexes
  · exact hall (fun _ _ hp => hp) h.owner
  · exact hall (fun _ _ hp => ⟨hp.resp_pos, hp.resp_le, hp.sync, hp.timer⟩) h.valid
  · exact hall (fun _ _ hp => hp) h.filename
  · unfold Dev.ticked
    rw [List.pairwise_map]
    apply h.distinct.imp
    intro p q hpq hp hq
    rw [hsame p] at hp ⊢
    rw [hsame q] at hq ⊢
    exact hpq hp hq
  · rw [hmap _ fun _ _ => rfl]
    exact h.addrs

theorem StoreInv.mem_devs_ticked (h : StoreInv k) {d' : Dev w}
    (hifaces : k'.ifaces = fun iface => if free iface then (k.ifaces iface).ticked jiff
      else k.ifaces iface) :
    d' ∈ k'.devs ↔ ∃ d ∈ k.devs, d.tickedIn free jiff = d' := by
  have hlist : ∀ iface, (k'.ifaces iface).devList =
      (k.ifaces iface).devList.map (Dev.tickedIn free jiff) := by
    intro iface
    have hmap : (k.ifaces iface).devList.map (Dev.tickedIn free jiff) =
        (k.ifaces iface).devList.map fun d => if free iface then d.ticked jiff else d := by
      apply List.map_congr_left
      intro d hd
      rw [Dev.tickedIn, h.iface iface d hd]
    rw [hmap, hifaces]
    dsimp only
    split
    · rfl
    · exact (List.map_id _).symm
  simp only [Kernel.mem_devs, hlist, List.mem_map]
  constructor
  · rintro ⟨iface, d, hd, heq⟩
    exact ⟨d, ⟨iface, hd⟩, heq⟩
  · rintro ⟨d, ⟨iface, hd⟩, heq⟩
    exact ⟨iface, d, hd, heq⟩

/-- **A tick keeps the invariant.** -/
theorem StoreInv.ticked (h : StoreInv k)
    (hifaces : k'.ifaces = fun iface => if free iface then (k.ifaces iface).ticked jiff
      else k.ifaces iface)
    (hheap : k'.heap = k.heap) : StoreInv k' := by
  have hdevs : ∀ {d'}, d' ∈ k'.devs → ∃ d ∈ k.devs, d.tickedIn free jiff = d' :=
    (h.mem_devs_ticked hifaces).mp
  constructor
  · intro iface
    rw [hifaces]
    dsimp only
    split
    · have hindexes : ((k.ifaces iface).ticked jiff).devList.map (·.index) =
          (k.ifaces iface).devList.map (·.index) := by
        simp [Iface.ticked, Dev.ticked, Function.comp_def]
      rw [hindexes]
      exact h.indexes iface
    · exact h.indexes iface
  · intro iface d' hd'
    rw [hifaces] at hd'
    dsimp only at hd'
    split at hd'
    · obtain ⟨d, hd, rfl⟩ := List.mem_map.mp hd'
      exact h.iface iface d hd
    · exact h.iface iface d' hd'
  · intro d' hd'
    obtain ⟨d, hd, rfl⟩ := hdevs hd'
    unfold Dev.tickedIn
    split
    · exact (h.ok d hd).ticked jiff
    · exact h.ok d hd
  · intro d' hd'
    obtain ⟨d, hd, rfl⟩ := hdevs hd'
    obtain ⟨pairs, heq, _⟩ := d.tickedIn_eq free jiff
    have hpub := h.published d hd
    rw [heq]
    exact ⟨hpub.name, hpub.device, hpub.pairsKobj⟩
  · intro d₁' hmem₁ d₂' hmem₂ haddr
    obtain ⟨d₁, hd₁, rfl⟩ := hdevs hmem₁
    obtain ⟨d₂, hd₂, rfl⟩ := hdevs hmem₂
    obtain ⟨_, heq₁, _⟩ := d₁.tickedIn_eq free jiff
    obtain ⟨_, heq₂, _⟩ := d₂.tickedIn_eq free jiff
    rw [heq₁, heq₂] at haddr
    rw [h.devAddr d₁ hd₁ d₂ hd₂ haddr]
  · intro d₁' hmem₁ d₂' hmem₂ p hp p' hp' haddr
    obtain ⟨d₁, hd₁, rfl⟩ := hdevs hmem₁
    obtain ⟨d₂, hd₂, rfl⟩ := hdevs hmem₂
    obtain ⟨_, heq₁, hold₁⟩ := d₁.tickedIn_eq free jiff
    obtain ⟨_, heq₂, hold₂⟩ := d₂.tickedIn_eq free jiff
    rw [heq₁] at hp
    rw [heq₂] at hp'
    obtain ⟨q, hq, hqp⟩ := hold₁ p hp
    obtain ⟨q', hq', hqp'⟩ := hold₂ p' hp'
    rw [h.pairAddr d₁ hd₁ d₂ hd₂ q hq q' hq' (hqp.trans (haddr.trans hqp'.symm))]
  · intro d' hd'
    obtain ⟨d, hd, rfl⟩ := hdevs hd'
    obtain ⟨_, heq, _⟩ := d.tickedIn_eq free jiff
    rw [heq, hheap]
    exact h.devFresh d hd
  · intro d' hd' p hp
    obtain ⟨d, hd, rfl⟩ := hdevs hd'
    obtain ⟨_, heq, hold⟩ := d.tickedIn_eq free jiff
    rw [heq] at hp
    obtain ⟨q, hq, hqp⟩ := hold p hp
    rw [hheap, ← hqp]
    exact h.pairFresh d hd q hq

end

end Hwemu
