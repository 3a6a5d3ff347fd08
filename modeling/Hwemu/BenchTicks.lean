import Hwemu.BenchCalls
import Hwemu.Lib.Machine

/-!
# Ticks

A tick goes through the interfaces, their devices and their pairs, and hands over what is due. On the bench
every device says its own lines and no other ones, and nothing depends on the order of the devices.
-/

namespace Hwemu

variable {w : Nat} {s s' : Emulator w} {b : Bench w} {d : Dev w} {dev : BenchDev w} {iface : HweIface} {p : PrivDev}
  {jiff : BitVec w} {free : HweIface → Bool} {env : HweIface → Nat → Nat → RxEnv}

/-! ### One delivery -/

/-- What a tick hands over: a pair that is due, of a device of the store. -/
structure Delivery (w : Nat) where
  iface : HweIface
  dev : Dev w
  pair : Pair w

def Delivery.call (x : Delivery w) : RxCall w := ⟨x.iface, x.dev.device, x.pair⟩

/-- The delivery on the bench. -/
def Bench.deliver (env : HweIface → Nat → Nat → RxEnv) (b : Bench w) (x : Delivery w) : Bench w :=
  match x.iface with
  | .tty => b.hear x.dev.index (x.pair.resp.take (env .tty x.dev.index x.pair.index).flip)
  | iface => b.modifyDev iface x.dev.index fun dev => dev.said iface x.pair.line

/-- There is memory for the frame of a delivery to a net device. -/
def Delivery.Framed (env : HweIface → Nat → Nat → RxEnv) (x : Delivery w) : Prop :=
  x.iface = .net → (env .net x.dev.index x.pair.index).skb = true

/-- A response is offered to the buffer of a private device. -/
theorem RespBuffer.Holds.offer {buffer : RespBuffer} (hholds : buffer.Holds dev.held) {resp : List UInt8}
    (hlen : resp.length ≤ hweMaxResponse) :
    (buffer.refusesAsync = true ∧ dev.offer resp = dev) ∨
      ∃ buffer', buffer.refusesAsync = false ∧ buffer.load true resp = .ok buffer' ∧
        dev.offer resp = dev.act (.load .timer resp) ∧ buffer'.Holds (dev.act (.load .timer resp)).held := by
  have hrefuses := hholds.refusesAsync_iff
  unfold BenchDev.offer
  cases hrefused : buffer.refusesAsync with
  | true =>
      obtain ⟨hunread, hbusy⟩ := hrefuses.mp hrefused
      refine Or.inl ⟨rfl, if_neg ?_⟩
      rintro (hnone | ⟨hsource, hread⟩)
      · exact hunread hnone
      · exact hbusy.elim hsource fun hne => hne hread
  | false =>
      obtain ⟨buffer', hload, hnext⟩ := RespBuffer.Holds.load buffer .timer hlen
      refine Or.inr ⟨buffer', rfl, hload, if_pos ?_, ?_⟩
      · by_contra hcontra
        rw [not_or, not_and_or, not_not] at hcontra
        rw [hrefuses.mpr hcontra] at hrefused
        exact Bool.noConfusion hrefused
      · change buffer'.Holds (Chunked.held (dev.acts ++ [_]))
        rw [Chunked.held_concat]
        exact hnext

namespace Emulator.Found

variable {pair : Pair w}

theorem modifyDev (hf : s.Found b iface d dev p) (f : BenchDev w → BenchDev w) :
    b.modifyDev iface d.index f = b.setDev iface d.index (some (f dev)) := by
  rw [Bench.modifyDev, hf.place]
  rfl

theorem i2cAsyncRx (hf : s.Found b .i2c d dev p) (h : s.Shows b) (hlen : pair.resp.length ≤ hweMaxResponse) :
    ∃ s', s.i2cAsyncRx p.addr pair = .ok s' ∧ s'.m.k = s.m.k ∧
      s'.Shows (b.setDev .i2c d.index (some (dev.said .i2c pair.line))) := by
  obtain ⟨e, he, haddr, hfind, huse, _, hholds, hchip⟩ := hf.i2cDev h
  have hdevice := hf.device.trans (congrArg some haddr.symm)
  have hput : RespBuffer.Holds e.priv.buffer
      ({ dev with chip := dev.chip.put pair.resp } : BenchDev w).held := hholds
  unfold Emulator.i2cAsyncRx BenchDev.said Pair.line
  rw [hfind, Except.ok_bind, ← haddr]
  rcases hput.offer hlen with ⟨hrefused, hsaid⟩ | ⟨buffer, haccepted, hload, hsaid, hnext⟩
  · refine ⟨s.setI2c e.addr { e.priv with buffer := e.priv.buffer, chip := dev.chip.put pair.resp }, ?_, rfl, ?_⟩
    · rw [hweI2cAsyncRx_refused pair huse hrefused, hchip]
      rfl
    · dsimp only
      rw [hsaid]
      exact h.setI2c hf.mem hf.place he hdevice huse hholds
  · refine ⟨s.setI2c e.addr { e.priv with buffer := buffer, chip := dev.chip.put pair.resp }, ?_, rfl, ?_⟩
    · rw [hweI2cAsyncRx_accepted huse haccepted hload, hchip]
      rfl
    · dsimp only
      rw [hsaid]
      exact h.setI2c hf.mem hf.place he hdevice huse hnext

theorem spiAsyncRx (hf : s.Found b .spi d dev p) (h : s.Shows b) (hlen : pair.resp.length ≤ hweMaxResponse) :
    ∃ s', s.spiAsyncRx p.addr pair = .ok s' ∧ s'.m.k = s.m.k ∧
      s'.Shows (b.setDev .spi d.index (some (dev.said .spi pair.line))) := by
  have hholds : (s.spi p.addr).Holds dev.held := hf.wired h
  unfold Emulator.spiAsyncRx hweSpiAsyncRx BenchDev.said Pair.line
  rw [hf.spiDev h, Except.ok_bind]
  dsimp only
  rcases hholds.offer hlen with ⟨hrefused, hsaid⟩ | ⟨buffer, haccepted, hload, hsaid, hnext⟩
  · refine ⟨s.setSpi p.addr (s.spi p.addr), ?_, rfl, ?_⟩
    · rw [if_pos hrefused]
      rfl
    · rw [hsaid]
      exact h.setSpi hf.mem hf.place hf.priv hf.device hholds
  · refine ⟨s.setSpi p.addr buffer, ?_, rfl, ?_⟩
    · rw [if_neg (by simp [haccepted]), hload]
      rfl
    · rw [hsaid]
      exact h.setSpi hf.mem hf.place hf.priv hf.device hnext

/-- **One delivery** goes through, if there is memory for a frame, and is the one on the bench. -/
theorem asyncRx (hf : s.Found b iface d dev p) (h : s.Shows b) (hpair : pair ∈ d.pairList)
    (hframed : Delivery.Framed env ⟨iface, d, pair⟩) :
    ∃ s', s.asyncRx env ⟨iface, d.device, pair⟩ = .ok s' ∧ s'.m.k = s.m.k ∧
      s'.Shows (b.deliver env ⟨iface, d, pair⟩) := by
  have hlen := ((hf.ok h).valid pair hpair).resp_le
  unfold Emulator.asyncRx
  rw [hf.device]
  cases iface with
  | tty =>
      refine ⟨s.pushFlip (env .tty p.index pair.index) p.index pair.resp, ?_, rfl, ?_⟩
      · dsimp only
        unfold Emulator.hweTtyAsyncRx
        rw [findTtyDevice_eq h.inv.drivers hf.priv]
      · rw [hf.index]
        exact h.pushFlip _ _ _
  | i2c =>
      obtain ⟨s', hrun, hk, hshows⟩ := hf.i2cAsyncRx h hlen
      rw [← hf.modifyDev (BenchDev.said .i2c · pair.line)] at hshows
      exact ⟨s', hrun, hk, hshows⟩
  | net =>
      obtain ⟨s', hrun, hk, hshows⟩ := hf.sendResponse h (hframed rfl) pair.resp
      rw [← hf.modifyDev (BenchDev.receive pair.resp)] at hshows
      refine ⟨s', ?_, hk, hshows⟩
      dsimp only
      unfold Emulator.hweNetAsyncRx
      rw [hf.netDev h, Except.ok_bind, hf.index, hrun]
      rfl
  | spi =>
      obtain ⟨s', hrun, hk, hshows⟩ := hf.spiAsyncRx h hlen
      rw [← hf.modifyDev (BenchDev.said .spi · pair.line)] at hshows
      exact ⟨s', hrun, hk, hshows⟩

/-- A frame that there is no memory for. -/
theorem asyncRx_faults (hf : s.Found b iface d dev p) (h : s.Shows b)
    (hframed : ¬Delivery.Framed env ⟨iface, d, pair⟩) :
    s.asyncRx env ⟨iface, d.device, pair⟩ = .error .nullDeref := by
  obtain ⟨rfl, hskb⟩ := Classical.not_imp.mp hframed
  have hnone : (env .net d.index pair.index).skb = false := Bool.eq_false_iff.mpr hskb
  unfold Emulator.asyncRx Emulator.hweNetAsyncRx Emulator.sendResponse
  rw [hf.device]
  dsimp only
  rw [hf.netDev h, Except.ok_bind, hf.index, hnone]
  rfl

end Emulator.Found

/-! ### The deliveries of a tick -/

/-- Everything to be handed over is of the store. -/
def Delivery.Of (k : Kernel w) (x : Delivery w) : Prop :=
  x.dev ∈ (k.ifaces x.iface).devList ∧ x.pair ∈ x.dev.pairList

/-- **The deliveries**, one after the other, go through if there is memory for all frames. -/
theorem Emulator.Shows.deliver {xs : List (Delivery w)} (h : s.Shows b) (hof : ∀ x ∈ xs, x.Of s.m.k)
    (hframed : ∀ x ∈ xs, x.Framed env) :
    ∃ s', (xs.map Delivery.call).foldlM (Emulator.asyncRx env) s = .ok s' ∧
      s'.Shows (xs.foldl (Bench.deliver env) b) := by
  induction xs generalizing s b with
  | nil => exact ⟨s, rfl, h⟩
  | cons x xs ih =>
      obtain ⟨hd, hpair⟩ := hof x List.mem_cons_self
      obtain ⟨dev, p, hf⟩ := h.found_of_mem hd
      obtain ⟨s₁, hrun, hk, h₁⟩ := hf.asyncRx h hpair (hframed x List.mem_cons_self)
      obtain ⟨s', hrest, hshows⟩ := ih h₁ (fun y hy => hk ▸ hof y (List.mem_cons_of_mem x hy))
        fun y hy => hframed y (List.mem_cons_of_mem x hy)
      refine ⟨s', ?_, hshows⟩
      rw [List.map_cons, List.foldlM_cons]
      exact (Except.bind_of_eq_ok hrun _).trans hrest

theorem Emulator.Shows.deliver_faults {xs : List (Delivery w)} (h : s.Shows b) (hof : ∀ x ∈ xs, x.Of s.m.k)
    (hframed : ∃ x ∈ xs, ¬x.Framed env) :
    (xs.map Delivery.call).foldlM (Emulator.asyncRx env) s = .error .nullDeref := by
  induction xs generalizing s b with
  | nil => exact absurd hframed (by simp)
  | cons x xs ih =>
      obtain ⟨hd, hpair⟩ := hof x List.mem_cons_self
      obtain ⟨dev, p, hf⟩ := h.found_of_mem hd
      rw [List.map_cons, List.foldlM_cons]
      by_cases hx : x.Framed env
      · obtain ⟨s₁, hrun, hk, h₁⟩ := hf.asyncRx h hpair hx
        refine (Except.bind_of_eq_ok hrun _).trans (ih h₁ (fun y hy => hk ▸ hof y (List.mem_cons_of_mem x hy)) ?_)
        obtain ⟨y, hy, hnot⟩ := hframed
        rcases List.mem_cons.mp hy with rfl | hmem
        · exact absurd hx hnot
        · exact ⟨y, hmem, hnot⟩
      · have hfault : s.asyncRx env x.call = .error .nullDeref := hf.asyncRx_faults h hx
        rw [hfault]
        rfl

/-- What a tick hands over for a device. -/
def Dev.deliveries (jiff : BitVec w) (iface : HweIface) (d : Dev w) : List (Delivery w) :=
  (d.pairList.filter fun p => (timerPair jiff p).2).map fun p => ⟨iface, d.ticked jiff, (timerPair jiff p).1⟩

/-- What a tick hands over, in its order. -/
def Kernel.deliveries (jiff : BitVec w) (free : HweIface → Bool) (k : Kernel w) : List (Delivery w) :=
  HweIface.all.flatMap fun iface =>
    if free iface then (k.ifaces iface).devList.flatMap (Dev.deliveries jiff iface) else []

theorem Dev.map_call_deliveries (jiff : BitVec w) (iface : HweIface) (d : Dev w) :
    (d.deliveries jiff iface).map Delivery.call = d.calls jiff iface := by
  unfold Dev.deliveries Dev.calls
  rw [List.map_map]
  induction d.pairList with
  | nil => rfl
  | cons p ps ih =>
      rw [List.flatMap_cons, ← ih, Pair.call]
      cases hfired : (timerPair jiff p).2 with
      | false => simp [hfired]
      | true =>
          simp only [List.filter_cons, hfired, if_true, List.map_cons, List.singleton_append]
          rfl

theorem Kernel.map_call_deliveries (k : Kernel w) :
    (k.deliveries jiff free).map Delivery.call =
      HweIface.all.flatMap fun iface => if free iface then (k.ifaces iface).calls jiff iface else [] := by
  unfold Kernel.deliveries
  rw [List.map_flatMap]
  refine List.flatMap_congr fun iface _ => ?_
  split
  · rw [List.map_flatMap]
    exact List.flatMap_congr fun d _ => d.map_call_deliveries jiff iface
  · rfl

theorem Dev.mem_deliveries {x : Delivery w} : x ∈ d.deliveries jiff iface ↔
    ∃ p ∈ d.pairList, (timerPair jiff p).2 = true ∧ ⟨iface, d.ticked jiff, (timerPair jiff p).1⟩ = x := by
  simp only [Dev.deliveries, List.mem_map, List.mem_filter, and_assoc]

theorem Kernel.mem_deliveries {k : Kernel w} {x : Delivery w} : x ∈ k.deliveries jiff free ↔
    free x.iface = true ∧ ∃ d ∈ (k.ifaces x.iface).devList, x ∈ d.deliveries jiff x.iface := by
  unfold Kernel.deliveries
  rw [List.mem_flatMap]
  constructor
  · rintro ⟨iface, _, hx⟩
    split at hx
    · rename_i hfree
      obtain ⟨d, hd, hx⟩ := List.mem_flatMap.mp hx
      obtain ⟨p, _, _, rfl⟩ := Dev.mem_deliveries.mp hx
      exact ⟨hfree, d, hd, hx⟩
    · exact absurd hx List.not_mem_nil
  · rintro ⟨hfree, d, hd, hx⟩
    refine ⟨x.iface, x.iface.mem_all, ?_⟩
    rw [if_pos hfree]
    exact List.mem_flatMap.mpr ⟨d, hd, hx⟩

/-- **The deliveries to one place.** -/
theorem Kernel.filter_deliveries {k : Kernel w} (h : StoreInv k) (hd : d ∈ (k.ifaces iface).devList) :
    ((k.deliveries jiff free).filter fun x => decide (x.iface = iface ∧ x.dev.index = d.index)) =
      if free iface then d.deliveries jiff iface else [] := by
  unfold Kernel.deliveries
  rw [filter_flatMap_of_unique (by decide) iface.mem_all]
  · split
    · have hindexes := h.indexes iface
      rw [filter_flatMap_of_unique hindexes.nodup.of_map hd]
      · apply List.filter_eq_self.mpr
        intro x hx
        obtain ⟨p, _, _, rfl⟩ := Dev.mem_deliveries.mp hx
        exact decide_eq_true ⟨rfl, rfl⟩
      · intro d' hd' hne x hx
        obtain ⟨p, _, _, rfl⟩ := Dev.mem_deliveries.mp hx
        refine decide_eq_false fun hboth => hne ?_
        exact List.inj_on_of_nodup_map hindexes.nodup hd' hd hboth.2
    · rfl
  · intro iface' _ hne x hx
    split at hx
    · obtain ⟨d', _, hx⟩ := List.mem_flatMap.mp hx
      obtain ⟨p, _, _, rfl⟩ := Dev.mem_deliveries.mp hx
      exact decide_eq_false fun hboth => hne hboth.1
    · exact absurd hx List.not_mem_nil

/-! ### The lines of a tick -/

theorem timerTime_eq (jiff : BitVec w) (p : Pair w) : timerTime jiff p = p.line.next jiff := by
  unfold timerTime Line.next Pair.line
  dsimp only
  rw [ite_not]

theorem timerPair_due (jiff : BitVec w) (p : Pair w) : (timerPair jiff p).2 = p.line.due jiff := by
  unfold timerPair Line.due
  rw [timerTime_eq]
  change _ = (p.asyncRx && _)
  cases p.asyncRx with
  | false => rfl
  | true =>
      rw [Bool.not_true, if_neg Bool.false_ne_true, Bool.true_and]
      dsimp only
      split
      · rename_i hdue
        exact hdue.symm
      · rename_i hdue
        exact (Bool.eq_false_iff.mpr hdue).symm

theorem timerPair_line (jiff : BitVec w) (p : Pair w) : (timerPair jiff p).1.line = p.line.ticked jiff := by
  unfold Line.ticked
  rw [← timerPair_due, ← timerTime_eq]
  unfold timerPair
  split
  · rfl
  · dsimp only
    split
    · rfl
    · rfl

/-- The bench when the times have been noted and nothing has been said yet. -/
def Bench.timed (jiff : BitVec w) (free : HweIface → Bool) (b : Bench w) : Bench w :=
  { b with devs := fun iface index =>
      if free iface then
        (b.devs iface index).map fun dev => { dev with lines := dev.lines.map (Line.ticked jiff) }
      else b.devs iface index }

/-- The emulator when the times have been noted. -/
def Emulator.timed (jiff : BitVec w) (free : HweIface → Bool) (s : Emulator w) : Emulator w :=
  { s with m := s.m.setKernel { s.m.k with
      ifaces := fun iface => if free iface then (s.m.k.ifaces iface).ticked jiff else s.m.k.ifaces iface } }

theorem Emulator.devList_timed (s : Emulator w) (iface : HweIface) :
    ((s.timed jiff free).m.k.ifaces iface).devList =
      if free iface then (s.m.k.ifaces iface).devList.map (Dev.ticked jiff) else (s.m.k.ifaces iface).devList := by
  change (if free iface then (s.m.k.ifaces iface).ticked jiff else s.m.k.ifaces iface).devList = _
  split
  · rfl
  · rfl

theorem ModuleInv.timed (h : ModuleInv s.m) (jiff : BitVec w) (free : HweIface → Bool) :
    ModuleInv (s.timed jiff free).m := by
  refine ⟨h.store.ticked rfl rfl, h.drivers.congr ⟨rfl, rfl, rfl, rfl⟩ le_rfl, fun iface => ?_⟩
  have hkeys : ((s.timed jiff free).m.k.ifaces iface).devList.map Dev.key =
      (s.m.k.ifaces iface).devList.map Dev.key := by
    rw [s.devList_timed]
    split
    · rw [List.map_map]
      rfl
    · rfl
  rw [hkeys]
  exact h.matched iface

theorem Emulator.Shows.timed (h : s.Shows b) (jiff : BitVec w) (free : HweIface → Bool) :
    (s.timed jiff free).Shows (b.timed jiff free) := by
  refine ⟨h.inv.timed jiff free, h.sems, h.pool, h.fresh, h.ttys, h.ports, fun iface d' hd' => ?_,
    fun iface index hsome => ?_⟩
  · rw [s.devList_timed] at hd'
    unfold Bench.timed
    dsimp only
    split at hd'
    · rename_i hfree
      obtain ⟨d, hd, rfl⟩ := List.mem_map.mp hd'
      obtain ⟨dev, hdev, hshown⟩ := h.devs iface d hd
      rw [if_pos hfree]
      change ∃ dev', (b.devs iface d.index).map _ = some dev' ∧ _
      rw [hdev]
      refine ⟨_, rfl, hshown.dir, ?_, hshown.wired⟩
      simp only [hshown.lines, Dev.ticked, List.map_map]
      refine List.map_congr_left fun p _ => ?_
      exact (timerPair_line jiff p).symm
    · rename_i hfree
      obtain ⟨dev, hdev, hshown⟩ := h.devs iface d' hd'
      rw [if_neg hfree]
      exact ⟨dev, hdev, hshown.dir, hshown.lines, hshown.wired⟩
  · have hold : (b.devs iface index).isSome = true := by
      unfold Bench.timed at hsome
      dsimp only at hsome
      split at hsome
      · rwa [Option.isSome_map] at hsome
      · exact hsome
    obtain ⟨d, hd, rfl⟩ := h.places iface index hold
    rw [s.devList_timed]
    split
    · exact ⟨d.ticked jiff, List.mem_map_of_mem hd, rfl⟩
    · exact ⟨d, hd, rfl⟩

/-! ### A tick -/

/-- A place sees what is delivered to it. -/
theorem Bench.deliver_devs (env : HweIface → Nat → Nat → RxEnv) (iface : HweIface) (index : Nat) :
    Routed.Part (Bench.deliver (w := w) env) (fun b => b.devs iface index)
      (fun x => decide (x.iface = iface ∧ x.dev.index = index))
      (fun dev x => dev.map fun dev => dev.said iface x.pair.line) := by
  constructor
  · intro b x hx
    obtain ⟨rfl, rfl⟩ := of_decide_eq_true hx
    unfold Bench.deliver
    split
    · rename_i htty
      rw [htty]
      exact Option.map_id'.symm
    · exact Bench.devs_setDev_self ..
  · intro b x hx
    unfold Bench.deliver
    split
    · rfl
    · exact Bench.devs_setDev_of_ne (fun hi hn => of_decide_eq_false hx ⟨hi.symm, hn.symm⟩) ..

/-- A port hears what is delivered to its tty. -/
theorem Bench.deliver_ports (env : HweIface → Nat → Nat → RxEnv) (index : Nat) :
    Routed.Part (Bench.deliver (w := w) env) (fun b => b.ports index)
      (fun x => decide (x.iface = .tty ∧ x.dev.index = index))
      (fun port x => port ++ x.pair.resp.take (env .tty index x.pair.index).flip) := by
  constructor
  · intro b x hx
    obtain ⟨htty, rfl⟩ := of_decide_eq_true hx
    unfold Bench.deliver
    rw [htty]
    exact Function.update_self ..
  · intro b x hx
    unfold Bench.deliver
    split
    · rename_i htty
      exact Function.update_of_ne (fun hindex => of_decide_eq_false hx ⟨htty, hindex.symm⟩) ..
    · rfl

/-- No delivery opens or closes a tty. -/
theorem Bench.deliver_ttys (env : HweIface → Nat → Nat → RxEnv) :
    Routed.Part (Bench.deliver (w := w) env) (fun b => b.ttys) (fun _ => false) (fun ttys _ => ttys) := by
  constructor
  · intro b x hx
    exact absurd hx Bool.false_ne_true
  · intro b x _
    unfold Bench.deliver
    split
    · rfl
    · rfl

/-- What is due of the lines of a device. -/
theorem BenchDev.dueLines_eq (hlines : dev.lines = d.pairList.map Pair.line) (jiff : BitVec w) (iface : HweIface) :
    dev.dueLines jiff = (d.deliveries jiff iface).map fun x => x.pair.line := by
  have hdue : (Line.due jiff ∘ Pair.line) = fun p : Pair w => (timerPair jiff p).2 := by
    funext p
    exact (timerPair_due jiff p).symm
  unfold BenchDev.dueLines Dev.deliveries
  rw [hlines, List.filter_map, hdue, List.map_map, List.map_map]
  exact List.map_congr_left fun p _ => (timerPair_line jiff p).symm

theorem foldl_map_some {α β : Type} (f : α → β → α) (xs : List β) (a : α) :
    xs.foldl (fun (o : Option α) x => o.map fun a => f a x) (some a) = some (xs.foldl f a) := by
  induction xs generalizing a with
  | nil => rfl
  | cons x xs ih => exact ih (f a x)

/-- Nothing is delivered to an empty place. -/
theorem Emulator.Shows.filter_deliveries_empty (h : s.Shows b) {index : Nat} (hnone : b.devs iface index = none) :
    ((s.m.k.deliveries jiff free).filter fun x => decide (x.iface = iface ∧ x.dev.index = index)) = [] := by
  apply List.filter_eq_nil_iff.mpr
  intro x hx hplace
  obtain ⟨rfl, hindex⟩ := of_decide_eq_true hplace
  obtain ⟨_, d, hd, hx⟩ := Kernel.mem_deliveries.mp hx
  obtain ⟨p, _, _, heq⟩ := Dev.mem_deliveries.mp hx
  refine h.empty_of hnone d hd ?_
  rw [← hindex, ← heq]
  rfl

/-- **The bench after a tick**: every device has said its own lines. -/
theorem Emulator.Shows.foldl_deliver (h : s.Shows b) :
    (s.m.k.deliveries jiff free).foldl (Bench.deliver env) (b.timed jiff free) = b.tick jiff free env := by
  ext1
  · funext iface index
    refine ((Bench.deliver_devs env iface index).foldl _ _).trans ?_
    unfold Bench.timed Bench.tick
    dsimp only
    cases hdev : b.devs iface index with
    | none =>
        rw [h.filter_deliveries_empty hdev]
        rfl
    | some dev =>
        obtain ⟨d, hd, rfl, hshown⟩ := h.dev_of hdev
        rw [Kernel.filter_deliveries h.inv.store hd]
        cases free iface with
        | false => rfl
        | true =>
            rw [if_pos rfl, if_pos rfl, if_pos rfl, Option.map_some, Option.map_some, BenchDev.tick,
              BenchDev.dueLines_eq hshown.lines jiff iface, List.foldl_map]
            exact foldl_map_some (fun (dev : BenchDev w) (x : Delivery w) => dev.said iface x.pair.line) _ _
  · refine ((Bench.deliver_ttys env).foldl _ _).trans ?_
    rw [List.filter_false]
    rfl
  · funext index
    refine ((Bench.deliver_ports env index).foldl _ _).trans ?_
    unfold Bench.timed Bench.tick
    dsimp only
    cases hdev : b.devs .tty index with
    | none =>
        rw [h.filter_deliveries_empty hdev]
        split
        · exact (List.append_nil _).symm
        · rfl
    | some dev =>
        obtain ⟨d, hd, rfl, hshown⟩ := h.dev_of hdev
        rw [Kernel.filter_deliveries h.inv.store hd]
        cases free .tty with
        | false => rfl
        | true =>
            rw [if_pos rfl, if_pos rfl, List.foldl_append_eq_append, Option.map_some, Option.getD_some,
              BenchDev.spoken, BenchDev.dueLines_eq hshown.lines jiff .tty, List.flatMap_map]
            rfl

/-- All deliveries of a tick have memory for their frames just when the bench is served. -/
theorem Emulator.Shows.framed_iff (h : s.Shows b) :
    (∀ x ∈ s.m.k.deliveries jiff free, x.Framed env) ↔ (EmuEvent.tick jiff free env).Served b := by
  constructor
  · intro hframed hfree index dev hdev l hl
    obtain ⟨d, hd, rfl, hshown⟩ := h.dev_of hdev
    rw [BenchDev.dueLines_eq hshown.lines jiff .net] at hl
    obtain ⟨x, hx, rfl⟩ := List.mem_map.mp hl
    obtain ⟨p, _, _, rfl⟩ := Dev.mem_deliveries.mp hx
    exact hframed _ (Kernel.mem_deliveries.mpr ⟨hfree, d, hd, hx⟩) rfl
  · intro hserved x hx hnet
    obtain ⟨hfree, d, hd, hx⟩ := Kernel.mem_deliveries.mp hx
    rw [hnet] at hfree hd hx
    obtain ⟨dev, hdev, hshown⟩ := h.devs .net d hd
    have hl : x.pair.line ∈ dev.dueLines jiff := by
      rw [BenchDev.dueLines_eq hshown.lines jiff .net]
      exact List.mem_map_of_mem hx
    obtain ⟨p, _, _, rfl⟩ := Dev.mem_deliveries.mp hx
    exact hserved hfree d.index dev hdev _ hl

theorem Emulator.of_deliveries (s : Emulator w) :
    ∀ x ∈ s.m.k.deliveries jiff free, x.Of (s.timed jiff free).m.k := by
  intro x hx
  obtain ⟨hfree, d, hd, hx⟩ := Kernel.mem_deliveries.mp hx
  obtain ⟨p, hp, _, heq⟩ := Dev.mem_deliveries.mp hx
  rw [← heq]
  refine ⟨?_, List.mem_map_of_mem hp⟩
  rw [s.devList_timed, if_pos hfree]
  exact List.mem_map_of_mem hd

theorem Emulator.Shows.tick_eq (h : s.Shows b) : s.tick jiff free env =
    ((s.m.k.deliveries jiff free).map Delivery.call).foldlM (Emulator.asyncRx env) (s.timed jiff free) := by
  unfold Emulator.tick
  rw [timerTick_eq h.inv.store h.sems, s.m.k.map_call_deliveries]
  rfl

/-- **A tick** is a tick of the bench. -/
theorem Emulator.Shows.tick (h : s.Shows b) (hserved : (EmuEvent.tick jiff free env).Served b) :
    ∃ s', s.tick jiff free env = .ok s' ∧ s'.Shows (b.tick jiff free env) := by
  rw [h.tick_eq, ← h.foldl_deliver]
  exact (h.timed jiff free).deliver s.of_deliveries (h.framed_iff.mpr hserved)

theorem Emulator.Shows.tick_faults (h : s.Shows b) (hserved : ¬(EmuEvent.tick jiff free env).Served b) :
    s.tick jiff free env = .error .nullDeref := by
  rw [h.tick_eq]
  refine (h.timed jiff free).deliver_faults s.of_deliveries ?_
  by_contra hcontra
  refine hserved (h.framed_iff.mp fun x hx => ?_)
  by_contra hx'
  exact hcontra ⟨x, hx, hx'⟩

end Hwemu
