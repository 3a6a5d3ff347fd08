import Hwemu.Lib.Journal
import Hwemu.Operations
import Hwemu.PairBounds

/-!
# A device as a map from requests to responses

The six operations on the pairs of one device, seen from outside: what was accepted, deleted and
cleared so far decides which response a request gets.
-/

namespace Hwemu

variable {w : Nat} {k k' : Kernel w} {d d' : Dev w} {HZ : Nat}

/-! ### Operations on a device return -/

theorem withLock_total {α : Type} {iface : HweIface} {body : Kernel w → Except Fault (α × Kernel w)}
    (h : StoreInv k) (hsem : k.sems iface ≠ 0)
    (hbody : ∀ k₀ : Kernel w, StoreInv k₀ → k₀.ifaces = k.ifaces → k₀.heap = k.heap →
      ∃ a k₁, body k₀ = .ok (a, k₁)) : ∃ a k', withLock iface k body = .ok (a, k') := by
  obtain ⟨a, k₁, hrun⟩ := hbody (k.setSem iface (k.sems iface - 1)) (h.setSem _ _) rfl rfl
  exact ⟨a, _, withLock_eq_ok.mpr ⟨hsem, k₁, hrun, rfl⟩⟩

theorem addPair_total {env : AddPairEnv w} {str : List UInt8} (hlen : str.length ≤ intMax) :
    ∃ r k', addPair HZ env str (some d) k = .ok (r, k') := by
  unfold addPair
  cases env.kmalloc with
  | none => exact ⟨_, _, rfl⟩
  | some mem =>
      rcases strToPair_total (w := w) HZ hlen with ⟨q, _, hparse⟩ | ⟨err, hparse⟩
      · simp only [hparse, Except.ok_bind]
        split
        · exact ⟨_, _, rfl⟩
        · split
          · exact ⟨_, _, rfl⟩
          · split
            · exact ⟨_, _, rfl⟩
            · exact ⟨_, _, rfl⟩
      · simp only [hparse, Except.ok_bind]
        exact ⟨_, _, rfl⟩

theorem devAddStore_total (h : StoreInv k) (hsems : ∀ iface, k.sems iface = 1) (hd : d ∈ k.devs)
    {buf : List UInt8} (hlen : buf.length ≤ intMax) (env : AddPairEnv w) :
    ∃ ret k', devAddStore HZ d.addr buf env k = .ok (ret, k') := by
  unfold devAddStore
  rw [h.deref_eq hd, Except.ok_bind]
  refine withLock_total h (by rw [hsems]; decide) ?_
  intro k₀ _ _ _
  obtain ⟨r, k₁, hadd⟩ := @addPair_total w k₀ d HZ env _ hlen
  exact ⟨_, _, Except.bind_of_eq_ok hadd _⟩

theorem hweAddPair_total (h : StoreInv k) (hsems : ∀ iface, k.sems iface = 1) (hd : d ∈ k.devs)
    {pairStr : List UInt8} (hlen : (cstr pairStr).length ≤ intMax) (env : AddPairEnv w) :
    ∃ ret k', hweAddPair HZ d.iface d.index pairStr env k = .ok (ret, k') := by
  refine withLock_total h (by rw [hsems]; decide) ?_
  intro k₀ h₀ hifaces _
  rw [h₀.findDeviceByIndex_eq (mem_devs_congr hifaces hd)]
  obtain ⟨r, k₁, hadd⟩ := @addPair_total w k₀ d HZ env _ hlen
  exact ⟨_, _, Except.bind_of_eq_ok hadd _⟩

theorem devDeleteStore_total (h : StoreInv k) (hsems : ∀ iface, k.sems iface = 1) (hd : d ∈ k.devs)
    (buf : List UInt8) : ∃ ret k', devDeleteStore d.addr buf k = .ok (ret, k') := by
  unfold devDeleteStore
  rw [h.deref_eq hd, Except.ok_bind]
  refine withLock_total h (by rw [hsems]; decide) ?_
  intro k₀ h₀ hifaces _
  split
  · exact ⟨_, _, rfl⟩
  · split
    · exact ⟨_, _, rfl⟩
    · split
      · exact ⟨_, _, rfl⟩
      · rename_i hget
        obtain ⟨k₁, hdelete, _⟩ := pairDelete_changed h₀ (mem_devs_congr hifaces hd)
          (getPairAtIndex_some hget).1
        exact ⟨_, _, Except.bind_of_eq_ok hdelete _⟩

theorem hweDeletePair_total (h : StoreInv k) (hsems : ∀ iface, k.sems iface = 1)
    (iface : HweIface) (devIndex pairIndex : Int) :
    ∃ ret k', hweDeletePair iface devIndex pairIndex k = .ok (ret, k') := by
  refine withLock_total h (by rw [hsems]; decide) ?_
  intro k₀ h₀ hifaces _
  split
  · exact ⟨_, _, rfl⟩
  · rename_i hfind
    split
    · exact ⟨_, _, rfl⟩
    · rename_i hget
      obtain ⟨k₁, hdelete, _⟩ := pairDelete_changed h₀ (findDeviceByIndex_some hfind).1
        (getPairAtIndex_some hget).1
      exact ⟨_, _, Except.bind_of_eq_ok hdelete _⟩

theorem devClearStore_total (h : StoreInv k) (hsems : ∀ iface, k.sems iface = 1) (hd : d ∈ k.devs)
    (buf : List UInt8) : ∃ ret k', devClearStore d.addr buf k = .ok (ret, k') := by
  unfold devClearStore
  split
  · exact ⟨_, _, rfl⟩
  · rw [h.deref_eq hd, Except.ok_bind]
    refine withLock_total h (by rw [hsems]; decide) ?_
    intro k₀ h₀ hifaces _
    obtain ⟨k₁, hclear, _⟩ := clearPairs_changed h₀ (mem_devs_congr hifaces hd)
    exact ⟨_, _, Except.bind_of_eq_ok hclear _⟩

theorem hweClearPairs_total (h : StoreInv k) (hsems : ∀ iface, k.sems iface = 1)
    (iface : HweIface) (devIndex : Int) :
    ∃ ret k', hweClearPairs iface devIndex k = .ok (ret, k') := by
  refine withLock_total h (by rw [hsems]; decide) ?_
  intro k₀ h₀ hifaces _
  split
  · exact ⟨_, _, rfl⟩
  · rename_i hfind
    obtain ⟨k₁, hclear, _⟩ := clearPairs_changed h₀ (findDeviceByIndex_some hfind).1
    exact ⟨_, _, Except.bind_of_eq_ok hclear _⟩

/-! ### Pair operations and what they record -/

/-- The six operations on the pairs of a device. -/
inductive PairOp (w : Nat) where
  | devAddStore (buf : List UInt8) (env : AddPairEnv w)
  | hweAddPair (pairStr : List UInt8) (env : AddPairEnv w)
  | devDeleteStore (buf : List UInt8)
  | hweDeletePair (pairIndex : Int)
  | devClearStore (buf : List UInt8)
  | hweClearPairs

/-- What a pair says: its request, none for a timer, and its response. -/
def Pair.content (p : Pair w) : Option (List UInt8) × List UInt8 :=
  (if p.asyncRx then none else some p.req, p.resp)

abbrev PairEvent := JournalEvent Nat (Option (List UInt8) × List UInt8)

/-- The content of the pair a text stands for. -/
def textContent (w HZ : Nat) (str : List UInt8) : Option (Option (List UInt8) × List UInt8) :=
  match strToPair HZ str (Pair.zeroed w) with
  | .ok (.ok q) => some q.content
  | _ => none

/-- The event of an accepted addition at an index. -/
def addedEvent (w HZ index : Nat) (str : List UInt8) : PairEvent :=
  match textContent w HZ str with
  | some content => .added index content
  | none => .nothing

namespace PairOp

/-- The operation on the device `d`. -/
def exec (HZ : Nat) (d : Dev w) : PairOp w → Kernel w → Except Fault (Int × Kernel w)
  | devAddStore buf env, k => Hwemu.devAddStore HZ d.addr buf env k
  | hweAddPair pairStr env, k => Hwemu.hweAddPair HZ d.iface d.index pairStr env k
  | devDeleteStore buf, k => Hwemu.devDeleteStore d.addr buf k
  | hweDeletePair pairIndex, k => Hwemu.hweDeletePair d.iface d.index pairIndex k
  | devClearStore buf, k => Hwemu.devClearStore d.addr buf k
  | hweClearPairs, k => Hwemu.hweClearPairs d.iface d.index k

/-- What the operation, which returned `ret`, did to the pairs: a pair was accepted under the index
its file is named after (the first free one; the ioctl interface also returns it), the pair at the
index asked for was deleted, all were cleared, or the operation was rejected. -/
def event (HZ : Nat) (d : Dev w) (ret : Int) : PairOp w → PairEvent
  | devAddStore buf _ =>
      if ret < 0 then .nothing
      else addedEvent w HZ (Bitmap.findFirstZeroBit d.pairsIndexes) buf
  | hweAddPair pairStr _ => if ret < 0 then .nothing else addedEvent w HZ ret.toNat (cstr pairStr)
  | devDeleteStore buf =>
      if ret < 0 then .nothing
      else
        match kstrtouint buf with
        | some index => .deleted index
        | none => .nothing
  | hweDeletePair pairIndex => if ret < 0 then .nothing else .deleted (toSizeT pairIndex)
  | devClearStore _ => if ret < 0 then .nothing else .cleared
  | hweClearPairs => if ret < 0 then .nothing else .cleared

/-- Texts to add are no longer than `INT_MAX`; a sysfs write and an ioctl text are far shorter. -/
def Fits : PairOp w → Prop
  | devAddStore buf _ => buf.length ≤ intMax
  | hweAddPair pairStr _ => (cstr pairStr).length ≤ intMax
  | _ => True

theorem exec_total (h : StoreInv k) (hsems : ∀ iface, k.sems iface = 1) (hd : d ∈ k.devs)
    {op : PairOp w} (hfits : op.Fits) : ∃ ret k', op.exec HZ d k = .ok (ret, k') := by
  cases op with
  | devAddStore buf env => exact devAddStore_total h hsems hd hfits env
  | hweAddPair pairStr env => exact hweAddPair_total h hsems hd hfits env
  | devDeleteStore buf => exact devDeleteStore_total h hsems hd buf
  | hweDeletePair pairIndex => exact hweDeletePair_total h hsems d.iface d.index pairIndex
  | devClearStore buf => exact devClearStore_total h hsems hd buf
  | hweClearPairs => exact hweClearPairs_total h hsems d.iface d.index

end PairOp

/-- A sequence of pair operations on the device at an address, with the journal it leaves. -/
def runPairOps (HZ dev : Nat) : List (PairOp w) → Kernel w → Except Fault (List PairEvent × Kernel w)
  | [], k => .ok ([], k)
  | op :: ops, k => do
      let d ← k.deref dev
      let (ret, k) ← op.exec HZ d k
      let (journal, k) ← runPairOps HZ dev ops k
      return (op.event HZ d ret :: journal, k)

/-! ### The journal and the pair list -/

/-- The live entries of the journal are the pairs of the device. -/
def Journaled (journal : List PairEvent) (d : Dev w) : Prop :=
  ∀ index content, Live journal index content ↔
    ∃ p ∈ d.pairList, p.index = index ∧ p.content = content

theorem Pair.content_filled (mem q : Pair w) : (mem.filled HZ q).content = q.content := by
  unfold Pair.filled Pair.content
  cases q.asyncRx <;> simp

theorem textContent_of_parsed {str : List UInt8} {mem q : Pair w} (hlen : str.length ≤ intMax)
    (hparse : strToPair HZ str mem = .ok (.ok q)) : textContent w HZ str = some q.content := by
  rcases strToPair_total (w := w) HZ hlen with ⟨q₀, _, hall⟩ | ⟨err, hall⟩
  · rw [hall mem] at hparse
    have hq : mem.filled HZ q₀ = q := Except.ok.inj (Except.ok.inj hparse)
    rw [textContent, hall, ← hq, Pair.content_filled]
    exact congrArg some (Pair.content_filled _ _)
  · rw [hall mem] at hparse
    simp at hparse

theorem Journaled.added {journal : List PairEvent} (h : Journaled journal d) {p : Pair w} :
    Journaled (journal ++ [.added p.index p.content]) (d.addPair p) := by
  intro index content
  rw [Live.concat_added_iff, h index content]
  simp only [Dev.addPair, List.mem_append, List.mem_singleton]
  constructor
  · rintro (⟨hindex, hcontent⟩ | ⟨q, hq, hrest⟩)
    · exact ⟨p, Or.inr rfl, hindex, hcontent⟩
    · exact ⟨q, Or.inl hq, hrest⟩
  · rintro ⟨q, hq | rfl, hrest⟩
    · exact Or.inr ⟨q, hq, hrest⟩
    · exact Or.inl hrest

theorem Journaled.deleted {journal : List PairEvent} (h : Journaled journal d) (hok : d.Ok) {p : Pair w}
    (hp : p ∈ d.pairList) : Journaled (journal ++ [.deleted p.index]) (d.removePair p) := by
  intro index content
  rw [Live.concat_deleted_iff, h index content]
  simp only [Dev.removePair, List.mem_filter, decide_eq_true_eq]
  constructor
  · rintro ⟨⟨q, hq, hindex, hcontent⟩, hne⟩
    refine ⟨q, ⟨hq, (hok.addr_ne_iff hp hq).mpr ?_⟩, hindex, hcontent⟩
    rw [hindex]
    exact Ne.symm hne
  · rintro ⟨q, ⟨hq, haddr⟩, hindex, hcontent⟩
    refine ⟨⟨q, hq, hindex, hcontent⟩, ?_⟩
    have hne := (hok.addr_ne_iff hp hq).mp haddr
    rw [hindex] at hne
    exact Ne.symm hne

theorem Journaled.cleared {journal : List PairEvent} : Journaled (journal ++ [.cleared]) d.noPairs := by
  intro index content
  simp [Live.not_concat_cleared, Dev.noPairs]

theorem Journaled.nothing {journal : List PairEvent} (h : Journaled journal d) :
    Journaled (journal ++ [.nothing]) d := by
  intro index content
  rw [Live.concat_nothing_iff, h index content]

/-- The device after a change to its pairs, where it was found before. -/
theorem Changed.mem_devs {c : Change w} {f : Dev w → Dev w} (hc : Changed c k k')
    (happly : c.apply k = k.modifyDev d.addr f) (hd : d ∈ k.devs) : f d ∈ k'.devs := by
  have hifaces := hc.ifaces
  rw [happly] at hifaces
  exact mem_devs_congr hifaces (Kernel.mem_devs_modifyDev.mpr ⟨d, hd, if_pos rfl⟩)

/-- The device `d` of the store `k`, with a journal of everything done to its pairs. -/
structure Follows (journal : List PairEvent) (k : Kernel w) (d : Dev w) : Prop where
  inv : StoreInv k
  sems : ∀ iface, k.sems iface = 1
  mem : d ∈ k.devs
  journaled : Journaled journal d

theorem Follows.changed {journal : List PairEvent} {event : PairEvent} (h : Follows journal k d)
    {c : Change w} {f : Dev w → Dev w} (hc : Changed c k k')
    (happly : c.apply k = k.modifyDev d.addr f) (haddr : (f d).addr = d.addr)
    (hj : Journaled (journal ++ [event]) (f d)) :
    ∃ d', d'.addr = d.addr ∧ Follows (journal ++ [event]) k' d' := by
  refine ⟨f d, haddr, h.inv.changed hc, ?_, hc.mem_devs happly h.mem, hj⟩
  intro iface
  rw [hc.sems]
  exact h.sems iface

theorem Follows.kept {journal : List PairEvent} (h : Follows journal k d) (hc : Changed .keep k k') :
    ∃ d', d'.addr = d.addr ∧ Follows (journal ++ [.nothing]) k' d' := by
  refine ⟨d, rfl, h.inv.changed hc, ?_, mem_devs_congr hc.ifaces h.mem, h.journaled.nothing⟩
  intro iface
  rw [hc.sems]
  exact h.sems iface

/-- An accepted pair is recorded with its index and its content. -/
theorem Follows.added {journal : List PairEvent} (h : Follows journal k d) {str : List UInt8}
    {mem q : Pair w} (hlen : str.length ≤ intMax) (hparse : strToPair HZ str mem = .ok (.ok q))
    (hc : Changed (.addPair d.addr (q.placed d)) k k') :
    ∃ d', d'.addr = d.addr ∧ Follows (journal ++ [addedEvent w HZ (q.placed d).index str]) k' d' := by
  rw [addedEvent, textContent_of_parsed hlen hparse]
  have hj : Journaled (journal ++ [.added (q.placed d).index q.content]) (d.addPair (q.placed d)) :=
    h.journaled.added
  exact h.changed hc rfl rfl hj

/-- **One operation** is recorded for what it did. -/
theorem Follows.step {journal : List PairEvent} (h : Follows journal k d) {op : PairOp w} {ret : Int}
    (hfits : op.Fits) (hrun : op.exec HZ d k = .ok (ret, k')) :
    ∃ d', d'.addr = d.addr ∧ Follows (journal ++ [op.event HZ d ret]) k' d' := by
  have hfind := h.inv.findDeviceByIndex_eq h.mem
  have hok := h.inv.ok d h.mem
  cases op with
  | devAddStore buf env =>
      rcases devAddStore_cases h.inv h.mem hrun with ⟨mem, q, _, hparse, hret, hc⟩ | ⟨hneg, hc⟩
      · have hpos : ¬ret < 0 := by omega
        rw [PairOp.event, if_neg hpos]
        exact h.added hfits hparse hc
      · rw [PairOp.event, if_pos hneg]
        exact h.kept hc
  | hweAddPair pairStr env =>
      rcases hweAddPair_cases h.inv hfind hrun with ⟨mem, q, _, hparse, hret, hc⟩ | ⟨hneg, hc⟩
      · have hpos : ¬ret < 0 := by omega
        rw [PairOp.event, if_neg hpos, hret, Int.toNat_natCast]
        exact h.added hfits hparse hc
      · rw [PairOp.event, if_pos hneg]
        exact h.kept hc
  | devDeleteStore buf =>
      rcases devDeleteStore_cases h.inv h.mem hrun with
        ⟨index, p, hparse, hget, hret, _, hc⟩ | ⟨hneg, _, hc⟩
      · have hpos : ¬ret < 0 := by omega
        obtain ⟨hp, rfl⟩ := getPairAtIndex_some hget
        rw [PairOp.event, if_neg hpos, hparse]
        exact h.changed hc rfl rfl (h.journaled.deleted hok hp)
      · rw [PairOp.event, if_pos hneg]
        exact h.kept hc
  | hweDeletePair pairIndex =>
      rcases hweDeletePair_cases h.inv hrun with ⟨d₁, p, hfound, hget, hret, _, hc⟩ | ⟨hneg, _, hc⟩
      · have hpos : ¬ret < 0 := by omega
        obtain rfl : d = d₁ := Option.some.inj (hfind.symm.trans hfound)
        obtain ⟨hp, hindex⟩ := getPairAtIndex_some hget
        rw [PairOp.event, if_neg hpos, ← hindex]
        exact h.changed hc rfl rfl (h.journaled.deleted hok hp)
      · rw [PairOp.event, if_pos hneg]
        exact h.kept hc
  | devClearStore buf =>
      rcases devClearStore_cases h.inv h.mem hrun with ⟨hret, _, hc⟩ | ⟨hneg, _, hc⟩
      · have hpos : ¬ret < 0 := by omega
        rw [PairOp.event, if_neg hpos]
        exact h.changed hc rfl rfl Journaled.cleared
      · rw [PairOp.event, if_pos hneg]
        exact h.kept hc
  | hweClearPairs =>
      rcases hweClearPairs_cases h.inv hrun with ⟨d₁, hfound, hret, hc⟩ | ⟨hneg, _, hc⟩
      · have hpos : ¬ret < 0 := by omega
        obtain rfl : d = d₁ := Option.some.inj (hfind.symm.trans hfound)
        rw [PairOp.event, if_neg hpos]
        exact h.changed hc rfl rfl Journaled.cleared
      · rw [PairOp.event, if_pos hneg]
        exact h.kept hc

/-- A whole sequence returns and is recorded. -/
theorem Follows.run {journal : List PairEvent} (h : Follows journal k d) {ops : List (PairOp w)}
    (hfits : ∀ op ∈ ops, op.Fits) :
    ∃ events k' d', runPairOps HZ d.addr ops k = .ok (events, k') ∧ d'.addr = d.addr ∧
      Follows (journal ++ events) k' d' := by
  induction ops generalizing journal k d with
  | nil => exact ⟨[], k, d, rfl, rfl, by simpa using h⟩
  | cons op ops ih =>
      have hop := hfits op List.mem_cons_self
      obtain ⟨ret, k₁, hexec⟩ := @PairOp.exec_total w k d HZ h.inv h.sems h.mem op hop
      obtain ⟨d₁, haddr₁, hstep⟩ := h.step hop hexec
      obtain ⟨events, k₂, d₂, hrest, haddr₂, hfollows⟩ := ih hstep fun op' hop' =>
        hfits op' (List.mem_cons_of_mem op hop')
      refine ⟨op.event HZ d ret :: events, k₂, d₂, ?_, haddr₂.trans haddr₁, by simpa using hfollows⟩
      rw [haddr₁] at hrest
      rw [runPairOps, h.inv.deref_eq h.mem, Except.ok_bind, hexec, Except.ok_bind]
      dsimp only
      rw [hrest]
      rfl

/-! ### Which response a request gets, and which pair is accepted -/

theorem Dev.Ok.findPair_eq (h : d.Ok) {p : Pair w} (hp : p ∈ d.pairList) (hsync : p.asyncRx = false) :
    findPair d.pairList p.req p.req.length = some p := by
  cases hfind : findPair d.pairList p.req p.req.length with
  | none => exact absurd rfl (findPair_eq_none_iff.mp hfind p hp hsync)
  | some q =>
      obtain ⟨hq, hqsync, hreq⟩ := findPair_some hfind
      by_contra hne
      have hpq : q ≠ p := fun heq => hne (by rw [heq])
      have : Std.Symm fun a b : Pair w => a.asyncRx = false → b.asyncRx = false → a.req ≠ b.req :=
        ⟨fun a b hab hb ha => (hab ha hb).symm⟩
      exact h.distinct.forall hq hp hpq hqsync hsync hreq

/-- **A response is found for the requests of the live synchronous entries** and for no other. -/
theorem Follows.findResponse_iff {journal : List PairEvent} (h : Follows journal k d)
    {request : List UInt8} (hlen : request.length ≤ intMax) (response : List UInt8) :
    (∃ p, findResponse d request request.length = some p ∧ p.resp = response) ↔
      ∃ index, Live journal index (some request, response) := by
  unfold findResponse
  rw [toSizeT_of_le_intMax hlen]
  constructor
  · rintro ⟨p, hfind, rfl⟩
    obtain ⟨hp, hsync, rfl⟩ := findPair_some hfind
    refine ⟨p.index, (h.journaled _ _).mpr ⟨p, hp, rfl, ?_⟩⟩
    simp [Pair.content, hsync]
  · rintro ⟨index, hlive⟩
    obtain ⟨p, hp, _, hcontent⟩ := (h.journaled _ _).mp hlive
    obtain ⟨hreq, hresp⟩ := Prod.mk.inj hcontent
    cases hsync : p.asyncRx with
    | true => simp [hsync] at hreq
    | false =>
        simp only [hsync, Bool.false_eq_true, if_false, Option.some.injEq] at hreq
        rw [← hreq]
        exact ⟨p, (h.inv.ok d h.mem).findPair_eq hp hsync, hresp⟩

/-- The journal leaves room for a pair: an index without a live entry and, for a synchronous pair,
a request without one. -/
def CanAdd (journal : List PairEvent) (q : Pair w) : Prop :=
  (∃ index < hweMaxPairs, ∀ content, ¬Live journal index content) ∧
    (q.asyncRx = false → ∀ index response, ¬Live journal index (some q.req, response))

theorem Follows.room_iff {journal : List PairEvent} (h : Follows journal k d) :
    Bitmap.findFirstZeroBit d.pairsIndexes ≠ hweMaxPairs ↔
      ∃ index < hweMaxPairs, ∀ content, ¬Live journal index content := by
  have htracks := (h.inv.ok d h.mem).indexes
  constructor
  · intro hroom
    refine ⟨_, lt_of_le_of_ne (Bitmap.findFirstZeroBit_le _) hroom, ?_⟩
    intro content hlive
    obtain ⟨p, hp, hindex, _⟩ := (h.journaled _ _).mp hlive
    exact htracks.notMem_findFirstZeroBit (hindex ▸ List.mem_map_of_mem hp)
  · rintro ⟨index, hlt, hfree⟩ hfull
    have hset := Bitmap.getLsbD_of_lt_findFirstZeroBit (by rw [hfull]; exact hlt)
    obtain ⟨p, hp, hindex⟩ := List.mem_map.mp ((htracks.mem index).mp hset)
    exact hfree p.content ((h.journaled _ _).mpr ⟨p, hp, hindex, rfl⟩)

theorem Follows.unmatched_iff {journal : List PairEvent} (h : Follows journal k d) {q : Pair w}
    (hq : q.Valid) :
    findPair d.pairList q.req q.req.length = none ↔
      (q.asyncRx = false → ∀ index response, ¬Live journal index (some q.req, response)) := by
  rw [findPair_eq_none_iff]
  constructor
  · intro hnone _ index response hlive
    obtain ⟨p, hp, _, hcontent⟩ := (h.journaled _ _).mp hlive
    obtain ⟨hreq, _⟩ := Prod.mk.inj hcontent
    cases hsync : p.asyncRx with
    | true => simp [hsync] at hreq
    | false =>
        simp only [hsync, Bool.false_eq_true, if_false, Option.some.injEq] at hreq
        exact hnone p hp hsync hreq
  · intro hfree p hp hsync heq
    cases hkind : q.asyncRx with
    | true =>
        -- a timer has no request, and every synchronous pair has one
        have hreq := (((h.inv.ok d h.mem).valid p hp).sync hsync).1
        rw [heq, (hq.timer hkind).1] at hreq
        simp at hreq
    | false =>
        refine hfree hkind p.index p.resp ((h.journaled _ _).mpr ⟨p, hp, rfl, ?_⟩)
        simp [Pair.content, hsync, heq]

/-- With memory and a file for it, a parsed pair is added unless the device is full or the request
is taken. -/
theorem addPair_added_iff {env : AddPairEnv w} {str : List UInt8} {mem q : Pair w}
    {r : AddPairResult w} (hmem : env.kmalloc = some mem) (hcreate : env.sysfsCreateFile = none)
    (hparse : strToPair HZ str { mem with addr := k.heap.next } = .ok (.ok q))
    (hrun : addPair HZ env str (some d) k = .ok (r, k')) :
    (∃ idx, r = .added idx) ↔ Bitmap.findFirstZeroBit d.pairsIndexes ≠ hweMaxPairs ∧
      findPair d.pairList q.req q.req.length = none := by
  have hparse' : strToPair HZ str { mem with addr := k.alloc.1 } = .ok (.ok q) := hparse
  unfold addPair at hrun
  rw [hmem] at hrun
  dsimp only at hrun
  rw [hparse', Except.ok_bind] at hrun
  dsimp only at hrun
  split at hrun
  · rename_i hfull
    obtain ⟨rfl, _⟩ := Prod.mk.inj (Except.ok.inj hrun)
    simp [hfull]
  · rename_i hroom
    cases hfind : findPair d.pairList q.req q.req.length with
    | some p =>
        rw [hfind] at hrun
        obtain ⟨rfl, _⟩ := Prod.mk.inj (Except.ok.inj hrun)
        simp
    | none =>
        rw [hfind, hcreate] at hrun
        obtain ⟨rfl, _⟩ := Prod.mk.inj (Except.ok.inj hrun)
        simp [hroom]

theorem storeRet_nonneg_iff {r : AddPairResult w} {count : Nat} :
    0 ≤ r.storeRet count ↔ ∃ idx, r = .added idx := by
  constructor
  · intro hpos
    by_contra hne
    push Not at hne
    have hneg := storeRet_neg hne count
    omega
  · rintro ⟨idx, rfl⟩
    exact Int.natCast_nonneg count

theorem ioctlRet_nonneg_iff {r : AddPairResult w} : 0 ≤ r.ioctlRet ↔ ∃ idx, r = .added idx := by
  constructor
  · intro hpos
    by_contra hne
    push Not at hne
    have hneg := ioctlRet_neg hne
    omega
  · rintro ⟨idx, rfl⟩
    exact Int.natCast_nonneg idx

/-- The same for a write to the file of the device. -/
theorem devAddStore_nonneg_iff (h : StoreInv k) (hd : d ∈ k.devs) {env : AddPairEnv w} {str : List UInt8}
    {mem q : Pair w} {ret : Int} (hmem : env.kmalloc = some mem) (hcreate : env.sysfsCreateFile = none)
    (hparse : strToPair HZ str { mem with addr := k.heap.next } = .ok (.ok q))
    (hrun : devAddStore HZ d.addr str env k = .ok (ret, k')) :
    0 ≤ ret ↔ Bitmap.findFirstZeroBit d.pairsIndexes ≠ hweMaxPairs ∧
      findPair d.pairList q.req q.req.length = none := by
  unfold devAddStore at hrun
  rw [h.deref_eq hd, Except.ok_bind] at hrun
  obtain ⟨k₀, k₁, _, _, hheap, hbody, _⟩ := withLock_changed h hrun
  obtain ⟨⟨r, k₂⟩, hadd, hret⟩ := Except.bind_eq_ok_iff.mp hbody
  obtain ⟨rfl, rfl⟩ := Prod.mk.inj (Except.ok.inj hret)
  rw [← hheap] at hparse
  exact storeRet_nonneg_iff.trans (addPair_added_iff hmem hcreate hparse hadd)

theorem hweAddPair_nonneg_iff (h : StoreInv k) {iface : HweIface} {devIndex : Int} {env : AddPairEnv w}
    {str : List UInt8} {mem q : Pair w} {ret : Int} (hfind : findDeviceByIndex iface devIndex k = some d)
    (hmem : env.kmalloc = some mem) (hcreate : env.sysfsCreateFile = none)
    (hparse : strToPair HZ (cstr str) { mem with addr := k.heap.next } = .ok (.ok q))
    (hrun : hweAddPair HZ iface devIndex str env k = .ok (ret, k')) :
    0 ≤ ret ↔ Bitmap.findFirstZeroBit d.pairsIndexes ≠ hweMaxPairs ∧
      findPair d.pairList q.req q.req.length = none := by
  obtain ⟨k₀, k₁, _, hifaces, hheap, hbody, _⟩ := withLock_changed h hrun
  rw [findDeviceByIndex_congr hifaces, hfind] at hbody
  obtain ⟨⟨r, k₂⟩, hadd, hret⟩ := Except.bind_eq_ok_iff.mp hbody
  obtain ⟨rfl, rfl⟩ := Prod.mk.inj (Except.ok.inj hret)
  rw [← hheap] at hparse
  exact ioctlRet_nonneg_iff.trans (addPair_added_iff hmem hcreate hparse hadd)

/-- **What the two additions accept.** -/
theorem Follows.accepts_iff {journal : List PairEvent} (h : Follows journal k d) (env : AddPairEnv w)
    {str : List UInt8} {mem q : Pair w} (hlen : str.length ≤ intMax) (hmem : env.kmalloc = some mem)
    (hcreate : env.sysfsCreateFile = none) (hparse : strToPair HZ str (Pair.zeroed w) = .ok (.ok q)) :
    (∃ ret k', devAddStore HZ d.addr str env k = .ok (ret, k') ∧ (0 ≤ ret ↔ CanAdd journal q)) ∧
    (cstr str = str → ∃ ret k', hweAddPair HZ d.iface d.index str env k = .ok (ret, k') ∧
      (0 ≤ ret ↔ CanAdd journal q)) := by
  obtain ⟨q₀, hvalid, hall⟩ : ∃ q₀ : Pair w, q₀.Valid ∧
      ∀ mem, strToPair HZ str mem = .ok (.ok (mem.filled HZ q₀)) := by
    rcases strToPair_total (w := w) HZ hlen with hgood | ⟨err, hbad⟩
    · exact hgood
    · rw [hbad] at hparse
      simp at hparse
  obtain rfl : (Pair.zeroed w).filled HZ q₀ = q :=
    Except.ok.inj (Except.ok.inj ((hall _).symm.trans hparse))
  -- the record parsed into makes no difference to the request
  have hcan : ∀ m m' : Pair w, (Bitmap.findFirstZeroBit d.pairsIndexes ≠ hweMaxPairs ∧
      findPair d.pairList (m'.filled HZ q₀).req (m'.filled HZ q₀).req.length = none) ↔
        CanAdd journal (m.filled HZ q₀) := by
    intro m m'
    have hsame : ∀ m' : Pair w, (m'.filled HZ q₀).req = q₀.req ∧ (m'.filled HZ q₀).asyncRx = q₀.asyncRx :=
      fun m' => ⟨(Pair.same_filled HZ m' q₀).req, (Pair.same_filled HZ m' q₀).kind⟩
    rw [h.room_iff, (hsame m').1, h.unmatched_iff hvalid, CanAdd, (hsame m).1, (hsame m).2]
  constructor
  · obtain ⟨ret, k', hrun⟩ := @devAddStore_total w k d HZ h.inv h.sems h.mem str hlen env
    exact ⟨ret, k', hrun, (devAddStore_nonneg_iff h.inv h.mem hmem hcreate (hall _) hrun).trans (hcan _ _)⟩
  · intro hstr
    have hlen' : (cstr str).length ≤ intMax := by rwa [hstr]
    obtain ⟨ret, k', hrun⟩ := @hweAddPair_total w k d HZ h.inv h.sems h.mem str hlen' env
    have hparsed := hall { mem with addr := k.heap.next }
    rw [← hstr] at hparsed
    refine ⟨ret, k', hrun, ?_⟩
    exact (hweAddPair_nonneg_iff h.inv (h.inv.findDeviceByIndex_eq h.mem) hmem hcreate hparsed hrun).trans (hcan _ _)

/-! ### The map -/

/-- The additions that leave the device with the pairs it has. -/
def Dev.journal (d : Dev w) : List PairEvent := d.pairList.map fun p => .added p.index p.content

theorem Dev.journaled (d : Dev w) : Journaled d.journal d := by
  intro index content
  rw [Live.of_added_iff]
  · simp [Dev.journal]
  · intro event hevent
    obtain ⟨p, _, rfl⟩ := List.mem_map.mp hevent
    exact ⟨_, _, rfl⟩

theorem Reachable.follows (h : Reachable HZ k) (hd : d ∈ k.devs) : Follows d.journal k d :=
  ⟨h.inv.1, h.inv.2, hd, d.journaled⟩

/-- **A device is a map from requests to responses.** After any sequence of pair operations a
request is answered with a response exactly when a synchronous pair of the two is live: accepted and
neither deleted by its index nor cleared since. The pair found is never a timer. A text that parses
is then accepted exactly when some index is free and, unless it is a timer, its request is not that
of a live pair. -/
theorem device_is_map (h : Reachable HZ k) (hd : d ∈ k.devs) {ops : List (PairOp w)}
    (hfits : ∀ op ∈ ops, op.Fits) :
    ∃ events k' d', runPairOps HZ d.addr ops k = .ok (events, k') ∧ d' ∈ k'.devs ∧ d'.addr = d.addr ∧
      (∀ request : List UInt8, request.length ≤ intMax →
        (∀ response, (∃ p, findResponse d' request request.length = some p ∧ p.resp = response) ↔
          ∃ index, Live (d.journal ++ events) index (some request, response)) ∧
        ∀ p, findResponse d' request request.length = some p → p.asyncRx = false) ∧
      ∀ (str : List UInt8) (mem q : Pair w), str.length ≤ intMax →
        strToPair HZ str (Pair.zeroed w) = .ok (.ok q) →
        (∃ ret k'', devAddStore HZ d.addr str ⟨some mem, none⟩ k' = .ok (ret, k'') ∧
          (0 ≤ ret ↔ CanAdd (d.journal ++ events) q)) ∧
        (cstr str = str → ∃ ret k'',
          hweAddPair HZ d'.iface d'.index str ⟨some mem, none⟩ k' = .ok (ret, k'') ∧
          (0 ≤ ret ↔ CanAdd (d.journal ++ events) q)) := by
  obtain ⟨events, k', d', hrun, haddr, hfollows⟩ := (h.follows hd).run hfits
  refine ⟨events, k', d', hrun, hfollows.mem, haddr, ?_, ?_⟩
  · intro request hlen
    refine ⟨hfollows.findResponse_iff hlen, ?_⟩
    intro p hfind
    rw [findResponse, toSizeT_of_le_intMax hlen] at hfind
    exact (findPair_some hfind).2.1
  · intro str mem q hlen hparse
    rw [← haddr]
    exact hfollows.accepts_iff _ hlen rfl rfl hparse

/-- The sample device, cleared and given another pair for the same request. -/
theorem device_is_map_applies : ∃ (k : Kernel 64) (d : Dev 64), Reachable 250 k ∧ d ∈ k.devs ∧
    ∃ events k', runPairOps 250 d.addr
      [.devClearStore [49], .hweAddPair (bytes "0102=dd") (.succeeds 64)] k = .ok (events, k') := by
  obtain ⟨k, hrun, hlists⟩ := sampleOps_run
  have hreach := Reachable.of_execAll hrun
  cases hdevs : (k.ifaces .i2c).devList with
  | nil => simp [hdevs] at hlists
  | cons d rest =>
      have hlisted : d ∈ (k.ifaces .i2c).devList := by
        rw [hdevs]
        exact List.mem_cons_self
      have hd : d ∈ k.devs := Kernel.mem_devs_of_mem hlisted
      have hshort : (cstr (bytes "0102=dd")).length ≤ intMax := by decide
      have hfits : ∀ op ∈ [PairOp.devClearStore [49], .hweAddPair (bytes "0102=dd") (.succeeds 64)],
          op.Fits := by
        simp only [List.forall_mem_cons]
        exact ⟨trivial, hshort, by simp⟩
      obtain ⟨events, k', _, hops, _⟩ := device_is_map hreach hd hfits
      exact ⟨k, d, hreach, hd, events, k', hops⟩

/-! ### Timers count -/

/-- A device that holds nothing but `n` timers. -/
def OnlyTimers (n : Nat) (k : Kernel 64) (d : Dev 64) : Prop :=
  Reachable 250 k ∧ d ∈ k.devs ∧ d.pairList.length = n ∧ ∀ p ∈ d.pairList, p.asyncRx = true

theorem exists_onlyTimers_zero : ∃ k d, OnlyTimers 0 k d := by
  have hlists : (execAll 250 [.hweAddDevice .tty .succeeds] (Kernel.loaded 64)).toOption.map
      (fun k => (k.ifaces .tty).devList.map fun d => d.pairList.length) = some [0] := by
    decide +kernel
  cases hrun : execAll 250 [.hweAddDevice .tty .succeeds] (Kernel.loaded 64) with
  | error fault => simp [hrun, Except.toOption] at hlists
  | ok k =>
      simp only [hrun, Except.toOption, Option.map_some, Option.some.injEq, List.map_eq_singleton_iff,
        List.length_eq_zero_iff] at hlists
      obtain ⟨d, hdevs, hempty⟩ := hlists
      have hlisted : d ∈ (k.ifaces .tty).devList := by
        rw [hdevs]
        exact List.mem_singleton_self d
      refine ⟨k, d, Reachable.of_execAll hrun, Kernel.mem_devs_of_mem hlisted, ?_, ?_⟩
      · rw [hempty]
        rfl
      · rw [hempty]
        simp

theorem OnlyTimers.succ {n : Nat} {k : Kernel 64} {d : Dev 64} (h : OnlyTimers n k d)
    (hn : n < hweMaxPairs) : ∃ k' d', OnlyTimers (n + 1) k' d' := by
  obtain ⟨hreach, hd, hlength, htimers⟩ := h
  have hfollows := hreach.follows hd
  have hlen : (bytes "timer:1m=cc").length ≤ intMax := by decide
  have hcontent : textContent 64 250 (bytes "timer:1m=cc") = some (none, [0xcc]) := by decide +kernel
  obtain ⟨q, hq⟩ : ∃ q : Pair 64,
      strToPair 250 (bytes "timer:1m=cc") (Pair.zeroed 64) = .ok (.ok q) := by
    unfold textContent at hcontent
    split at hcontent
    · exact ⟨_, by assumption⟩
    · simp at hcontent
  have htimer : ∀ {mem q : Pair 64}, strToPair 250 (bytes "timer:1m=cc") mem = .ok (.ok q) →
      q.asyncRx = true := by
    intro mem q hparse
    have heq := (textContent_of_parsed hlen hparse).symm.trans hcontent
    by_contra hsync
    simp [Pair.content, hsync] at heq
  have hcan : CanAdd d.journal q := by
    refine ⟨hfollows.room_iff.mp ?_, fun hsync => absurd hsync (by simp [htimer hq])⟩
    intro hfull
    have hmax := (hfollows.inv.ok d hd).indexes.findFirstZeroBit_eq_iff.mp hfull
    rw [List.length_map, hlength] at hmax
    omega
  obtain ⟨ret, k', hrun, hret⟩ :=
    (hfollows.accepts_iff (AddPairEnv.succeeds 64) hlen rfl rfl hq).1
  rcases devAddStore_cases hfollows.inv hd hrun with ⟨mem, q', _, hparse, _, hc⟩ | ⟨hneg, _⟩
  · have hstep : OpStep 250 k (.devAddStore d.addr (bytes "timer:1m=cc") (.succeeds 64)) k' :=
      ⟨ret, hrun⟩
    have hkind : q'.asyncRx = true := htimer hparse
    refine ⟨k', d.addPair (q'.placed d), ?_, hc.mem_devs rfl hd, ?_, ?_⟩
    · obtain ⟨ops, hops⟩ := hreach
      exact ⟨ops ++ [_], Run.snoc_iff.mpr ⟨k, hops, hstep⟩⟩
    · simp [Dev.addPair, hlength]
    · intro p hp
      rcases List.mem_append.mp hp with hold | hnew
      · exact htimers p hold
      · rw [List.mem_singleton.mp hnew]
        exact hkind
  · have hpos := hret.mpr hcan
    omega

theorem exists_onlyTimers {n : Nat} (hn : n ≤ hweMaxPairs) : ∃ k d, OnlyTimers n k d := by
  induction n with
  | zero => exact exists_onlyTimers_zero
  | succ n ih =>
      obtain ⟨k, d, h⟩ := ih (by omega)
      exact h.succ hn

/-- A device with a thousand timers and nothing else refuses a synchronous pair. -/
theorem timers_refuse_a_pair : ∃ (k : Kernel 64) (d : Dev 64), Reachable 250 k ∧ d ∈ k.devs ∧
    (∀ p ∈ d.pairList, p.asyncRx = true) ∧
    ∃ ret k', devAddStore 250 d.addr (bytes "00=11") (.succeeds 64) k = .ok (ret, k') ∧ ret < 0 := by
  obtain ⟨k, d, hreach, hd, hlength, htimers⟩ := exists_onlyTimers (le_refl hweMaxPairs)
  refine ⟨k, d, hreach, hd, htimers, ?_⟩
  have hfollows := hreach.follows hd
  have hparse : strToPair 250 (bytes "00=11") (Pair.zeroed 64) =
      .ok (.ok { Pair.zeroed 64 with req := [0], resp := [17] }) := by decide +kernel
  obtain ⟨ret, k', hrun, hret⟩ :=
    (hfollows.accepts_iff (AddPairEnv.succeeds 64) (by decide) rfl rfl hparse).1
  refine ⟨ret, k', hrun, ?_⟩
  by_contra hpos
  have hroom := hfollows.room_iff.mpr (hret.mp (by omega)).1
  apply hroom
  rw [(hfollows.inv.ok d hd).indexes.findFirstZeroBit_eq_iff, List.length_map, hlength]

end Hwemu
