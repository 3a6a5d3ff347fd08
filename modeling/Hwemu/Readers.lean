import Hwemu.Accounts
import Hwemu.ReadBack
import Hwemu.Show
import Hwemu.Lib.Threads

/-!
# Concurrent readers

Any number of threads in `pair_show` and `hwe_get_pair`, one statement at a time, while the store may
change under the semaphores they do not hold. A reader takes the semaphore of its interface, builds
the text in `pair_to_str`, copies it out and releases the semaphore. The buffer of `pair_to_str` is
static: the readers of all interfaces build their texts in the same one.
-/

namespace Hwemu

variable {w : Nat} {HZ : Nat} {ι : Type} [DecidableEq ι]

/-- A call of a reader. `idx` is what is in the variable that `hwe_get_pair` does not set. -/
inductive ReadCall where
  | pairShow (ifaceName devName filename : List UInt8)
  | hweGetPair (iface : HweIface) (devIndex pairIndex idx : Int)

namespace ReadCall

/-- The interface whose semaphore is taken; none when the call gives up before that. -/
def iface (w : Nat) : ReadCall → Option HweIface
  | pairShow ifaceName _ filename => (kstrtol w filename).bind fun _ => strToIface ifaceName
  | hweGetPair iface _ _ _ => some iface

/-- The pair that the loop over the list stops at. -/
def found (k : Kernel w) : ReadCall → Option (Pair w)
  | pairShow ifaceName devName filename =>
      (kstrtol w filename).bind fun idx => (strToIface ifaceName).bind fun iface =>
        (findDevice iface devName k).bind fun dev => pairAt dev idx
  | hweGetPair iface devIndex _ idx =>
      (findDeviceByIndex iface devIndex k).bind fun dev => pairAt dev idx

/-- The pair that the caller asks for. -/
def asked (k : Kernel w) : ReadCall → Option (Pair w)
  | pairShow ifaceName devName filename => found k (pairShow ifaceName devName filename)
  | hweGetPair iface devIndex pairIndex _ =>
      (findDeviceByIndex iface devIndex k).bind fun dev => pairAt dev pairIndex

/-- How the text is copied out: `sprintf` to a page, or `snprintf` to a buffer for one text. -/
def print : ReadCall → List UInt8 → List UInt8
  | pairShow _ _ _, text => text
  | hweGetPair _ _ _ _, text => scnprintf (hweMaxPairStr + 1) text

end ReadCall

/-- What `pair_to_str` returns a pointer to: its buffer or a literal. -/
inductive TextPtr where
  | buffer
  | literal (text : List UInt8)

/-- The text behind the pointer. -/
def TextPtr.read (buf : List UInt8) : TextPtr → List UInt8
  | buffer => buf
  | literal text => text

/-- `pair_to_str(pair)` as a statement: the pointer, and what is then in the buffer. -/
def buildText (pair : Pair w) (buf : List UInt8) : TextPtr × List UInt8 :=
  if (!pair.asyncRx && (pair.req.length < 1 || hweMaxRequest < pair.req.length)) ||
      (pair.resp.length < 1 || hweMaxResponse < pair.resp.length) then
    (.literal (pairToStr pair), buf)
  else (.buffer, pairToStr pair)

theorem buildText_eq (p : Pair w) (buf : List UInt8) :
    (buildText p buf).1.read (buildText p buf).2 = pairToStr p ∧
      ((buildText p buf).2 = buf ∨ (buildText p buf).2 = pairToStr p) := by
  unfold buildText
  split
  · exact ⟨rfl, Or.inl rfl⟩
  · exact ⟨rfl, Or.inr rfl⟩

/-- What the readers share: the store and the static buffer. -/
structure ReaderShared (w : Nat) where
  k : Kernel w
  buf : List UInt8

/-- Where a reader is. The pair it asked for is kept beside the pointer and the text. -/
inductive ReaderPc (w : Nat) where
  | idle
  | entered (c : ReadCall) (iface : HweIface)
  | locked (c : ReadCall) (iface : HweIface)
  | built (c : ReadCall) (iface : HweIface) (asked : Option (Pair w)) (ptr : Option TextPtr)
  | copied (c : ReadCall) (iface : HweIface) (asked : Option (Pair w)) (text : Option (List UInt8))
  | returned (c : ReadCall) (asked : Option (Pair w)) (text : Option (List UInt8))

namespace ReaderPc

def holds : ReaderPc w → Option HweIface
  | locked _ iface => some iface
  | built _ iface _ _ => some iface
  | copied _ iface _ _ => some iface
  | _ => none

def mayCall : ReaderPc w → Bool
  | idle => true
  | returned _ _ _ => true
  | _ => false

/-- The next statement of a reader; none when there is none or the semaphore is taken. -/
def stmt (s : ReaderShared w) : ReaderPc w → Option (ReaderShared w × ReaderPc w)
  | entered c iface =>
      match lockIfaceDevs iface s.k with
      | .error _ => none
      | .ok k => some ({ s with k := k }, locked c iface)
  | locked c iface =>
      match c.found s.k with
      | none => some (s, built c iface (c.asked s.k) none)
      | some pair =>
          let (ptr, buf) := buildText pair s.buf
          some ({ s with buf := buf }, built c iface (c.asked s.k) (some ptr))
  | built c iface asked ptr =>
      some (s, copied c iface asked (ptr.map fun ptr => c.print (ptr.read s.buf)))
  | copied c iface asked text =>
      some ({ s with k := unlockIfaceDevs iface s.k }, returned c asked text)
  | _ => none

end ReaderPc

abbrev Readers (ι : Type) (w : Nat) := Threads ι (ReaderShared w) (ReaderPc w)

inductive ReadEvent (ι : Type) (w : Nat) where
  | call (i : ι) (c : ReadCall)
  | stmt (i : ι)
  | store (op : Op w)
  | tick (jiff : BitVec w) (free : HweIface → Bool)

def Readers.next (HZ : Nat) (s : Readers ι w) : ReadEvent ι w → Option (Readers ι w)
  | .call i c =>
      if (s.thread i).mayCall then
        (c.iface w).map fun iface => s.move i (s.shared, .entered c iface)
      else none
  | .stmt i => ((s.thread i).stmt s.shared).map fun out => s.move i out
  | .store op =>
      match exec HZ op s.shared.k with
      | .error _ => none
      | .ok (_, k) => some { s with shared := { s.shared with k := k } }
  | .tick jiff free => some { s with shared := { s.shared with k := (timerTick jiff free s.shared.k).1 } }

/-! ### A reader that is alone -/

/-- A number of statements of one reader, with nothing in between. -/
def ReaderPc.alone : Nat → ReaderShared w × ReaderPc w → Option (ReaderShared w × ReaderPc w)
  | 0, out => some out
  | n + 1, (s, pc) => (pc.stmt s).bind (alone n)

/-- Alone, a reader prints the text of the pair that it finds. -/
theorem ReaderPc.alone_eq (c : ReadCall) {iface : HweIface} {s : ReaderShared w}
    (hsem : s.k.sems iface ≠ 0) :
    ∃ s', alone 4 (s, entered c iface) =
        some (s', returned c (c.asked s.k) ((c.found s.k).map fun p => c.print (pairToStr p))) ∧
      s'.k = unlockIfaceDevs iface (s.k.setSem iface (s.k.sems iface - 1)) := by
  have hfound : c.found (s.k.setSem iface (s.k.sems iface - 1)) = c.found s.k := by
    cases c <;> rfl
  have hasked : c.asked (s.k.setSem iface (s.k.sems iface - 1)) = c.asked s.k := by
    cases c <;> rfl
  simp only [alone, stmt, lockIfaceDevs, if_neg hsem, Option.bind_some, hfound, hasked]
  cases hp : c.found s.k with
  | none =>
      refine ⟨_, rfl, ?_⟩
      rfl
  | some p =>
      have htext := (buildText_eq p s.buf).1
      refine ⟨{ k := unlockIfaceDevs iface (s.k.setSem iface (s.k.sems iface - 1))
                buf := (buildText p s.buf).2 }, ?_, rfl⟩
      simp only [Option.bind_some, Option.map_some, htext]

/-- So it does what `pair_show` does when nothing else runs. -/
theorem pairShow_alone {ifaceName devName filename : List UInt8} {iface : HweIface}
    {s s' : ReaderShared w} {asked : Option (Pair w)} {text : List UInt8}
    (hiface : (ReadCall.pairShow ifaceName devName filename).iface w = some iface)
    (hsem : s.k.sems iface ≠ 0)
    (hrun : ReaderPc.alone 4 (s, .entered (.pairShow ifaceName devName filename) iface) =
      some (s', .returned (.pairShow ifaceName devName filename) asked (some text)))
    (htext : text ≠ []) : pairShow ifaceName devName filename s.k = .ok (text, s'.k) := by
  obtain ⟨idx, hidx, hname⟩ := Option.bind_eq_some_iff.mp hiface
  obtain ⟨s₁, halone, hk⟩ := ReaderPc.alone_eq (.pairShow ifaceName devName filename) hsem
  rw [hrun] at halone
  obtain ⟨rfl, hpc⟩ := Prod.mk.inj (Option.some.inj halone)
  injection hpc with _ _ hprinted
  obtain ⟨p, hfound, rfl⟩ := Option.map_eq_some_iff.mp hprinted.symm
  simp only [ReadCall.found, hidx, hname, Option.bind_some] at hfound
  obtain ⟨d, hfind, hpair⟩ := Option.bind_eq_some_iff.mp hfound
  have hlocked : findDevice iface devName (s.k.setSem iface (s.k.sems iface - 1)) = some d := hfind
  have hlisted : d.pairList.find? (fun pair => (pair.index : Int) == idx) = some p := hpair
  unfold pairShow
  rw [hidx, hname]
  dsimp only
  refine (Except.bind_of_eq_ok (withLock_eq_ok.mpr
    ⟨hsem, s.k.setSem iface (s.k.sems iface - 1), ?_, hk⟩) _).trans (if_pos htext)
  rw [hlocked]
  dsimp only
  rw [hlisted]
  rfl

/-! ### What holds of every reader -/

/-- The text behind the pointer, or copied out, is that of the pair the reader asked for. -/
def ReaderPc.Truthful (buf : List UInt8) : ReaderPc w → Prop
  | built _ _ asked ptr =>
      ptr.map (TextPtr.read buf) = asked.map pairToStr ∧ ∀ p, asked = some p → p.Valid
  | copied _ _ asked text => text = asked.map pairToStr
  | returned _ asked text => text = asked.map pairToStr
  | _ => True

structure ReadersInv (s : Readers ι w) : Prop where
  store : StoreInv s.shared.k
  excl : Exclusive s.shared.k.sems fun i => (s.thread i).holds
  truthful : ∀ i, (s.thread i).Truthful s.shared.buf

/-- A reader that builds its text finds the pair it asks for, and no reader of another interface has
built another text that it has not copied out yet. -/
def ReadUndisturbed (s : Readers ι w) : ReadEvent ι w → Prop
  | .stmt i =>
      match s.thread i with
      | .locked c iface => c.found s.shared.k = c.asked s.shared.k ∧
          ∀ p, c.asked s.shared.k = some p → ∀ j c' iface' asked, iface' ≠ iface →
            s.thread j = .built c' iface' asked (some .buffer) →
            asked.map pairToStr = some (pairToStr p)
      | _ => True
  | _ => True

/-- A statement takes or releases a semaphore or leaves the store as it is. -/
theorem ReaderPc.stmt_store {s s' : ReaderShared w} {pc pc' : ReaderPc w}
    (h : pc.stmt s = some (s', pc')) :
    SemStep s.k.sems pc.holds s'.k.sems pc'.holds ∧ s'.k.ifaces = s.k.ifaces ∧ s'.k.heap = s.k.heap := by
  cases pc with
  | idle => simp [stmt] at h
  | returned c asked text => simp [stmt] at h
  | entered c iface =>
      simp only [stmt, lockIfaceDevs] at h
      by_cases hsem : s.k.sems iface = 0
      · simp [hsem] at h
      · simp only [if_neg hsem, Option.some.injEq, Prod.mk.injEq] at h
        obtain ⟨rfl, rfl⟩ := h
        exact ⟨.down iface hsem, rfl, rfl⟩
  | locked c iface =>
      simp only [stmt] at h
      split at h
      · obtain ⟨rfl, rfl⟩ := Prod.mk.inj (Option.some.inj h)
        exact ⟨.rest _, rfl, rfl⟩
      · obtain ⟨rfl, rfl⟩ := Prod.mk.inj (Option.some.inj h)
        exact ⟨.rest _, rfl, rfl⟩
  | built c iface asked ptr =>
      obtain ⟨rfl, rfl⟩ := Prod.mk.inj (Option.some.inj h)
      exact ⟨.rest _, rfl, rfl⟩
  | copied c iface asked text =>
      obtain ⟨rfl, rfl⟩ := Prod.mk.inj (Option.some.inj h)
      exact ⟨.up iface, rfl, rfl⟩

/-- Only a reader that builds a text writes to the buffer. -/
theorem ReaderPc.stmt_buf {s s' : ReaderShared w} {pc pc' : ReaderPc w}
    (h : pc.stmt s = some (s', pc')) :
    s'.buf = s.buf ∨ ∃ c iface p, pc = .locked c iface ∧ c.found s.k = some p ∧ s'.buf = pairToStr p := by
  cases pc with
  | idle => simp [stmt] at h
  | returned c asked text => simp [stmt] at h
  | entered c iface =>
      simp only [stmt] at h
      split at h
      · simp at h
      · obtain ⟨rfl, _⟩ := Prod.mk.inj (Option.some.inj h)
        exact Or.inl rfl
  | locked c iface =>
      simp only [stmt] at h
      split at h
      · obtain ⟨rfl, _⟩ := Prod.mk.inj (Option.some.inj h)
        exact Or.inl rfl
      · rename_i p hfound
        obtain ⟨rfl, _⟩ := Prod.mk.inj (Option.some.inj h)
        rcases (buildText_eq p s.buf).2 with hsame | hbuilt
        · exact Or.inl hsame
        · exact Or.inr ⟨c, iface, p, rfl, hfound, hbuilt⟩
  | built c iface asked ptr =>
      obtain ⟨rfl, _⟩ := Prod.mk.inj (Option.some.inj h)
      exact Or.inl rfl
  | copied c iface asked text =>
      obtain ⟨rfl, _⟩ := Prod.mk.inj (Option.some.inj h)
      exact Or.inl rfl

theorem pairAt_valid {k : Kernel w} (h : StoreInv k) {d : Dev w} (hd : d ∈ k.devs) {idx : Int}
    {p : Pair w} (hp : pairAt d idx = some p) : p.Valid :=
  (h.ok d hd).valid p (pairAt_some hp).1

theorem ReadCall.asked_valid {k : Kernel w} (h : StoreInv k) {c : ReadCall} {p : Pair w}
    (hp : c.asked k = some p) : p.Valid := by
  cases c with
  | pairShow ifaceName devName filename =>
      obtain ⟨idx, _, hp⟩ := Option.bind_eq_some_iff.mp hp
      obtain ⟨iface, _, hp⟩ := Option.bind_eq_some_iff.mp hp
      obtain ⟨d, hfind, hp⟩ := Option.bind_eq_some_iff.mp hp
      exact pairAt_valid h (findDevice_some hfind) hp
  | hweGetPair iface devIndex pairIndex idx =>
      obtain ⟨d, hfind, hp⟩ := Option.bind_eq_some_iff.mp hp
      exact pairAt_valid h (findDeviceByIndex_some hfind).1 hp

/-- The text of a valid pair is copied out whole. -/
theorem ReadCall.print_pairToStr (c : ReadCall) {p : Pair w} (hp : p.Valid) :
    c.print (pairToStr p) = pairToStr p := by
  cases c with
  | pairShow ifaceName devName filename => rfl
  | hweGetPair iface devIndex pairIndex idx => exact List.take_of_length_le (length_pairToStr hp).2

/-- A reader that finds the pair it asks for stays truthful. -/
theorem ReaderPc.Truthful.stmt {s s' : ReaderShared w} {pc pc' : ReaderPc w} (hstore : StoreInv s.k)
    (h : pc.Truthful s.buf)
    (hfound : ∀ c iface, pc = .locked c iface → c.found s.k = c.asked s.k)
    (hstmt : pc.stmt s = some (s', pc')) : pc'.Truthful s'.buf := by
  cases pc with
  | idle => simp [ReaderPc.stmt] at hstmt
  | returned c asked text => simp [ReaderPc.stmt] at hstmt
  | entered c iface =>
      simp only [ReaderPc.stmt] at hstmt
      split at hstmt
      · simp at hstmt
      · obtain ⟨_, rfl⟩ := Prod.mk.inj (Option.some.inj hstmt)
        trivial
  | locked c iface =>
      have hasked := hfound c iface rfl
      simp only [ReaderPc.stmt] at hstmt
      split at hstmt
      · rename_i hnone
        obtain ⟨_, rfl⟩ := Prod.mk.inj (Option.some.inj hstmt)
        rw [hnone] at hasked
        refine ⟨by rw [← hasked]; rfl, ?_⟩
        intro p hp
        rw [← hasked] at hp
        exact absurd hp (by simp)
      · rename_i p hsome
        obtain ⟨rfl, rfl⟩ := Prod.mk.inj (Option.some.inj hstmt)
        refine ⟨?_, fun q hq => c.asked_valid hstore hq⟩
        rw [← hasked, hsome]
        exact congrArg some (buildText_eq p s.buf).1
  | built c iface asked ptr =>
      obtain ⟨rfl, rfl⟩ := Prod.mk.inj (Option.some.inj hstmt)
      obtain ⟨htext, hvalid⟩ := h
      calc ptr.map (fun ptr => c.print (ptr.read s.buf))
          = (ptr.map (TextPtr.read s.buf)).map c.print := by rw [Option.map_map]; rfl
        _ = (asked.map pairToStr).map c.print := by rw [htext]
        _ = asked.map pairToStr := by
            cases asked with
            | none => rfl
            | some p => exact congrArg some (c.print_pairToStr (hvalid p rfl))
  | copied c iface asked text =>
      obtain ⟨rfl, rfl⟩ := Prod.mk.inj (Option.some.inj hstmt)
      exact h

/-- What is true of a reader that does not wait to copy from the buffer is true whatever is in it. -/
theorem ReaderPc.Truthful.of_buf {pc : ReaderPc w} {buf buf' : List UInt8} (h : pc.Truthful buf)
    (hbuilt : ∀ c iface asked, pc = .built c iface asked (some .buffer) → asked.map pairToStr = some buf') :
    pc.Truthful buf' := by
  cases pc with
  | built c iface asked ptr =>
      cases ptr with
      | none => exact h
      | some ptr =>
          cases ptr with
          | literal text => exact h
          | buffer => exact ⟨(hbuilt c iface asked rfl).symm, h.2⟩
  | copied c iface asked text => exact h
  | returned c asked text => exact h
  | _ => trivial

/-- **One step.** -/
theorem ReadersInv.step {s s' : Readers ι w} {e : ReadEvent ι w} (h : ReadersInv s)
    (hundisturbed : ReadUndisturbed s e) (hstep : Readers.next HZ s e = some s') : ReadersInv s' := by
  have hstore : ∀ {ev : Event w} {k' : Kernel w}, SysStep HZ s.shared.k ev k' →
      ReadersInv { s with shared := { s.shared with k := k' } } := by
    intro ev k' hev
    have horderly := SysStep.orderly h.store hev
    refine ⟨horderly.inv, ?_, h.truthful⟩
    have hsems : ({ s.shared with k := k' } : ReaderShared w).k.sems = s.shared.k.sems := horderly.sems
    rw [hsems]
    exact h.excl
  cases e with
  | store op =>
      simp only [Readers.next] at hstep
      cases hexec : exec HZ op s.shared.k with
      | error fault => simp [hexec] at hstep
      | ok out =>
          rw [hexec] at hstep
          obtain rfl := Option.some.inj hstep
          exact @hstore (.op op) _ ⟨out.1, hexec⟩
  | tick jiff free =>
      obtain rfl := Option.some.inj hstep
      exact @hstore (.tick jiff free (timerTick jiff free s.shared.k).2) _ rfl
  | call i c =>
      simp only [Readers.next] at hstep
      by_cases hmay : (s.thread i).mayCall
      · rw [if_pos hmay] at hstep
        obtain ⟨iface, _, rfl⟩ := Option.map_eq_some_iff.mp hstep
        have hrest : SemStep s.shared.k.sems (s.thread i).holds s.shared.k.sems
            (ReaderPc.entered (w := w) c iface).holds := by
          cases hpc : s.thread i <;> simp [hpc, ReaderPc.mayCall] at hmay <;> exact .rest none
        refine ⟨h.store, h.excl.move hrest, ?_⟩
        exact Threads.forall_move (A := fun _ (s : ReaderShared w) (pc : ReaderPc w) => pc.Truthful s.buf) trivial
          fun j _ => h.truthful j
      · simp [hmay] at hstep
  | stmt i =>
      simp only [Readers.next] at hstep
      obtain ⟨⟨shared, pc⟩, hstmt, rfl⟩ := Option.map_eq_some_iff.mp hstep
      obtain ⟨hsems, hifaces, hheap⟩ := ReaderPc.stmt_store hstmt
      refine ⟨h.store.congr hifaces (by rw [Threads.shared_move, hheap]), h.excl.move hsems, ?_⟩
      refine Threads.forall_move (A := fun _ (s : ReaderShared w) (pc : ReaderPc w) => pc.Truthful s.buf) ?_ ?_
      · refine ReaderPc.Truthful.stmt h.store (h.truthful i) ?_ hstmt
        intro c iface hpc
        simp only [ReadUndisturbed, hpc] at hundisturbed
        exact hundisturbed.1
      · intro j hj
        rcases ReaderPc.stmt_buf hstmt with hsame | ⟨c, iface, p, hpc, hfound, hbuf⟩
        · dsimp only
          rw [hsame]
          exact h.truthful j
        · simp only [ReadUndisturbed, hpc] at hundisturbed
          obtain ⟨hasked, hothers⟩ := hundisturbed
          refine (h.truthful j).of_buf ?_
          intro c' iface' asked hpc'
          dsimp only
          rw [hbuf]
          refine hothers p (hasked.symm.trans hfound) j c' iface' asked ?_ hpc'
          -- two readers of one interface are never both at work
          rintro rfl
          refine hj (h.excl.unique j i iface' ?_ ?_)
          · rw [hpc']
            rfl
          · rw [hpc]
            rfl

/-- **Concurrent readers get their own pair**, on every run in which no reader builds its text while
one of another interface has still to copy its own. -/
theorem readers_get_their_pair {s₀ s : Readers ι w} {es : List (ReadEvent ι w)}
    (hreach : SysReachable HZ s₀.shared.k) (hidle : ∀ i, s₀.thread i = .idle)
    (hrun : Run (fun s e s' => Readers.next HZ s e = some s' ∧ ReadUndisturbed s e) s₀ es s) {i : ι}
    {c : ReadCall} {asked : Option (Pair w)} {text : Option (List UInt8)}
    (hreturned : s.thread i = .returned c asked text) : text = asked.map pairToStr := by
  have hinit : ReadersInv s₀ := by
    refine ⟨hreach.inv.1, ?_, ?_⟩
    · refine .init hreach.inv.2 ?_
      intro j
      rw [hidle j]
      rfl
    · intro j
      rw [hidle j]
      trivial
  have hinv := hrun.invariant (I := ReadersInv)
    (fun s e s' h hstep => h.step hstep.2 hstep.1) hinit
  have htruthful := hinv.truthful i
  rwa [hreturned] at htruthful

/-- A tty device with the pair `01=02` and an i2c device with the pair `03=04`. -/
def twoDevices : List (Op 64) :=
  [.hweAddDevice .tty .succeeds, .hweAddPair .tty 0 (bytes "01=02") (.succeeds 64),
    .hweAddDevice .i2c .succeeds, .hweAddPair .i2c 0 (bytes "03=04") (.succeeds 64)]

/-- Readers that have not been called, on the store of `twoDevices`. -/
def twoReaders (ι : Type) : Option (Readers ι 64) :=
  match execAll 250 twoDevices (Kernel.loaded 64) with
  | .error _ => none
  | .ok k => some { shared := { k := k, buf := [] }, thread := fun _ => .idle }

theorem twoReaders_start {ι : Type} {s : Readers ι 64} (h : twoReaders ι = some s) :
    SysReachable 250 s.shared.k ∧ ∀ i, s.thread i = .idle := by
  unfold twoReaders at h
  cases hrun : execAll 250 twoDevices (Kernel.loaded 64) with
  | error fault => simp [hrun] at h
  | ok k =>
      rw [hrun] at h
      obtain rfl := Option.some.inj h
      exact ⟨(Reachable.of_execAll hrun).sys, fun _ => rfl⟩

/-- What a reader asked for, as a text, and what it returned. -/
def ReaderPc.result : ReaderPc w → Option (Option (List UInt8) × Option (List UInt8))
  | returned _ asked text => some (asked.map pairToStr, text)
  | _ => none

/-- A reader does not wait on another interface to copy another text out of the buffer. -/
def ReaderPc.spares (iface : HweIface) (text : List UInt8) : ReaderPc w → Bool
  | built _ iface' asked (some .buffer) => iface' == iface || asked.map pairToStr == some text
  | _ => true

/-- `ReadUndisturbed`, computed. -/
def ReadEvent.undisturbed [Fintype ι] (s : Readers ι w) : ReadEvent ι w → Bool
  | .stmt i =>
      match s.thread i with
      | .locked c iface => decide (c.found s.shared.k = c.asked s.shared.k) &&
          (c.asked s.shared.k).all fun p => decide (∀ j, (s.thread j).spares iface (pairToStr p) = true)
      | _ => true
  | _ => true

omit [DecidableEq ι] in
theorem ReadUndisturbed.of_undisturbed [Fintype ι] {s : Readers ι w} {e : ReadEvent ι w}
    (h : e.undisturbed s = true) : ReadUndisturbed s e := by
  cases e with
  | stmt i =>
      simp only [ReadEvent.undisturbed, ReadUndisturbed] at h ⊢
      split
      · rename_i c iface hpc
        rw [hpc] at h
        simp only [Bool.and_eq_true, decide_eq_true_eq, Option.all_eq_true] at h
        refine ⟨h.1, fun p hp j c' iface' asked hne hbuilt => ?_⟩
        have hspares := h.2 p hp j
        rw [hbuilt] at hspares
        simpa [ReaderPc.spares, hne] using hspares
      · trivial
  | _ => trivial

theorem ReaderPc.result_eq {pc : ReaderPc w} {asked : Option (List UInt8)} {text : Option (List UInt8)}
    (h : pc.result = some (asked, text)) :
    ∃ c a, pc = .returned c a text ∧ a.map pairToStr = asked := by
  cases pc <;> simp [ReaderPc.result] at h
  case returned c a text' =>
    obtain ⟨rfl, rfl⟩ := h
    exact ⟨c, a, rfl, rfl⟩

/-- Two readers, each of which holds the semaphore of its interface while the other is at work. A device is added
in between. -/
def interleaved : List (ReadEvent (Fin 2) 64) :=
  [.call 0 (.pairShow (bytes "tty") (bytes "tty0") (bytes "0")), .call 1 (.hweGetPair .i2c 0 0 0), .stmt 0, .stmt 1,
    .stmt 0, .store (.hweAddDevice .spi .succeeds), .stmt 0, .stmt 1, .tick 5 fun _ => false, .stmt 0, .stmt 1, .stmt 1]

theorem readers_get_their_pair_applies : ∃ (s : Readers (Fin 2) 64) (c₀ c₁ : ReadCall) (asked₀ asked₁ : Option (Pair 64)),
    (s.thread 0 = .returned c₀ asked₀ (some (bytes "01=02")) ∧ some (bytes "01=02") = asked₀.map pairToStr) ∧
      s.thread 1 = .returned c₁ asked₁ (some (bytes "03=04")) ∧ some (bytes "03=04") = asked₁.map pairToStr := by
  have hresult : (((twoReaders (Fin 2)).bind fun s => interleaved.foldlM
      (fun s e => if e.undisturbed s = true then Readers.next 250 s e else none) s).bind fun s =>
        (s.thread 0).result.bind fun r₀ => (s.thread 1).result.map fun r₁ => (r₀, r₁)) =
      some ((some (bytes "01=02"), some (bytes "01=02")), some (bytes "03=04"), some (bytes "03=04")) := by
    decide +kernel
  obtain ⟨s, hrun, hs⟩ := Option.bind_eq_some_iff.mp hresult
  obtain ⟨s₀, hstart, hrun⟩ := Option.bind_eq_some_iff.mp hrun
  obtain ⟨hreach, hidle⟩ := twoReaders_start hstart
  obtain ⟨r₀, hs₀, hs₁⟩ := Option.bind_eq_some_iff.mp hs
  obtain ⟨r₁, hs₁, hboth⟩ := Option.map_eq_some_iff.mp hs₁
  obtain ⟨rfl, rfl⟩ := Prod.mk.inj hboth
  have hundisturbed : Run (fun s e s' => Readers.next 250 s e = some s' ∧ ReadUndisturbed s e) s₀ interleaved s :=
    (Run.of_foldlM_guard hrun).mono fun _ _ _ hstep => ⟨hstep.1, .of_undisturbed hstep.2⟩
  obtain ⟨c₀, asked₀, hreturned₀, _⟩ := ReaderPc.result_eq hs₀
  obtain ⟨c₁, asked₁, hreturned₁, _⟩ := ReaderPc.result_eq hs₁
  exact ⟨s, c₀, c₁, asked₀, asked₁,
    ⟨hreturned₀, readers_get_their_pair hreach hidle hundisturbed hreturned₀⟩,
    hreturned₁, readers_get_their_pair hreach hidle hundisturbed hreturned₁⟩

/-- Reader 0 has built the text of the tty pair when reader 1 builds that of the i2c pair: both return
the text of the i2c pair. -/
theorem readers_share_the_buffer : ∃ (s₀ s : Readers Nat 64) (es : List (ReadEvent Nat 64)),
    SysReachable 250 s₀.shared.k ∧ (∀ i, s₀.thread i = .idle) ∧
    Run (fun s e s' => Readers.next 250 s e = some s') s₀ es s ∧
    (s.thread 0).result = some (some (bytes "01=02"), some (bytes "03=04")) := by
  let es : List (ReadEvent Nat 64) :=
    [.call 0 (.pairShow (bytes "tty") (bytes "tty0") (bytes "0")), .stmt 0, .stmt 0,
      .call 1 (.pairShow (bytes "i2c") (bytes "i2c0") (bytes "0")), .stmt 1, .stmt 1, .stmt 0, .stmt 0]
  have hresult : (((twoReaders Nat).bind fun s => es.foldlM (Readers.next 250) s).bind fun s =>
      (s.thread 0).result) = some (some (bytes "01=02"), some (bytes "03=04")) := by
    decide +kernel
  obtain ⟨s, hrun, hs⟩ := Option.bind_eq_some_iff.mp hresult
  obtain ⟨s₀, hstart, hrun⟩ := Option.bind_eq_some_iff.mp hrun
  obtain ⟨hreach, hidle⟩ := twoReaders_start hstart
  exact ⟨s₀, s, es, hreach, hidle, .of_foldlM hrun, hs⟩

end Hwemu
