import Hwemu.PairBounds
import Hwemu.TimerRuns

/-!
# The two ways to add a pair

`dev_add_store` and `hwe_add_pair` are two functions with the same body written out twice. Here each
is translated on its own, statement by statement, and shown to be the operation of the store that
shares its body with the other one.
-/

namespace Hwemu

variable {w : Nat} {k k' : Kernel w} {d : Dev w} {HZ : Nat}

namespace Unshared

/-- `kmalloc(sizeof(*pair))`: the record with whatever is in it. -/
def kmallocPair (env : AddPairEnv w) (k : Kernel w) : Option (Pair w) × Kernel w :=
  match env.kmalloc with
  | none => (none, k)
  | some mem => (some { mem with addr := k.alloc.1 }, k.alloc.2)

/-- `if (ret < 0) kfree(pair)`; a null pointer is not freed. -/
def kfreeOnError (ret : Int) (pair : Option (Pair w)) (k : Kernel w) : Kernel w :=
  if ret < 0 then
    match pair with
    | none => k
    | some pair => k.kfree pair.addr
  else k

def devAddStore (HZ dev : Nat) (buf : List UInt8) (env : AddPairEnv w) (k : Kernel w) :
    Except Fault (Int × Kernel w) := do
  let d ← k.deref dev
  let k ← lockIfaceDevs d.iface k
  let (pair, k) := kmallocPair env k
  let (ret, k) ← (match pair with
    | none => .ok (-einval, k)
    | some mem => do
        match ← strToPair HZ buf mem with
        | .error _ => .ok (-einval, k)
        | .ok pair =>
          let idx := Bitmap.findFirstZeroBit d.pairsIndexes
          if idx = hweMaxPairs then .ok (-einval, k)
          else
            match findPair d.pairList pair.req pair.req.length with
            | some _ => .ok (-einval, k)
            | none =>
              let pair := { pair with
                dev := d.addr
                index := idx
                filename := scnprintf filenameSize (decimal idx) }
              match env.sysfsCreateFile with
              | some err => .ok (-((err : Nat) : Int), k)
              | none =>
                let k := k.modifyDev d.addr fun d =>
                  { d with pairsIndexes := Bitmap.setBit idx d.pairsIndexes }
                let k := k.modifyDev d.addr fun d => { d with pairList := d.pairList ++ [pair] }
                .ok ((buf.length : Int), k))
  return (ret, unlockIfaceDevs d.iface (kfreeOnError ret pair k))

def hweAddPair (HZ : Nat) (iface : HweIface) (devIndex : Int) (pairStr : List UInt8)
    (env : AddPairEnv w) (k : Kernel w) : Except Fault (Int × Kernel w) := do
  let k ← lockIfaceDevs iface k
  let dev := findDeviceByIndex iface devIndex k
  let (pair, k) := kmallocPair env k
  let (ret, k) ← (match pair with
    | none => .ok (-enomem, k)
    | some mem => do
        match ← strToPair HZ (cstr pairStr) mem with
        | .error _ => .ok (-einval, k)
        | .ok pair =>
          match dev with
          | none => .error .nullDeref
          | some dev =>
            let idx := Bitmap.findFirstZeroBit dev.pairsIndexes
            if idx = hweMaxPairs then .ok (-e2big, k)
            else
              match findPair dev.pairList pair.req pair.req.length with
              | some _ => .ok (-eexist, k)
              | none =>
                let pair := { pair with
                  dev := dev.addr
                  index := idx
                  filename := scnprintf filenameSize (decimal idx) }
                match env.sysfsCreateFile with
                | some err => .ok (-((err : Nat) : Int), k)
                | none =>
                  let k := k.modifyDev dev.addr fun d =>
                    { d with pairsIndexes := Bitmap.setBit idx d.pairsIndexes }
                  let k := k.modifyDev dev.addr fun d => { d with pairList := d.pairList ++ [pair] }
                  .ok ((idx : Int), k))
  return (ret, unlockIfaceDevs iface (kfreeOnError ret pair k))

/-! ### Each is the operation of the store -/

theorem kfreeOnError_of_neg {ret : Int} (h : ret < 0) (pair : Pair w) (k : Kernel w) :
    kfreeOnError ret (some pair) k = k.kfree pair.addr :=
  if_pos h

theorem kfreeOnError_of_nonneg {ret : Int} (h : 0 ≤ ret) (pair : Option (Pair w)) (k : Kernel w) :
    kfreeOnError ret pair k = k :=
  if_neg (not_lt.mpr h)

/-- Publishing a pair in two writes or in one. -/
theorem publish_eq (k : Kernel w) (dev idx : Nat) (pair : Pair w) :
    ((k.modifyDev dev fun d => { d with pairsIndexes := Bitmap.setBit idx d.pairsIndexes }).modifyDev
      dev fun d => { d with pairList := d.pairList ++ [pair] }) =
      k.modifyDev dev fun d => { d with
        pairsIndexes := Bitmap.setBit idx d.pairsIndexes
        pairList := d.pairList ++ [pair] } :=
  Kernel.modifyDev_modifyDev (f := fun d => { d with pairsIndexes := Bitmap.setBit idx d.pairsIndexes })
    fun _ => rfl

/-- The parser leaves the record where it was allocated. -/
theorem addr_of_strToPair {str : List UInt8} {mem q : Pair w} (h : strToPair HZ str mem = .ok (.ok q)) :
    q.addr = mem.addr := by
  obtain ⟨_, hfilled⟩ := strToPair_ok h
  rw [hfilled]
  exact Pair.addr_filled HZ mem q

theorem devAddStore_eq (HZ dev : Nat) (buf : List UInt8) (env : AddPairEnv w) (k : Kernel w) :
    devAddStore HZ dev buf env k = Hwemu.devAddStore HZ dev buf env k := by
  unfold devAddStore Hwemu.devAddStore withLock addPair
  cases k.deref dev with
  | error fault => rfl
  | ok d =>
      simp only [Except.ok_bind]
      cases lockIfaceDevs d.iface k with
      | error fault => rfl
      | ok k =>
          simp only [Except.ok_bind, kmallocPair]
          cases env.kmalloc with
          | none => rfl
          | some mem =>
              dsimp only
              cases hparse : strToPair HZ buf { mem with addr := k.alloc.1 } with
              | error fault => rfl
              | ok parsed =>
                  cases parsed with
                  | error err => rfl
                  | ok q =>
                      have haddr : q.addr = k.alloc.1 := addr_of_strToPair hparse
                      simp only [Except.ok_bind]
                      split
                      · rw [← haddr]
                        rfl
                      · cases findPair d.pairList q.req q.req.length with
                        | some p => rfl
                        | none =>
                            dsimp only
                            cases env.sysfsCreateFile with
                            | some err =>
                                simp only [Except.ok_bind, kfreeOnError_of_neg (neg_errno_lt err)]
                                rfl
                            | none =>
                                simp only [Except.ok_bind, publish_eq,
                                  kfreeOnError_of_nonneg (Int.natCast_nonneg buf.length)]
                                rfl

theorem hweAddPair_eq (HZ : Nat) (iface : HweIface) (devIndex : Int) (pairStr : List UInt8)
    (env : AddPairEnv w) (k : Kernel w) :
    hweAddPair HZ iface devIndex pairStr env k = Hwemu.hweAddPair HZ iface devIndex pairStr env k := by
  unfold hweAddPair Hwemu.hweAddPair withLock addPair
  cases lockIfaceDevs iface k with
  | error fault => rfl
  | ok k =>
      simp only [Except.ok_bind, kmallocPair]
      cases env.kmalloc with
      | none => rfl
      | some mem =>
          dsimp only
          cases hparse : strToPair HZ (cstr pairStr) { mem with addr := k.alloc.1 } with
          | error fault => rfl
          | ok parsed =>
              cases parsed with
              | error err => rfl
              | ok q =>
                  have haddr : q.addr = k.alloc.1 := addr_of_strToPair hparse
                  simp only [Except.ok_bind]
                  cases findDeviceByIndex iface devIndex k with
                  | none => rfl
                  | some d =>
                      dsimp only
                      split
                      · rw [← haddr]
                        rfl
                      · cases findPair d.pairList q.req q.req.length with
                        | some p => rfl
                        | none =>
                            dsimp only
                            cases env.sysfsCreateFile with
                            | some err =>
                                simp only [Except.ok_bind, kfreeOnError_of_neg (neg_errno_lt err)]
                                rfl
                            | none =>
                                simp only [Except.ok_bind, publish_eq,
                                  kfreeOnError_of_nonneg (Int.natCast_nonneg _)]
                                rfl

end Unshared

theorem cstr_terminated {text : List UInt8} (htext : 0 ∉ text) (rest : List UInt8) :
    cstr (text ++ 0 :: rest) = text := by
  have hplain : ∀ c ∈ text, decide (c ≠ 0) = true := by
    intro c hc
    apply decide_eq_true
    rintro rfl
    exact htext hc
  unfold cstr
  rw [List.takeWhile_append_of_pos hplain]
  simp

/-- The body the two operations share only fails to return on a text longer than an `int` can say. -/
theorem addPair_returns {text : List UInt8} (hlen : text.length ≤ intMax) (env : AddPairEnv w)
    (d : Dev w) (k : Kernel w) : ∃ r k', addPair HZ env text (some d) k = .ok (r, k') := by
  unfold addPair
  cases env.kmalloc with
  | none => exact ⟨_, _, rfl⟩
  | some mem =>
      dsimp only
      have hparsed : ∃ parsed, strToPair HZ text { mem with addr := k.alloc.1 } = .ok parsed := by
        rcases strToPair_total (w := w) HZ hlen with ⟨q, _, hq⟩ | ⟨err, herr⟩
        · exact ⟨_, hq _⟩
        · exact ⟨_, herr _⟩
      obtain ⟨parsed, hparsed⟩ := hparsed
      rw [hparsed, Except.ok_bind]
      cases parsed with
      | error err => exact ⟨_, _, rfl⟩
      | ok q =>
          dsimp only
          split
          · exact ⟨_, _, rfl⟩
          · split
            · exact ⟨_, _, rfl⟩
            · split
              · exact ⟨_, _, rfl⟩
              · exact ⟨_, _, rfl⟩

/-- Success is told by both return values. -/
theorem AddPairResult.ret_iff (r : AddPairResult w) (count : Nat) :
    0 ≤ r.storeRet count ↔ 0 ≤ r.ioctlRet := by
  by_cases hadded : ∃ idx, r = .added idx
  · obtain ⟨idx, rfl⟩ := hadded
    exact iff_of_true (Int.natCast_nonneg count) (Int.natCast_nonneg idx)
  · rw [not_exists] at hadded
    exact iff_of_false (not_le.mpr (storeRet_neg hadded count)) (not_le.mpr (ioctlRet_neg hadded))

/-- A device after a pair was put in its list, in the changed store. -/
theorem Changed.mem_addPair {p : Pair w} (hd : d ∈ k.devs) (hc : Changed (.addPair d.addr p) k k') :
    d.addPair p ∈ k'.devs := by
  have hdevs : k'.devs = (k.modifyDev d.addr fun d => d.addPair p).devs := by
    unfold Kernel.devs
    rw [hc.ifaces]
    rfl
  rw [hdevs]
  exact Kernel.mem_devs_modifyDev.mpr ⟨d, hd, if_pos rfl⟩

/-- **The two paths agree.** For every reachable store, every device in it and every text, both leave
the same store behind, one succeeds exactly when the other does, and the index that `hwe_add_pair`
returns is the name of the file under which the new pair, at the end of the list, is published. -/
theorem add_paths_agree (hreach : SysReachable HZ k) (hd : d ∈ k.devs) {text : List UInt8}
    (htext : 0 ∉ text) (rest : List UInt8) (env : AddPairEnv w) :
    (∃ fault, intMax < text.length ∧ Unshared.devAddStore HZ d.addr text env k = .error fault ∧
      Unshared.hweAddPair HZ d.iface d.index (text ++ 0 :: rest) env k = .error fault) ∨
    ∃ ret ret' k', Unshared.devAddStore HZ d.addr text env k = .ok (ret, k') ∧
      Unshared.hweAddPair HZ d.iface d.index (text ++ 0 :: rest) env k = .ok (ret', k') ∧
      (0 ≤ ret ↔ 0 ≤ ret') ∧ (ret' < 0 → k'.ifaces = k.ifaces) ∧
      (0 ≤ ret' → ∃ p, d.addPair p ∈ k'.devs ∧ ¬k.HasPair d.addr p.addr ∧ (p.index : Int) = ret' ∧
        p.filename = decimal p.index) := by
  obtain ⟨hinv, hsems⟩ := hreach.inv
  have hsem : k.sems d.iface ≠ 0 := by
    rw [hsems]
    decide
  let k₀ := k.setSem d.iface (k.sems d.iface - 1)
  have hlock : lockIfaceDevs d.iface k = .ok k₀ := if_neg hsem
  have hfind : findDeviceByIndex d.iface d.index k₀ = some d := by
    rw [findDeviceByIndex_congr rfl]
    exact hinv.findDeviceByIndex_eq hd
  have hstored : Unshared.devAddStore HZ d.addr text env k =
      (addPair HZ env text (some d) k₀ >>= fun out =>
        .ok (out.1.storeRet text.length, unlockIfaceDevs d.iface out.2)) := by
    rw [Unshared.devAddStore_eq]
    unfold devAddStore withLock
    rw [hinv.deref_eq hd, Except.ok_bind, hlock, Except.ok_bind]
    dsimp only
    cases addPair HZ env text (some d) k₀ with
    | error fault => rfl
    | ok out => rfl
  have hadded : Unshared.hweAddPair HZ d.iface d.index (text ++ 0 :: rest) env k =
      (addPair HZ env text (some d) k₀ >>= fun out =>
        .ok (out.1.ioctlRet, unlockIfaceDevs d.iface out.2)) := by
    rw [Unshared.hweAddPair_eq]
    unfold hweAddPair withLock
    rw [hlock, Except.ok_bind]
    dsimp only
    rw [hfind, cstr_terminated htext]
    cases addPair HZ env text (some d) k₀ with
    | error fault => rfl
    | ok out => rfl
  cases hbody : addPair HZ env text (some d) k₀ with
  | error fault =>
      refine Or.inl ⟨fault, ?_, ?_, ?_⟩
      · by_contra hshort
        obtain ⟨r, k₁, hok⟩ := @addPair_returns w HZ text (not_lt.mp hshort) env d k₀
        rw [hbody] at hok
        exact absurd hok (by simp)
      · rw [hstored, hbody]
        rfl
      · rw [hadded, hbody]
        rfl
  | ok out =>
      obtain ⟨r, k₁⟩ := out
      refine Or.inr ⟨r.storeRet text.length, r.ioctlRet, unlockIfaceDevs d.iface k₁, ?_, ?_,
        r.ret_iff text.length, ?_, ?_⟩
      · rw [hstored, hbody]
        rfl
      · rw [hadded, hbody]
        rfl
      · intro hneg
        rcases addPair_changed (hinv.setSem _ _) hd hbody with ⟨mem, q, _, _, rfl, _⟩ | ⟨_, hkeep⟩
        · exact absurd (Int.natCast_nonneg (q.placed d).index) (not_le.mpr hneg)
        · exact hkeep.ifaces
      · intro hpos
        rcases addPair_changed (hinv.setSem _ _) hd hbody with ⟨mem, q, _, _, rfl, hchanged⟩ | ⟨hne, _⟩
        · have hchanged' := hchanged.unlock hsem
          obtain ⟨_, hfresh, _⟩ := hchanged'.allowed
          refine ⟨q.placed d, hchanged'.mem_addPair hd, ?_, rfl, rfl⟩
          rintro ⟨d', hd', _, p, hp, haddr⟩
          have hlt := hinv.pairFresh d' hd' p hp
          omega
        · exact absurd hpos (not_le.mpr (ioctlRet_neg hne))

theorem add_paths_agree_applies : ∃ (k k' : Kernel 64) (d : Dev 64) (ret ret' : Int), d ∈ k.devs ∧
    Unshared.devAddStore 250 d.addr (bytes "0304=dd") (.succeeds 64) k = .ok (ret, k') ∧
      Unshared.hweAddPair 250 d.iface d.index (bytes "0304=dd" ++ [0]) (.succeeds 64) k =
        .ok (ret', k') ∧ (0 ≤ ret ↔ 0 ≤ ret') := by
  obtain ⟨k, hrun, hlists⟩ := sampleOps_run
  obtain ⟨d, hd, _⟩ : ∃ d ∈ (k.ifaces .i2c).devList, d.pairList.map (·.index) = [0, 1] := by
    apply List.mem_map.mp
    rw [hlists]
    exact List.mem_singleton_self _
  have hmem : d ∈ k.devs := Kernel.mem_devs_of_mem hd
  rcases @add_paths_agree 64 k d 250 (Reachable.of_execAll hrun).sys hmem (bytes "0304=dd") (by decide) []
    (.succeeds 64) with ⟨_, hlong, _⟩ | ⟨ret, ret', k', hstored, hadded, hsame, _⟩
  · exact absurd hlong (by decide)
  · exact ⟨k, k', d, ret, ret', hmem, hstored, hadded, hsame⟩

end Hwemu
