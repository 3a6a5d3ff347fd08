import Hwemu.ConfigRead
import Hwemu.TimerRuns

/-!
# Uninstalling by name

The file `uninstall` takes the first word of what is written as the name of a device. A word that is cut to
fit the 16 bytes of `dev_name` is longer than every name; any other names a device just when it is spelled
as the device is listed.
-/

namespace Hwemu

variable {w : Nat} {HZ : Nat} {k k' : Kernel w} {d : Dev w} {iface : HweIface}

/-! ### The first word -/

/-- What the copying loop of `copy_word` lets through. -/
def isWordByte (c : UInt8) : Bool := c ≠ 0 && !isSpace c && isPrint c

/-- The bytes after the leading blanks, up to a blank, a null or a byte that is not printable. -/
def firstWord (buf : List UInt8) : List UInt8 := (buf.dropWhile isSpace).takeWhile isWordByte

/-- A write through a `char` pointer into an object; `none` when it is outside. -/
def storeByte (dst : List UInt8) (s : Nat) (c : UInt8) : Option (List UInt8) :=
  if s < dst.length then some (dst.set s c) else none

/-- The copying loop of `copy_word`, on the memory behind `dst` and with the offset of the cursor `s`. -/
def copyWordLoop (dst : List UInt8) (s dstLen : Nat) : List UInt8 → Option (List UInt8 × Nat)
  | [] => some (dst, s)
  | c :: src =>
      if dstLen > 1 && isWordByte c then do
        let dst ← storeByte dst s c
        copyWordLoop dst (s + 1) (dstLen - 1) src
      else some (dst, s)

/-- `copy_word` with the memory it writes: what is in `dst` afterwards, and the result. -/
def copyWordInto (src dst : List UInt8) (dstLen : Nat) : Option (List UInt8 × Nat) :=
  let src := src.dropWhile isSpace
  if src.length = 0 ∨ dstLen < 1 then some (dst, 0)
  else do
    let (dst, s) ← copyWordLoop dst 0 dstLen src
    let dst ← storeByte dst s 0
    return (dst, s)

theorem storeByte_append {written rest : List UInt8} {c : UInt8} (hroom : rest ≠ []) :
    storeByte (written ++ rest) written.length c = some (written ++ c :: rest.tail) := by
  cases rest with
  | nil => exact absurd rfl hroom
  | cons old rest =>
      have hlt : written.length < (written ++ old :: rest).length := by
        rw [List.length_append, List.length_cons]
        omega
      rw [storeByte, if_pos hlt, List.set_append_right _ _ le_rfl, Nat.sub_self, List.set_cons_zero, List.tail_cons]

/-- The loop writes as much of the word as fits; `written` is there already. -/
theorem copyWordLoop_eq {src written rest : List UInt8} {n : Nat} (hroom : n < rest.length) :
    copyWordLoop (written ++ rest) written.length (n + 1) src =
      some (written ++ (src.takeWhile isWordByte).take n ++ rest.drop ((src.takeWhile isWordByte).take n).length,
        written.length + ((src.takeWhile isWordByte).take n).length) := by
  have hstop : some (written ++ rest, written.length) =
      some (written ++ [] ++ rest.drop ([] : List UInt8).length, written.length + ([] : List UInt8).length) := by
    rw [List.append_nil, List.length_nil, List.drop_zero, Nat.add_zero]
  induction src generalizing written rest n with
  | nil =>
      rw [List.takeWhile_nil, List.take_nil]
      exact hstop
  | cons c src ih =>
      rw [copyWordLoop]
      by_cases hword : isWordByte c = true
      · rw [List.takeWhile_cons_of_pos hword]
        cases n with
        | zero => exact hstop
        | succ n =>
            have hne : rest ≠ [] := List.ne_nil_of_length_pos (Nat.zero_lt_of_lt hroom)
            have htail : n < rest.tail.length := by
              rw [List.length_tail]
              omega
            have hnext := @ih (written ++ [c]) rest.tail n htail (by simp)
            have hgo : (decide (n + 1 + 1 > 1) && isWordByte c) = true := by
              rw [hword, Bool.and_true, decide_eq_true_iff]
              omega
            rw [if_pos hgo, storeByte_append hne, List.take_succ_cons, List.length_cons, ← List.drop_tail]
            rw [List.append_assoc, List.singleton_append, List.length_append, List.length_singleton] at hnext
            refine hnext.trans ?_
            rw [List.append_assoc, List.append_assoc, List.append_assoc, List.singleton_append, List.cons_append,
              Nat.add_assoc, Nat.add_comm 1]
      · rw [List.takeWhile_cons_of_neg hword, List.take_nil, if_neg fun hgo => hword (Bool.and_eq_true_iff.mp hgo).2]
        exact hstop

/-- **`copy_word` stays inside `dst`**, and what it leaves there as a string is the word cut to fit. -/
theorem copyWordInto_eq (src : List UInt8) {dst : List UInt8} (hpos : 0 < dst.length) :
    ∃ dst', copyWordInto src dst dst.length = some (dst', (copyWord src dst.length).length) ∧
      dst'.length = dst.length ∧
      ((copyWord src dst.length).length ≠ 0 → dst'.takeWhile (· ≠ 0) = copyWord src dst.length) := by
  have hcopy : copyWord src dst.length = (firstWord src).take (dst.length - 1) := rfl
  unfold copyWordInto
  dsimp only
  split
  · rename_i hnone
    have hblank : src.dropWhile isSpace = [] := List.length_eq_zero_iff.mp (hnone.resolve_right (by omega))
    have hempty : copyWord src dst.length = [] := by
      rw [hcopy, firstWord, hblank, List.takeWhile_nil, List.take_nil]
    rw [hempty]
    exact ⟨dst, rfl, rfl, fun hne => absurd rfl hne⟩
  · have hloop := @copyWordLoop_eq (src.dropWhile isSpace) [] dst (dst.length - 1) (Nat.sub_one_lt_of_lt hpos)
    have hword : ((src.dropWhile isSpace).takeWhile isWordByte).take (dst.length - 1) = copyWord src dst.length := rfl
    simp only [Nat.sub_add_cancel hpos, hword, List.nil_append, List.length_nil, Nat.zero_add] at hloop
    generalize hw : copyWord src dst.length = word at hloop ⊢
    have hle : word.length + 1 ≤ dst.length := by
      rw [← hw, hcopy]
      have htake := List.length_take_le (dst.length - 1) (firstWord src)
      omega
    have hrest : dst.drop word.length ≠ [] := by
      refine List.ne_nil_of_length_pos ?_
      rw [List.length_drop]
      omega
    rw [hloop]
    refine ⟨word ++ 0 :: (dst.drop word.length).tail, ?_, ?_, fun _ => ?_⟩
    · change (storeByte _ _ 0 >>= _) = _
      rw [storeByte_append hrest]
      rfl
    · rw [List.length_append, List.length_cons, List.length_tail, List.length_drop]
      omega
    · have hplain : ∀ c ∈ word, decide (c ≠ 0) = true := by
        intro c hc
        rw [← hw, hcopy] at hc
        have hbyte := List.mem_takeWhile_imp (List.mem_of_mem_take hc)
        simp only [isWordByte, Bool.and_eq_true] at hbyte
        exact hbyte.1.1
      rw [List.takeWhile_append_of_pos hplain, List.takeWhile_cons_of_neg (by decide), List.append_nil]

/-! ### Two ways to remove a device -/

/-- What is left when the device is removed: the other devices in their places, and its memory freed. -/
structure Removes (k : Kernel w) (iface : HweIface) (d : Dev w) (k' : Kernel w) : Prop where
  devList : (k'.ifaces iface).devList = (k.ifaces iface).devList.filter fun d' => d'.index ≠ d.index
  devIndexes : (k'.ifaces iface).devIndexes = Bitmap.clearBit d.index (k.ifaces iface).devIndexes
  others : ∀ iface', iface' ≠ iface → k'.ifaces iface' = k.ifaces iface'
  sems : k'.sems = k.sems
  freed : (k'.heap.freed : Multiset ℕ) = d.blocks + ↑k.heap.freed

theorem unlock_lock (hsem : k.sems iface ≠ 0) :
    unlockIfaceDevs iface (k.setSem iface (k.sems iface - 1)) = k := by
  have hsems : Function.update (Function.update k.sems iface (k.sems iface - 1)) iface
      (Function.update k.sems iface (k.sems iface - 1) iface + 1) = k.sems := by
    rw [Function.update_idem, Function.update_self, Nat.sub_add_cancel (Nat.one_le_iff_ne_zero.mpr hsem),
      Function.update_eq_self]
  unfold unlockIfaceDevs Kernel.setSem
  rw [hsems]

/-- A word that was cut is longer than a name, so that only the name itself is copied as the name. -/
theorem copyWord_eq_devName_iff {buf : List UInt8} {i : Nat} (hi : i < hweMaxDevices) :
    copyWord buf 16 = devName iface i ↔ firstWord buf = devName iface i := by
  have hshort : (devName iface i).length ≤ 6 := length_devName_le hi
  change (firstWord buf).take 15 = _ ↔ _
  constructor
  · intro heq
    rw [← heq, List.length_take] at hshort
    rwa [List.take_of_length_le (by omega)] at heq
  · intro heq
    rw [heq, List.take_of_length_le (by omega)]

theorem findDevice_copyWord (h : StoreInv k) {buf : List UInt8} :
    findDevice iface (copyWord buf 16) k = some d ↔
      d ∈ (k.ifaces iface).devList ∧ firstWord buf = devName iface d.index := by
  have hlt : ∀ d' ∈ (k.ifaces iface).devList, d'.index < hweMaxDevices :=
    fun d' hd' => (h.indexes iface).lt (List.mem_map_of_mem hd')
  constructor
  · intro hfind
    have hd := List.mem_of_find?_eq_some hfind
    have hname : d.name = copyWord buf 16 := by simpa using List.find?_some hfind
    rw [(h.published d (Kernel.mem_devs_of_mem hd)).name, h.iface iface d hd] at hname
    exact ⟨hd, (copyWord_eq_devName_iff (hlt d hd)).mp hname.symm⟩
  · rintro ⟨hd, hword⟩
    rw [(copyWord_eq_devName_iff (hlt d hd)).mpr hword]
    exact h.findDevice_eq hd

theorem Changed.removes (h : StoreInv k) (hd : d ∈ (k.ifaces iface).devList) (hc : Changed (.removeDev d) k k')
    (hfreed : (k'.heap.freed : Multiset ℕ) = d.blocks + ↑k.heap.freed) : Removes k iface d k' := by
  have hiface : d.iface = iface := h.iface iface d hd
  have hself : k'.ifaces iface = ((Change.removeDev d).apply k).ifaces iface := congrFun hc.ifaces iface
  simp only [Change.apply, Kernel.setIface, hiface, Function.update_self] at hself
  refine ⟨?_, ?_, fun iface' hne => ?_, hc.sems, hfreed⟩
  · rw [hself]
    refine List.filter_congr fun d' hd' => decide_eq_decide.mpr (not_congr ⟨fun haddr => ?_, fun hindex => ?_⟩)
    · rw [h.devAddr d' (Kernel.mem_devs_of_mem hd') d (Kernel.mem_devs_of_mem hd) haddr]
    · rw [List.inj_on_of_nodup_map (h.indexes iface).nodup hd' hd hindex]
  · rw [hself]
  · rw [hc.ifaces]
    simp only [Change.apply, Kernel.setIface, hiface, Function.update_of_ne hne]

/-- A device that is named is removed as it is by its index. -/
theorem uninstall_eq_delete (h : StoreInv k) (hsem : k.sems iface ≠ 0) {buf : List UInt8}
    (hd : d ∈ (k.ifaces iface).devList) (hword : firstWord buf = devName iface d.index) :
    ∃ k', ifaceUninstallStore iface buf k = .ok (toInt buf.length, k') ∧
      hweDeleteDevice iface d.index k = .ok (0, k') ∧ Removes k iface d k' := by
  obtain ⟨k₁, hshut, hremove⟩ := shutdownDev_changed (h.setSem iface (k.sems iface - 1))
    (Kernel.mem_devs_of_mem hd)
  have hiface : d.iface = iface := h.iface iface d hd
  have hname : copyWord buf 16 = devName iface d.index :=
    (copyWord_eq_devName_iff ((h.indexes iface).lt (List.mem_map_of_mem hd))).mpr hword
  have hlen : (copyWord buf 16).length ≠ 0 := by
    rw [hname]
    cases iface <;> simp [devName, ifaceToStr, bytes]
  have hbuf : buf.length ≠ 0 := by
    intro hzero
    rw [List.length_eq_zero_iff.mp hzero] at hlen
    exact hlen rfl
  have hbyName : findDevice iface (copyWord buf 16) (k.setSem iface (k.sems iface - 1)) = some d :=
    (findDevice_copyWord h).mpr ⟨hd, hword⟩
  have hbyIndex : findDeviceByIndex iface d.index (k.setSem iface (k.sems iface - 1)) = some d := by
    rw [findDeviceByIndex_congr rfl, ← hiface]
    exact h.findDeviceByIndex_eq (Kernel.mem_devs_of_mem hd)
  refine ⟨unlockIfaceDevs iface k₁, ?_, ?_, (hremove.unlock hsem).removes h hd (shutdownDev_heap hshut).2⟩
  · unfold ifaceUninstallStore
    rw [if_neg hbuf, strToIface_ifaceToStr]
    dsimp only
    rw [if_neg hlen]
    refine withLock_eq_ok.mpr ⟨hsem, k₁, ?_, rfl⟩
    rw [hbyName]
    exact Except.bind_of_eq_ok hshut _
  · refine withLock_eq_ok.mpr ⟨hsem, k₁, ?_, rfl⟩
    rw [hbyIndex]
    exact Except.bind_of_eq_ok hshut _

/-- A word that names no device changes nothing. -/
theorem uninstall_missing (h : StoreInv k) (hsem : k.sems iface ≠ 0) {buf : List UInt8}
    (hmissing : ∀ d ∈ (k.ifaces iface).devList, firstWord buf ≠ devName iface d.index) :
    ifaceUninstallStore iface buf k = .ok (-einval, k) := by
  have hnone : findDevice iface (copyWord buf 16) (k.setSem iface (k.sems iface - 1)) = none := by
    refine Option.eq_none_iff_forall_not_mem.mpr fun d hfind => ?_
    obtain ⟨hd, hword⟩ := (findDevice_copyWord (h.setSem iface _)).mp hfind
    exact hmissing d hd hword
  unfold ifaceUninstallStore
  split
  · rfl
  · rw [strToIface_ifaceToStr]
    dsimp only
    split
    · rfl
    · refine withLock_eq_ok.mpr ⟨hsem, _, ?_, (unlock_lock hsem).symm⟩
      rw [hnone]
      rfl

/-- **Uninstalling by name is deleting by index**, whatever is written, and `copy_word` stays inside the 16
bytes of `dev_name`. The number returned tells of it as long as the bytes written can be counted in an `int`. -/
theorem uninstall_by_name (hreach : SysReachable HZ k) (iface : HweIface) (buf : List UInt8) :
    ∃ ret k', ifaceUninstallStore iface buf k = .ok (ret, k') ∧
      (buf.length ≤ intMax → (0 ≤ ret ↔ ∃ d ∈ (k.ifaces iface).devList, firstWord buf = devName iface d.index)) ∧
      (∀ d ∈ (k.ifaces iface).devList, firstWord buf = devName iface d.index →
        ret = toInt buf.length ∧ hweDeleteDevice iface d.index k = .ok (0, k') ∧ Removes k iface d k') ∧
      ((∀ d ∈ (k.ifaces iface).devList, firstWord buf ≠ devName iface d.index) → ret = -einval ∧ k' = k) ∧
      (15 < (firstWord buf).length → ∀ d ∈ (k.ifaces iface).devList, firstWord buf ≠ devName iface d.index) ∧
      ∀ dst : List UInt8, dst.length = 16 →
        ∃ dst', copyWordInto buf dst 16 = some (dst', (copyWord buf 16).length) ∧ dst'.length = 16 ∧
          ((copyWord buf 16).length ≠ 0 → dst'.takeWhile (· ≠ 0) = copyWord buf 16) := by
  obtain ⟨hinv, hsems⟩ := hreach.inv
  have hsem : k.sems iface ≠ 0 := by
    rw [hsems iface]
    decide
  have hmemory : ∀ dst : List UInt8, dst.length = 16 →
      ∃ dst', copyWordInto buf dst 16 = some (dst', (copyWord buf 16).length) ∧ dst'.length = 16 ∧
        ((copyWord buf 16).length ≠ 0 → dst'.takeWhile (· ≠ 0) = copyWord buf 16) := by
    intro dst hdst
    have hpos : 0 < dst.length := by omega
    simpa only [hdst] using copyWordInto_eq buf hpos
  have hlong : 15 < (firstWord buf).length → ∀ d ∈ (k.ifaces iface).devList, firstWord buf ≠ devName iface d.index := by
    intro hlen d hd hword
    have hshort : (devName iface d.index).length ≤ 6 :=
      length_devName_le ((hinv.indexes iface).lt (List.mem_map_of_mem hd))
    rw [← hword] at hshort
    omega
  by_cases hnamed : ∃ d ∈ (k.ifaces iface).devList, firstWord buf = devName iface d.index
  · obtain ⟨d, hd, hword⟩ := hnamed
    obtain ⟨k', hrun, hdelete, hremoves⟩ := uninstall_eq_delete hinv hsem hd hword
    refine ⟨toInt buf.length, k', hrun, fun hcount => iff_of_true (toInt_nonneg hcount) ⟨d, hd, hword⟩,
      fun d' hd' hword' => ?_, fun hmissing => absurd hword (hmissing d hd), hlong, hmemory⟩
    have hindex : d'.index = d.index := devName_injective (hword'.symm.trans hword)
    rw [List.inj_on_of_nodup_map (hinv.indexes iface).nodup hd' hd hindex]
    exact ⟨rfl, hdelete, hremoves⟩
  · have hmissing : ∀ d ∈ (k.ifaces iface).devList, firstWord buf ≠ devName iface d.index :=
      fun d hd hword => hnamed ⟨d, hd, hword⟩
    exact ⟨-einval, k, uninstall_missing hinv hsem hmissing, fun _ => iff_of_false (by decide) hnamed,
      fun d hd hword => absurd hword (hmissing d hd), fun _ => ⟨rfl, rfl⟩, hlong, hmemory⟩

/-- A word that ends at a null, whatever comes behind it. -/
theorem firstWord_of_null {word rest : List UInt8} (hne : word ≠ [])
    (hword : ∀ c ∈ word, isSpace c = false ∧ isWordByte c = true) : firstWord (word ++ 0 :: rest) = word := by
  have hdrop : (word ++ 0 :: rest).dropWhile isSpace = word ++ 0 :: rest := by
    obtain ⟨c, cs, rfl⟩ := List.exists_cons_of_ne_nil hne
    exact List.dropWhile_cons_of_neg (by simp [(hword c List.mem_cons_self).1])
  have hnull : ¬isWordByte 0 = true := by decide
  rw [firstWord, hdrop, List.takeWhile_append_of_pos fun c hc => (hword c hc).2, List.takeWhile_cons_of_neg hnull,
    List.append_nil]

/-- A device is removed, and the caller is told that it failed: the bytes written are too many for the `int`
that counts them. -/
theorem long_uninstall_denied : ∃ (k k' : Kernel 64) (buf : List UInt8) (ret : Int), SysReachable 250 k ∧
    ifaceUninstallStore .i2c buf k = .ok (ret, k') ∧ ret < 0 ∧
      ∃ d ∈ (k.ifaces .i2c).devList, firstWord buf = devName .i2c d.index ∧ Removes k .i2c d k' := by
  obtain ⟨k, hops, _⟩ := sampleOps_run
  have hlisted : (execAll 250 sampleOps (Kernel.loaded 64)).toOption.map (fun k =>
      (k.ifaces .i2c).devList.map (·.index)) = some [0] := by
    decide +kernel
  rw [hops] at hlisted
  have hindexes : (k.ifaces .i2c).devList.map (·.index) = [0] := Option.some.inj hlisted
  obtain ⟨d, hd, hindex⟩ := List.mem_map.mp (hindexes ▸ List.mem_singleton_self 0)
  let buf : List UInt8 := bytes "i2c0" ++ 0 :: List.replicate (2 ^ 31) 0
  have hword : firstWord buf = devName .i2c d.index := by
    have hplain : ((bytes "i2c0").all fun c => !isSpace c && isWordByte c) = true := by decide
    rw [hindex]
    refine firstWord_of_null (by decide) fun c hc => ?_
    simpa using List.all_eq_true.mp hplain c hc
  have hlen : buf.length = 2 ^ 31 + 5 := by
    have hnulls : ∀ n, (bytes "i2c0" ++ 0 :: List.replicate n 0).length = n + 5 := by
      intro n
      have hname : (bytes "i2c0").length = 4 := by decide
      rw [List.length_append, List.length_cons, List.length_replicate, hname]
      omega
    exact hnulls (2 ^ 31)
  have hreach : SysReachable 250 k := (Reachable.of_execAll hops).sys
  have hsem : k.sems .i2c ≠ 0 := by
    rw [hreach.inv.2]
    decide
  obtain ⟨k', hrun, _, hremoves⟩ := uninstall_eq_delete hreach.inv.1 hsem hd hword
  refine ⟨k, k', buf, _, hreach, hrun, ?_, d, hd, hword, hremoves⟩
  rw [hlen]
  decide

/-- The device of `sampleOps` is removed by its name after blanks and before more text. -/
theorem uninstall_by_name_applies : ∃ (k k' : Kernel 64) (ret : Int), SysReachable 250 k ∧ 0 ≤ ret ∧
    ifaceUninstallStore .i2c (bytes "  i2c0\nmore") k = .ok (ret, k') ∧ hweDeleteDevice .i2c 0 k = .ok (0, k') := by
  obtain ⟨k, hops, _⟩ := sampleOps_run
  have hlisted : (execAll 250 sampleOps (Kernel.loaded 64)).toOption.map (fun k =>
      (k.ifaces .i2c).devList.map (·.index)) = some [0] := by
    decide +kernel
  rw [hops] at hlisted
  have hindexes : (k.ifaces .i2c).devList.map (·.index) = [0] := Option.some.inj hlisted
  have hzero : 0 ∈ (k.ifaces .i2c).devList.map (·.index) := hindexes ▸ List.mem_singleton_self 0
  obtain ⟨d, hd, hindex⟩ := List.mem_map.mp hzero
  have hword : firstWord (bytes "  i2c0\nmore") = devName .i2c d.index := by
    rw [hindex]
    decide
  obtain ⟨ret, k', hrun, hsucceeds, hdelete, _⟩ :=
    uninstall_by_name (Reachable.of_execAll hops).sys .i2c (bytes "  i2c0\nmore")
  refine ⟨k, k', ret, (Reachable.of_execAll hops).sys, (hsucceeds (by decide)).mpr ⟨d, hd, hword⟩, hrun, ?_⟩
  have hremoved := (hdelete d hd hword).2.1
  rwa [hindex] at hremoved

end Hwemu
