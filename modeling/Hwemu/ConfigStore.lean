import Hwemu.ConfigSysfs
import Hwemu.PairMap
import Hwemu.Accounts

/-!
# What the module holds after a configuration was written

The contents of the store, as far as a configuration decides them: how many devices an interface has,
and the texts that the pairs of each of them were written as. One lemma for each kind of write says
when it is accepted and what the module holds afterwards.
-/

namespace Hwemu

variable {w : Nat} {k k' : Kernel w} {d : Dev w} {HZ : Nat} {iface : HweIface}

/-! ### The pair that a text stands for -/

def textPair (w HZ : Nat) (text : List UInt8) : Option (Pair w) :=
  match strToPair HZ text (Pair.zeroed w) with
  | .ok (.ok q) => some q
  | _ => none

/-- The text that a pair is read back as. -/
def canonicalText (w HZ : Nat) (text : List UInt8) : Option Str :=
  (textPair w HZ text).map fun q => asciiStr (pairToStr q)

/-- Whether a text is accepted, and as which pair, does not depend on the record parsed into. -/
theorem textPair_cases (w HZ : Nat) {text : List UInt8} (hlen : text.length ≤ intMax) :
    (∃ q, textPair w HZ text = some q ∧ q.Valid ∧
      ∀ mem : Pair w, strToPair HZ text mem = .ok (.ok (mem.filled HZ q))) ∨
    (textPair w HZ text = none ∧ ∃ err, ∀ mem : Pair w, strToPair HZ text mem = .ok (.error err)) := by
  rcases strToPair_total (w := w) HZ hlen with ⟨q, hvalid, hall⟩ | ⟨err, hall⟩
  · refine Or.inl ⟨(Pair.zeroed w).filled HZ q, ?_, ?_, ?_⟩
    · rw [textPair, hall]
    · exact (strToPair_ok (hall (Pair.zeroed w))).1
    · intro mem
      rw [hall mem]
      congr 2
      unfold Pair.filled
      cases q.asyncRx <;> simp
  · refine Or.inr ⟨?_, err, hall⟩
    rw [textPair, hall]

theorem mem_of_textPair {text : List UInt8} {q : Pair w} (h : textPair w HZ text = some q) : 61 ∈ text := by
  unfold textPair at h
  split at h
  · rename_i p hparse
    unfold strToPair at hparse
    split at hparse
    · simp at hparse
    · obtain ⟨pos, hpos, hparse⟩ := Except.bind_eq_ok_iff.mp hparse
      obtain ⟨r, hr, hmem⟩ := strnchr_total (s := text) 61 le_rfl
      obtain rfl := Except.ok.inj (hr.symm.trans hpos)
      cases r with
      | none => simp at hparse
      | some e => exact (hmem e rfl).2.2
  · simp at h

/-! ### The text that is read -/

theorem pairToStr_ascii {p : Pair w} (hp : p.Valid) : ∀ c ∈ pairToStr p, 32 ≤ c ∧ c < 128 := by
  have hdigit : ∀ c, isXDigit c = true → 32 ≤ c ∧ c < 128 := fun c =>
    forall_byte (P := fun c => isXDigit c = true → 32 ≤ c ∧ c < 128) (by decide +kernel) c
  intro c hc
  rw [pairToStr_eq hp] at hc
  rcases List.mem_append.mp hc with hkey | hc
  · exact forall_mem_keyText hdigit (List.all_iff_forall_prop.mp (by decide)) hp c hkey
  · rcases List.mem_cons.mp hc with rfl | hresp
    · decide
    · exact hdigit c (isXDigit_of_mem_bin2hex hresp)

/-! ### Names -/

theorem mem_ifacesOrder (iface : HweIface) : iface ∈ ifacesOrder := by
  cases iface <;> decide

/-- The script's name of a device. -/
def devNameStr (iface : HweIface) (index : Nat) : Str := ifaceName iface ++ natStr index

theorem devName_injective {iface : HweIface} {i j : Nat} (h : devName iface i = devName iface j) : i = j :=
  decimal_injective (List.append_cancel_left h)

theorem length_decimal_devIndex {i : Nat} (hi : i < hweMaxDevices) : (decimal i).length ≤ 3 := by
  refine length_decimal_le (by decide) ?_
  unfold hweMaxDevices at hi
  omega

theorem length_devName_le {iface : HweIface} {i : Nat} (hi : i < hweMaxDevices) : (devName iface i).length ≤ 6 := by
  have hiface : (ifaceToStr iface).length = 3 := by cases iface <;> rfl
  have hdigits := length_decimal_devIndex hi
  rw [devName, List.length_append]
  omega

theorem ifaceToStr_ascii (iface : HweIface) : ∀ c ∈ ifaceToStr iface, c < 128 := by
  cases iface <;> exact List.all_iff_forall_prop.mp (by decide)

theorem devName_ascii (iface : HweIface) (index : Nat) : ∀ c ∈ devName iface index, c < 128 := by
  intro c hc
  rcases List.mem_append.mp hc with hiface | hdigit
  · exact ifaceToStr_ascii iface c hiface
  · exact ascii_of_isDigit (isDigit_of_mem_decimal hdigit)

theorem devNameStr_eq (iface : HweIface) (index : Nat) :
    devNameStr iface index = asciiStr (devName iface index) := by
  have hiface : ifaceName iface = asciiStr (ifaceToStr iface) := by cases iface <;> decide
  rw [devNameStr, hiface, natStr, devName, asciiStr, asciiStr, asciiStr, List.map_append]

theorem utf8_devNameStr (iface : HweIface) (index : Nat) :
    utf8 (devNameStr iface index) = devName iface index := by
  rw [devNameStr_eq, utf8_asciiStr (devName_ascii iface index)]

theorem decodeUtf8_devName (iface : HweIface) (index : Nat) :
    decodeUtf8 (devName iface index) = .ok (devNameStr iface index) := by
  rw [devNameStr_eq, decodeUtf8_ascii (devName_ascii iface index)]

theorem devNameStr_injective {iface : HweIface} {i j : Nat}
    (h : devNameStr iface i = devNameStr iface j) : i = j := by
  have hutf8 := congrArg utf8 h
  rw [utf8_devNameStr, utf8_devNameStr] at hutf8
  exact devName_injective hutf8

theorem decimal_ascii (n : Nat) : ∀ c ∈ decimal n, c < 128 := fun _ hc =>
  ascii_of_isDigit (isDigit_of_mem_decimal hc)

/-! ### Contents -/

/-- For each interface its devices, for each device the texts its pairs were written as. -/
abbrev Contents := HweIface → List (List (List UInt8))

namespace Contents

def addDev (iface : HweIface) (c : Contents) : Contents := Function.update c iface (c iface ++ [[]])

def addPair (iface : HweIface) (i : Nat) (text : List UInt8) (c : Contents) : Contents :=
  Function.update c iface ((c iface).modify i fun texts => texts ++ [text])

end Contents

/-- The pairs of the device are those of the texts, numbered from 0. -/
structure Dev.Holds (HZ : Nat) (texts : List (List UInt8)) (d : Dev w) : Prop where
  indexes : d.pairList.map (·.index) = List.range texts.length
  pairs : List.Forall₂ (fun text p => ∃ q, textPair w HZ text = some q ∧ q.Same p) texts d.pairList

/-- A device with the pairs of `texts` has room for the text, and its request is a new one. -/
def Accepts (w HZ : Nat) (texts : List (List UInt8)) (text : List UInt8) : Prop :=
  ∃ q, textPair w HZ text = some q ∧ texts.length < hweMaxPairs ∧
    (q.asyncRx = false → ∀ t ∈ texts, ∀ q', textPair w HZ t = some q' → q'.asyncRx = false →
      q'.req ≠ q.req)

structure Kernel.Holds (HZ : Nat) (c : Contents) (k : Kernel w) : Prop where
  inv : StoreInv k
  sems : ∀ iface, k.sems iface = 1
  indexes : ∀ iface, ((k.ifaces iface).devList.map (·.index)).Perm (List.range (c iface).length)
  devs : ∀ iface, ∀ d ∈ (k.ifaces iface).devList, ∃ texts, (c iface)[d.index]? = some texts ∧ d.Holds HZ texts

theorem Dev.Holds.unmatched_iff {texts : List (List UInt8)} (h : d.Holds HZ texts) (hok : d.Ok) {q : Pair w}
    (hq : q.Valid) : findPair d.pairList q.req q.req.length = none ↔
      (q.asyncRx = false → ∀ t ∈ texts, ∀ q', textPair w HZ t = some q' → q'.asyncRx = false →
        q'.req ≠ q.req) := by
  rw [findPair_eq_none_iff]
  constructor
  · intro hnone _ t ht q' hq' hsync
    obtain ⟨i, hi, rfl⟩ := List.getElem_of_mem ht
    have hi' : i < d.pairList.length := h.pairs.length_eq ▸ hi
    obtain ⟨q₀, hq₀, hsame⟩ := h.pairs.get hi hi'
    obtain rfl := Option.some.inj (hq'.symm.trans hq₀)
    have hreq : d.pairList[i].req = q'.req := hsame.req
    rw [← hreq]
    exact hnone _ (List.getElem_mem hi') (hsame.kind.trans hsync)
  · intro hfree p hp hsync heq
    obtain ⟨i, hi, rfl⟩ := List.getElem_of_mem hp
    have hi' : i < texts.length := h.pairs.length_eq ▸ hi
    obtain ⟨q', hq', hsame⟩ := h.pairs.get hi' hi
    cases hkind : q.asyncRx with
    | true =>
        -- a timer has no request, and every synchronous pair has one
        have hreq := ((hok.valid _ hp).sync hsync).1
        rw [heq, (hq.timer hkind).1] at hreq
        simp at hreq
    | false =>
        refine hfree hkind _ (List.getElem_mem hi') q' hq' (hsame.kind ▸ hsync) ?_
        rw [← hsame.req]
        exact heq

/-- A device is found by its name. -/
theorem StoreInv.findDevice_eq (h : StoreInv k) (hd : d ∈ (k.ifaces iface).devList) :
    findDevice iface (devName iface d.index) k = some d := by
  have hname : ∀ d' ∈ (k.ifaces iface).devList, d'.name = devName iface d'.index := by
    intro d' hd'
    rw [(h.published d' (Kernel.mem_devs_of_mem hd')).name, h.iface iface d' hd']
  unfold findDevice
  cases hfind : (k.ifaces iface).devList.find? fun d' => d'.name == devName iface d.index with
  | none =>
      have hne := List.find?_eq_none.mp hfind d hd
      rw [hname d hd, beq_self_eq_true] at hne
      exact absurd rfl hne
  | some d' =>
      have hd' := List.mem_of_find?_eq_some hfind
      have heq : d'.name = devName iface d.index := by simpa using List.find?_some hfind
      rw [hname d' hd'] at heq
      rw [List.inj_on_of_nodup_map (h.indexes iface).nodup hd' hd (devName_injective heq)]

/-! ### Adding a device -/

theorem newDev_succeeds (h : StoreInv k)
    (hroom : Bitmap.findFirstZeroBit (k.ifaces iface).devIndexes ≠ hweMaxDevices) :
    ∃ d k', newDev .succeeds iface k = .ok (some d, k') ∧ d.iface = iface ∧ Changed (.addDev d) k k' := by
  obtain ⟨r, k', hnew, ⟨rfl, _⟩ | ⟨d, rfl, hiface, hadd⟩⟩ := newDev_changed h .succeeds iface
  · exfalso
    unfold newDev findFreeDevIndex at hnew
    simp only [if_neg hroom] at hnew
    obtain ⟨hnone, _⟩ := Prod.mk.inj (Except.ok.inj hnew)
    exact Option.some_ne_none _ hnone
  · exact ⟨d, k', hnew, hiface, hadd⟩

namespace Kernel.Holds

variable {c : Contents}

theorem loaded (w HZ : Nat) : (Kernel.loaded w).Holds HZ fun _ => [] :=
  ⟨StoreInv.loaded, fun _ => rfl, fun _ => List.Perm.refl [], fun _ _ hd => absurd hd List.not_mem_nil⟩

theorem firstFree (h : k.Holds HZ c) (iface : HweIface) :
    Bitmap.findFirstZeroBit (k.ifaces iface).devIndexes = (c iface).length :=
  (h.inv.indexes iface).findFirstZeroBit_eq_of_perm_range (h.indexes iface)

theorem addDev (h : k.Holds HZ c) {d : Dev w} (hc : Changed (.addDev d) k k') :
    k'.Holds HZ (c.addDev d.iface) := by
  obtain ⟨hpairs, _, _, _, _, _, hindex⟩ := hc.allowed
  rw [h.firstFree] at hindex
  have hifaces : ∀ iface, (k'.ifaces iface).devList =
      if iface = d.iface then d :: (k.ifaces iface).devList else (k.ifaces iface).devList := by
    intro iface
    simp only [hc.ifaces, Change.apply, Kernel.setIface]
    by_cases heq : iface = d.iface
    · subst heq
      rw [Function.update_self, if_pos rfl]
    · rw [Function.update_of_ne heq, if_neg heq]
  refine ⟨h.inv.changed hc, fun iface => hc.sems ▸ h.sems iface, ?_, ?_⟩
  · intro iface
    rw [hifaces]
    by_cases heq : iface = d.iface
    · subst heq
      rw [if_pos rfl, Contents.addDev, Function.update_self, List.length_append, List.length_singleton,
        List.range_succ, List.map_cons, hindex]
      exact ((h.indexes d.iface).cons _).trans (List.perm_append_singleton _ _).symm
    · rw [if_neg heq, Contents.addDev, Function.update_of_ne heq]
      exact h.indexes iface
  · intro iface d' hd'
    rw [hifaces] at hd'
    by_cases heq : iface = d.iface
    · subst heq
      rw [if_pos rfl] at hd'
      rw [Contents.addDev, Function.update_self]
      rcases List.mem_cons.mp hd' with rfl | hold
      · refine ⟨[], by rw [hindex, List.getElem?_concat_length], ?_⟩
        exact ⟨by rw [hpairs]; rfl, by rw [hpairs]; exact .nil⟩
      · obtain ⟨texts, htexts, hholds⟩ := h.devs d.iface d' hold
        obtain ⟨hlt, _⟩ := List.getElem?_eq_some_iff.mp htexts
        exact ⟨texts, by rw [List.getElem?_append_left hlt, htexts], hholds⟩
    · rw [if_neg heq] at hd'
      rw [Contents.addDev, Function.update_of_ne heq]
      exact h.devs iface d' hd'

/-- A write to the file `add` of an interface is accepted as long as there is room. -/
theorem ifaceAddStore (h : k.Holds HZ c) (hroom : (c iface).length < hweMaxDevices) {buf : List UInt8}
    (hbuf : buf.length ≠ 0) : ∃ k', ifaceAddStore iface buf .succeeds k = .ok (toInt buf.length, k') ∧
      k'.Holds HZ (c.addDev iface) := by
  have hsem : k.sems iface ≠ 0 := by
    rw [h.sems]
    decide
  have hfree : Bitmap.findFirstZeroBit ((k.setSem iface (k.sems iface - 1)).ifaces iface).devIndexes ≠
      hweMaxDevices := by
    have hfirst := h.firstFree iface
    change Bitmap.findFirstZeroBit (k.ifaces iface).devIndexes ≠ hweMaxDevices
    omega
  obtain ⟨d, k₁, hnew, rfl, hadd⟩ := newDev_succeeds (h.inv.setSem iface (k.sems iface - 1)) hfree
  refine ⟨unlockIfaceDevs d.iface k₁, ?_, h.addDev (hadd.unlock hsem)⟩
  unfold Hwemu.ifaceAddStore
  rw [if_neg hbuf, strToIface_ifaceToStr]
  exact withLock_eq_ok.mpr ⟨hsem, k₁, Except.bind_of_eq_ok hnew _, rfl⟩

/-! ### Adding a pair -/

theorem findDevice (h : k.Holds HZ c) {i : Nat} (hi : i < (c iface).length) :
    ∃ d ∈ (k.ifaces iface).devList, d.index = i ∧ findDevice iface (devName iface i) k = some d := by
  have hmem := (h.indexes iface).mem_iff.mpr (List.mem_range.mpr hi)
  obtain ⟨d, hd, rfl⟩ := List.mem_map.mp hmem
  exact ⟨d, hd, rfl, h.inv.findDevice_eq hd⟩

theorem addPair (h : k.Holds HZ c) (hd : d ∈ (k.ifaces iface).devList) {texts : List (List UInt8)}
    (htexts : (c iface)[d.index]? = some texts) {text : List UInt8} {p q : Pair w}
    (hq : textPair w HZ text = some q) (hsame : q.Same p) (hindex : p.index = texts.length)
    (hc : Changed (.addPair d.addr p) k k') : k'.Holds HZ (c.addPair iface d.index text) := by
  have hdevs : ∀ iface', (k'.ifaces iface').devList =
      (k.ifaces iface').devList.map fun d' => if d'.addr = d.addr then d'.addPair p else d' := by
    intro iface'
    rw [hc.ifaces]
    rfl
  have haddr : ∀ iface', ∀ d' ∈ (k.ifaces iface').devList, d'.addr = d.addr → iface' = iface ∧ d' = d := by
    intro iface' d' hd' haddr
    have heq := h.inv.devAddr d' (Kernel.mem_devs_of_mem hd') d (Kernel.mem_devs_of_mem hd) haddr
    subst heq
    exact ⟨(h.inv.iface iface' _ hd').symm.trans (h.inv.iface iface _ hd), rfl⟩
  have hcount : ∀ iface', ((c.addPair iface d.index text) iface').length = (c iface').length := by
    intro iface'
    by_cases heq : iface' = iface
    · subst heq
      rw [Contents.addPair, Function.update_self, List.length_modify]
    · rw [Contents.addPair, Function.update_of_ne heq]
  refine ⟨h.inv.changed hc, fun iface => hc.sems ▸ h.sems iface, ?_, ?_⟩
  · intro iface'
    have hindexes : (k'.ifaces iface').devList.map (·.index) = (k.ifaces iface').devList.map (·.index) := by
      rw [hdevs, List.map_map]
      refine List.map_congr_left fun d' _ => ?_
      rw [Function.comp_apply]
      split
      · rfl
      · rfl
    rw [hindexes, hcount]
    exact h.indexes iface'
  · intro iface' d' hd'
    rw [hdevs] at hd'
    obtain ⟨d₀, hd₀, rfl⟩ := List.mem_map.mp hd'
    obtain ⟨texts₀, htexts₀, hholds⟩ := h.devs iface' d₀ hd₀
    by_cases heq : d₀.addr = d.addr
    · obtain ⟨rfl, rfl⟩ := haddr iface' d₀ hd₀ heq
      obtain rfl := Option.some.inj (htexts.symm.trans htexts₀)
      rw [if_pos heq]
      refine ⟨texts ++ [text], ?_, ?_, ?_⟩
      · rw [Contents.addPair, Function.update_self]
        change ((c iface').modify d₀.index fun texts => texts ++ [text])[d₀.index]? = _
        rw [List.getElem?_modify_eq, htexts]
        rfl
      · rw [Dev.addPair, List.map_append, hholds.indexes, List.map_singleton, hindex, List.length_append,
          List.length_singleton, List.range_succ]
      · exact List.rel_append hholds.pairs (.cons ⟨q, hq, hsame⟩ .nil)
    · rw [if_neg heq]
      refine ⟨texts₀, ?_, hholds⟩
      by_cases hiface : iface' = iface
      · subst hiface
        have hne : d.index ≠ d₀.index := by
          intro hindex
          exact heq (congrArg Dev.addr (List.inj_on_of_nodup_map (h.inv.indexes iface').nodup hd₀ hd hindex.symm))
        rw [Contents.addPair, Function.update_self, List.getElem?_modify_ne _ _ hne, htexts₀]
      · rw [Contents.addPair, Function.update_of_ne hiface, htexts₀]

/-- **A write to the file `add` of a device** is accepted when the text is, and it adds the pair. -/
theorem devAddStore (h : k.Holds HZ c) (hd : d ∈ (k.ifaces iface).devList) {texts : List (List UInt8)}
    (htexts : (c iface)[d.index]? = some texts) {text : List UInt8} (hlen : text.length ≤ intMax)
    {mem : Pair w} {env : AddPairEnv w} (hmem : env.kmalloc = some mem) (hcreate : env.sysfsCreateFile = none) :
    ∃ ret k', devAddStore HZ d.addr text env k = .ok (ret, k') ∧ (0 ≤ ret ↔ Accepts w HZ texts text) ∧
      (0 ≤ ret → k'.Holds HZ (c.addPair iface d.index text)) := by
  have hdev := Kernel.mem_devs_of_mem hd
  have hok := h.inv.ok d hdev
  have hholds : d.Holds HZ texts := by
    obtain ⟨texts', htexts', hholds⟩ := h.devs iface d hd
    rwa [Option.some.inj (htexts.symm.trans htexts')]
  have hfirst : Bitmap.findFirstZeroBit d.pairsIndexes = texts.length :=
    hok.indexes.findFirstZeroBit_eq_of_perm_range (by rw [hholds.indexes])
  obtain ⟨ret, k', hrun⟩ := @devAddStore_total w k d HZ h.inv h.sems hdev text hlen env
  refine ⟨ret, k', hrun, ?_⟩
  rcases textPair_cases w HZ hlen with ⟨q, hq, hvalid, hall⟩ | ⟨hnone, err, hall⟩
  · constructor
    · have hle := Bitmap.findFirstZeroBit_le d.pairsIndexes
      have hroom : Bitmap.findFirstZeroBit d.pairsIndexes ≠ hweMaxPairs ↔ texts.length < hweMaxPairs := by omega
      have hunmatched := hholds.unmatched_iff hok hvalid
      rw [devAddStore_nonneg_iff h.inv hdev hmem hcreate (hall _) hrun, hroom,
        (Pair.same_filled HZ _ q).req, hunmatched, Accepts]
      constructor
      · rintro ⟨hlt, hfree⟩
        exact ⟨q, hq, hlt, hfree⟩
      · rintro ⟨q', hq', hlt, hfree⟩
        obtain rfl := Option.some.inj (hq.symm.trans hq')
        exact ⟨hlt, hfree⟩
    · intro hret
      rcases devAddStore_cases h.inv hdev hrun with ⟨mem', q', _, hparse, _, hadd⟩ | ⟨hneg, _⟩
      · obtain rfl := Except.ok.inj (Except.ok.inj ((hall _).symm.trans hparse))
        have hsame := Pair.same_filled HZ { mem' with addr := k.heap.next } q
        refine h.addPair hd htexts hq ?_ hfirst hadd
        exact ⟨hsame.kind, hsame.req, hsame.resp, hsame.period⟩
      · omega
  · have hneg : ret < 0 := by
      rcases devAddStore_cases h.inv hdev hrun with ⟨_, _, _, hparse, _⟩ | ⟨hneg, _⟩
      · rw [hall] at hparse
        simp at hparse
      · exact hneg
    have hnot : ¬Accepts w HZ texts text := by
      rintro ⟨q, hq, _⟩
      rw [hnone] at hq
      simp at hq
    exact ⟨iff_of_false (by omega) hnot, fun hpos => absurd hpos (by omega)⟩

end Kernel.Holds

/-- Whatever the device, a text that stands for no pair is refused. -/
theorem devAddStore_refused (h : StoreInv k) {dev : Nat} {text : List UInt8} {env : AddPairEnv w} {ret : Int}
    (hlen : text.length ≤ intMax) (hnone : textPair w HZ text = none)
    (hrun : devAddStore HZ dev text env k = .ok (ret, k')) : ret < 0 := by
  have hderef := hrun
  unfold devAddStore at hderef
  obtain ⟨d, hderef, _⟩ := Except.bind_eq_ok_iff.mp hderef
  obtain ⟨hd, rfl⟩ := deref_eq_ok hderef
  rcases devAddStore_cases h hd hrun with ⟨_, _, _, hparse, _⟩ | ⟨hneg, _⟩
  · rcases textPair_cases w HZ hlen with ⟨q, hq, _⟩ | ⟨_, err, hall⟩
    · rw [hnone] at hq
      simp at hq
    · rw [hall] at hparse
      simp at hparse
  · exact hneg

end Hwemu
