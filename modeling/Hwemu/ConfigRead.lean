import Hwemu.ConfigWrite
import Hwemu.ReadBack

/-!
# Reading a configuration back and erasing it

Whatever the order in which the directories are listed, what is read is what the module holds, each
pair as its canonical text, and erasing leaves no device behind.
-/

namespace Hwemu

variable {w : Nat} {k k' : Kernel w} {HZ : Nat} {iface : HweIface} {c : Contents} {i j : Nat}
  {texts : List (List UInt8)} {text : List UInt8} {py : Python} {order : DirOrder}

/-! ### Listings -/

/-- A list that is, in another order, the image of `L` is the image of `L` in another order. -/
theorem perm_map_inv {α β : Type} {g : α → β} {l : List β} {L : List α} (h : l.Perm (L.map g)) :
    ∃ l' : List α, l = l'.map g ∧ l'.Perm L := by
  have himage : List.Forall₂ (fun b a => b = g a) (L.map g) L := by
    rw [List.forall₂_map_left_iff]
    exact List.forall₂_same.mpr fun _ _ => rfl
  obtain ⟨l', hrel, hperm⟩ := List.perm_comp_forall₂ h himage
  refine ⟨l', ?_, hperm⟩
  clear hperm h
  induction hrel with
  | nil => rfl
  | cons heq _ ih => rw [heq, ih, List.map_cons]

theorem mapM_decodeUtf8 {α : Type} {g : α → List UInt8} {name : α → Str} {l : List α}
    (h : ∀ a ∈ l, decodeUtf8 (g a) = .ok (name a)) : (l.map g).mapM decodeUtf8 = .ok (l.map name) := by
  induction l with
  | nil => rfl
  | cons a l ih =>
      rw [List.forall_mem_cons] at h
      rw [List.map_cons, List.mapM_cons, h.1, ih h.2]
      rfl

/-! ### Reading a pair -/

theorem unlockIfaceDevs_setSem (hsem : k.sems iface ≠ 0) :
    unlockIfaceDevs iface (k.setSem iface (k.sems iface - 1)) = k := by
  unfold unlockIfaceDevs Kernel.setSem
  simp only [Function.update_self, Function.update_idem]
  rw [Nat.sub_add_cancel (Nat.pos_of_ne_zero hsem), Function.update_eq_self]

namespace Kernel.Holds

/-- The device and its pair that the numbers stand for. -/
theorem pairAt (h : k.Holds HZ c) (hi : (c iface)[i]? = some texts) (hj : texts[j]? = some text) :
    ∃ d p q, Hwemu.findDevice iface (devName iface i) k = some d ∧ Hwemu.pairAt d (j : Int) = some p ∧
      textPair w HZ text = some q ∧ q.Same p ∧ p.Valid := by
  obtain ⟨hlt, _⟩ := List.getElem?_eq_some_iff.mp hi
  obtain ⟨hjlt, rfl⟩ := List.getElem?_eq_some_iff.mp hj
  obtain ⟨d, hd, rfl, hfind⟩ := h.findDevice hlt
  obtain ⟨texts', htexts', hholds⟩ := h.devs iface d hd
  obtain rfl := Option.some.inj (hi.symm.trans htexts')
  have hok := h.inv.ok d (Kernel.mem_devs_of_mem hd)
  have hplt : j < d.pairList.length := hholds.pairs.length_eq ▸ hjlt
  obtain ⟨q, hq, hsame⟩ := hholds.pairs.get hjlt hplt
  have hmem : d.pairList[j] ∈ d.pairList := List.getElem_mem hplt
  have hindex : d.pairList[j].index = j := by
    have hget : (d.pairList.map (·.index))[j]? = (List.range texts.length)[j]? := by rw [hholds.indexes]
    rw [List.getElem?_map, List.getElem?_eq_getElem hplt, List.getElem?_range hjlt] at hget
    exact Option.some.inj hget
  refine ⟨d, d.pairList[j], q, hfind, ?_, hq, hsame, hok.valid _ hmem⟩
  have hat := hok.pairAt_eq hmem
  rwa [hindex] at hat

/-- The text read from the file of a pair is the canonical one. -/
theorem readPairFile (hw : 32 ≤ w) (h : k.Holds HZ c) (hi : (c iface)[i]? = some texts)
    (hj : texts[j]? = some text) (hjmax : j < hweMaxPairs) :
    ∃ t, canonicalText w HZ text = some t ∧
      Hwemu.readPairFile iface (devNameStr iface i) (natStr j) k = .ok (t, k) := by
  obtain ⟨d, p, q, hfind, hat, hq, hsame, hvalid⟩ := h.pairAt hi hj
  have hsem : k.sems iface ≠ 0 := by
    rw [h.sems]
    decide
  have hidx : kstrtol w (decimal j) = some (j : Int) := by
    refine kstrtol_decimal w ?_
    calc j < 2 ^ 10 := hjmax.trans (by decide)
      _ ≤ 2 ^ (w - 1) := Nat.pow_le_pow_right (by decide) (by omega)
  have hne : pairToStr p ≠ [] := List.ne_nil_of_length_pos (length_pairToStr hvalid).1
  have hshow : pairShow (ifaceToStr iface) (devName iface i) (decimal j) k = .ok (pairToStr p, k) := by
    have hlocked : Hwemu.findDevice iface (devName iface i) (k.setSem iface (k.sems iface - 1)) = some d := hfind
    have hlisted : d.pairList.find? (fun pair => (pair.index : Int) == j) = some p := hat
    unfold pairShow withLock lockIfaceDevs
    rw [hidx, strToIface_ifaceToStr]
    simp only [if_neg hsem, Except.ok_bind, hlocked, hlisted, Except.pure_eq_ok, if_pos hne, ne_eq]
    rw [unlockIfaceDevs_setSem hsem]
  have hascii := pairToStr_ascii hvalid
  have hplain : ∀ x ∈ asciiStr (pairToStr p), x ≠ '\r' := by
    intro x hx heq
    obtain ⟨b, hb, rfl⟩ := List.mem_map.mp hx
    obtain ⟨hlow, hhigh⟩ := hascii b hb
    revert heq hlow hhigh
    exact forall_byte (P := fun b => Char.ofNat b.toNat = '\r' → 32 ≤ b → b < 128 → False)
      (by decide +kernel) b
  refine ⟨asciiStr (pairToStr p), ?_, ?_⟩
  · rw [canonicalText, hq, Option.map_some, hsame.pairToStr_eq]
  · have hnum : utf8 (natStr j) = decimal j := utf8_asciiStr (decimal_ascii j)
    rw [Hwemu.readPairFile, utf8_devNameStr, hnum, hshow]
    dsimp only
    rw [decodeUtf8_ascii fun b hb => (hascii b hb).2, Except.ok_bind, universalNewlines_eq_self hplain]
    rfl

/-! ### Reading a configuration -/

end Kernel.Holds

/-- What is read of the pairs of a device that were written as `texts`. -/
def readBack (w HZ : Nat) (texts : List (List UInt8)) : DevKey → Option Str
  | .num (Int.ofNat j) => texts[j]?.bind (canonicalText w HZ)
  | _ => none

namespace Kernel.Holds

theorem length_le (h : k.Holds HZ c) (hi : (c iface)[i]? = some texts) : texts.length ≤ hweMaxPairs := by
  obtain ⟨hlt, _⟩ := List.getElem?_eq_some_iff.mp hi
  obtain ⟨d, hd, rfl, _⟩ := h.findDevice hlt
  obtain ⟨texts', htexts', hholds⟩ := h.devs iface d hd
  obtain rfl := Option.some.inj (hi.symm.trans htexts')
  have hle := (h.inv.ok d (Kernel.mem_devs_of_mem hd)).indexes.length_le
  rwa [hholds.indexes, List.length_range] at hle

theorem pairFiles (order : DirOrder) (h : k.Holds HZ c) (hi : (c iface)[i]? = some texts) :
    ∃ js : List Nat, js.Perm (List.range texts.length) ∧
      pairFiles order iface (devNameStr iface i) k = .ok (js.map natStr) := by
  obtain ⟨hlt, _⟩ := List.getElem?_eq_some_iff.mp hi
  obtain ⟨d, hd, rfl, hfind⟩ := h.findDevice hlt
  obtain ⟨texts', htexts', hholds⟩ := h.devs iface d hd
  obtain rfl := Option.some.inj (hi.symm.trans htexts')
  have hnames : d.pairList.map (·.filename) = (List.range texts.length).map decimal := by
    rw [← hholds.indexes, List.map_map]
    exact List.map_congr_left (h.inv.ok d (Kernel.mem_devs_of_mem hd)).filename
  obtain ⟨js, hlist, hperm⟩ := perm_map_inv (order.perm ((List.range texts.length).map decimal))
  refine ⟨js, hperm, ?_⟩
  rw [Hwemu.pairFiles, utf8_devNameStr, hfind]
  dsimp only
  rw [hnames, hlist]
  exact mapM_decodeUtf8 fun j _ => decodeUtf8_ascii (decimal_ascii j)

theorem readPairs (py : Python) (order : DirOrder) (hw : 32 ≤ w) (h : k.Holds HZ c)
    (hi : (c iface)[i]? = some texts) :
    ∃ dev, readPairs py order iface (devNameStr iface i) k = .ok (dev, k) ∧
      ∀ key, dev.get? key = readBack w HZ texts key := by
  obtain ⟨js, hperm, hfiles⟩ := h.pairFiles order hi
  have hmem : ∀ j ∈ js, j < texts.length := fun j hj => List.mem_range.mp (hperm.mem_iff.mp hj)
  have hmax := h.length_le hi
  let val : Nat → Str := fun j => (texts[j]?.bind (canonicalText w HZ)).getD []
  have hval : ∀ j ∈ js, texts[j]?.bind (canonicalText w HZ) = some (val j) ∧
      Hwemu.readPairFile iface (devNameStr iface i) (natStr j) k = .ok (val j, k) := by
    intro j hj
    have hget := List.getElem?_eq_getElem (hmem j hj)
    obtain ⟨t, ht, hread⟩ := h.readPairFile hw hi hget (lt_of_lt_of_le (hmem j hj) hmax)
    have hbind : texts[j]?.bind (canonicalText w HZ) = some t := by rw [hget, Option.bind_some, ht]
    have hvalj : val j = t := by
      change (texts[j]?.bind (canonicalText w HZ)).getD [] = t
      rw [hbind, Option.getD_some]
    rw [hvalj]
    exact ⟨hbind, hread⟩
  have hrun : Hwemu.readPairs py order iface (devNameStr iface i) k =
      .ok (Dict.setAll (fun j : Nat => DevKey.num j) val js Dict.empty, k) := by
    rw [Hwemu.readPairs, hfiles, Except.ok_bind, List.foldlM_map]
    refine Dict.foldlM_set ?_ Dict.empty
    intro j hj dev
    have hlen : (decimal j).length ≤ 3 := by
      have hlt := lt_of_lt_of_le (hmem j hj) hmax
      unfold hweMaxPairs at hlt
      exact length_decimal_le (by decide) (by omega)
    dsimp only
    rw [(hval j hj).2, Except.ok_bind]
    dsimp only
    rw [pyInt_natStr py (hlen.trans (by decide))]
    rfl
  refine ⟨_, hrun, ?_⟩
  have hinj : ∀ a ∈ js, ∀ b ∈ js, DevKey.num (a : Int) = DevKey.num (b : Int) → a = b := by
    intro a _ b _ heq
    exact Int.ofNat.inj (DevKey.num.inj heq)
  intro key
  by_cases hkey : ∃ j ∈ js, DevKey.num (j : Int) = key
  · obtain ⟨j, hj, rfl⟩ := hkey
    exact (Dict.get?_setAll_of_mem hinj hj).trans (hval j hj).1.symm
  · push Not at hkey
    rw [Dict.get?_setAll_of_notMem hkey, Dict.get?_empty]
    cases key with
    | name s => rfl
    | num n =>
        cases n with
        | negSucc n => rfl
        | ofNat j =>
            have hout : texts.length ≤ j := by
              by_contra hlt
              exact hkey j (hperm.mem_iff.mpr (List.mem_range.mpr (by omega))) rfl
            rw [readBack, List.getElem?_eq_none hout]
            rfl

theorem devDirs (order : DirOrder) (h : k.Holds HZ c) (iface : HweIface) :
    ∃ is : List Nat, is.Perm (List.range (c iface).length) ∧
      devDirs order iface k = .ok (is.map (devNameStr iface)) := by
  have hnames : (k.ifaces iface).devList.map (·.name) =
      ((k.ifaces iface).devList.map (·.index)).map (devName iface) := by
    rw [List.map_map]
    refine List.map_congr_left fun d hd => ?_
    rw [(h.inv.published d (Kernel.mem_devs_of_mem hd)).name, h.inv.iface iface d hd]
    rfl
  have hperm := (order.perm ((k.ifaces iface).devList.map (·.name))).trans
    (hnames ▸ (h.indexes iface).map (devName iface))
  obtain ⟨is, hlist, his⟩ := perm_map_inv hperm
  refine ⟨is, his, ?_⟩
  rw [Hwemu.devDirs, hlist]
  exact mapM_decodeUtf8 fun i _ => decodeUtf8_devName iface i

theorem readIface (py : Python) (order : DirOrder) (hw : 32 ≤ w) (h : k.Holds HZ c) (iface : HweIface) :
    ∃ devs, readIface py order iface k = .ok (devs, k) ∧
      (∀ name, name ∈ devs.keys ↔ ∃ i < (c iface).length, devNameStr iface i = name) ∧
      ∀ i texts, (c iface)[i]? = some texts →
        ∃ dev, devs.get? (devNameStr iface i) = some dev ∧ ∀ key, dev.get? key = readBack w HZ texts key := by
  obtain ⟨is, hperm, hdirs⟩ := h.devDirs order iface
  have hmem : ∀ i, i ∈ is ↔ i < (c iface).length := fun i => hperm.mem_iff.trans List.mem_range
  have hdev : ∀ i, ∃ dev, i ∈ is → Hwemu.readPairs py order iface (devNameStr iface i) k = .ok (dev, k) ∧
      ∀ texts, (c iface)[i]? = some texts → ∀ key, dev.get? key = readBack w HZ texts key := by
    intro i
    by_cases hi : i ∈ is
    · obtain ⟨dev, hread, hget⟩ := h.readPairs py order hw (List.getElem?_eq_getElem ((hmem i).mp hi))
      refine ⟨dev, fun _ => ⟨hread, ?_⟩⟩
      intro texts htexts
      rw [List.getElem?_eq_getElem ((hmem i).mp hi)] at htexts
      rwa [← Option.some.inj htexts]
    · exact ⟨Dict.empty, fun hi' => absurd hi' hi⟩
  choose dev hdev using hdev
  have hrun : Hwemu.readIface py order iface k =
      .ok (Dict.setAll (devNameStr iface) dev is Dict.empty, k) := by
    rw [Hwemu.readIface, hdirs, Except.ok_bind, List.foldlM_map]
    refine Dict.foldlM_set ?_ Dict.empty
    intro i hi devs
    dsimp only
    rw [(hdev i hi).1]
    rfl
  have hinj : ∀ a ∈ is, ∀ b ∈ is, devNameStr iface a = devNameStr iface b → a = b := fun a _ b _ =>
    devNameStr_injective
  refine ⟨_, hrun, ?_, ?_⟩
  · intro name
    rw [← Dict.isSome_get?_iff]
    constructor
    · intro hsome
      by_contra hnone
      push Not at hnone
      rw [Dict.get?_setAll_of_notMem fun i hi => hnone i ((hmem i).mp hi)] at hsome
      simp at hsome
    · rintro ⟨i, hi, rfl⟩
      rw [Dict.get?_setAll_of_mem hinj ((hmem i).mpr hi)]
      rfl
  · intro i texts htexts
    obtain ⟨hi, _⟩ := List.getElem?_eq_some_iff.mp htexts
    have hmemi := (hmem i).mpr hi
    exact ⟨dev i, Dict.get?_setAll_of_mem hinj hmemi, (hdev i hmemi).2 texts htexts⟩

end Kernel.Holds

/-- What the configuration says of each interface is what the module holds. -/
def Config.Shows (w HZ : Nat) (config : Config) (c : Contents) : Prop :=
  ∀ iface, ∃ devs, config.get? iface = some devs ∧
    (∀ name, name ∈ devs.keys ↔ ∃ i < (c iface).length, devNameStr iface i = name) ∧
    ∀ i texts, (c iface)[i]? = some texts →
      ∃ dev, devs.get? (devNameStr iface i) = some dev ∧ ∀ key, dev.get? key = readBack w HZ texts key

/-- **What is read is what the module holds**, and reading changes nothing. -/
theorem readConfig_ok (py : Python) (order : DirOrder) (hw : 32 ≤ w) (h : k.Holds HZ c) :
    ∃ config, readConfig py order k = .ok (config, k) ∧ Config.Shows w HZ config c := by
  choose devs hrun hspec using h.readIface py order hw
  refine ⟨Dict.setAll id devs ifacesOrder Dict.empty, ?_, ?_⟩
  · refine Dict.foldlM_set ?_ Dict.empty
    intro iface _ config
    dsimp only
    rw [hrun iface]
    rfl
  · intro iface
    exact ⟨devs iface, Dict.get?_setAll_of_mem (fun _ _ _ _ heq => heq) (mem_ifacesOrder iface), hspec iface⟩

/-! ### Erasing a configuration -/

theorem copyWord_devName (iface : HweIface) {i : Nat} (hi : i < hweMaxDevices) :
    copyWord (devName iface i) 16 = devName iface i := by
  have hplain : ∀ x ∈ devName iface i, isSpace x = false ∧ x ≠ 0 ∧ isPrint x = true := by
    have hiface : ∀ x ∈ ifaceToStr iface, isSpace x = false ∧ x ≠ 0 ∧ isPrint x = true := by
      cases iface <;> exact List.all_iff_forall_prop.mp (by decide)
    have hdigit : ∀ x, isDigit x = true → isSpace x = false ∧ x ≠ 0 ∧ isPrint x = true := fun x =>
      forall_byte (P := fun x => isDigit x = true → isSpace x = false ∧ x ≠ 0 ∧ isPrint x = true)
        (by decide +kernel) x
    intro x hx
    rcases List.mem_append.mp hx with hmem | hmem
    · exact hiface x hmem
    · exact hdigit x (isDigit_of_mem_decimal hmem)
  have hlen : (devName iface i).length ≤ 15 := (length_devName_le hi).trans (by decide)
  have hdrop : (devName iface i).dropWhile isSpace = devName iface i := by
    rw [List.dropWhile_eq_self_iff]
    intro hpos
    simp [(hplain _ (List.getElem_mem hpos)).1]
  have htake : (devName iface i).takeWhile (fun x => x ≠ 0 && !isSpace x && isPrint x) = devName iface i := by
    rw [List.takeWhile_eq_self_iff]
    intro x hx
    obtain ⟨hspace, hzero, hprint⟩ := hplain x hx
    simp [hspace, hzero, hprint]
  rw [copyWord, hdrop, htake, List.take_of_length_le hlen]

theorem ifaceUninstallStore_ok {d : Dev w} (h : StoreInv k) (hsem : k.sems iface ≠ 0) {buf : List UInt8}
    (hword : (copyWord buf 16).length ≠ 0) (hfind : findDevice iface (copyWord buf 16) k = some d) :
    ∃ k', ifaceUninstallStore iface buf k = .ok (toInt buf.length, k') ∧ Changed (.removeDev d) k k' := by
  have hbuf : buf.length ≠ 0 := by
    intro hzero
    rw [List.length_eq_zero_iff.mp hzero] at hword
    exact hword rfl
  have hlocked : findDevice iface (copyWord buf 16) (k.setSem iface (k.sems iface - 1)) = some d := hfind
  obtain ⟨k₁, hshut, hremove⟩ := shutdownDev_changed (h.setSem iface (k.sems iface - 1))
    (findDevice_some hlocked)
  refine ⟨unlockIfaceDevs iface k₁, ?_, hremove.unlock hsem⟩
  unfold ifaceUninstallStore
  rw [if_neg hbuf, strToIface_ifaceToStr]
  dsimp only
  rw [if_neg hword]
  refine withLock_eq_ok.mpr ⟨hsem, k₁, ?_, rfl⟩
  rw [hlocked]
  exact Except.bind_of_eq_ok hshut _

/-- The devices of the interface are uninstalled one by one. -/
theorem uninstall_all {is : List Nat} (h : StoreInv k) (hsems : ∀ iface, k.sems iface = 1)
    (hperm : ((k.ifaces iface).devList.map (·.index)).Perm is) :
    ∃ k', (is.map (devNameStr iface)).foldlM
        (fun k devName => writeFile (ifaceUninstallStore iface) devName k) k = .ok k' ∧
      StoreInv k' ∧ (∀ iface, k'.sems iface = 1) ∧ (k'.ifaces iface).devList = [] ∧
      ∀ iface', iface' ≠ iface → k'.ifaces iface' = k.ifaces iface' := by
  induction is generalizing k with
  | nil =>
      have hnil : (k.ifaces iface).devList = [] := List.map_eq_nil_iff.mp hperm.eq_nil
      exact ⟨k, rfl, h, hsems, hnil, fun _ _ => rfl⟩
  | cons i is ih =>
      obtain ⟨d, hd, rfl⟩ := List.mem_map.mp (hperm.mem_iff.mpr List.mem_cons_self)
      have hi : d.index < hweMaxDevices := (h.indexes iface).lt (List.mem_map_of_mem hd)
      have hword := copyWord_devName iface hi
      have hlen : (devName iface d.index).length ≠ 0 := by
        cases iface <;> simp [devName, ifaceToStr, bytes]
      have hshort : (devName iface d.index).length ≤ 4096 := by
        rw [← hword, copyWord]
        exact (List.length_take_le _ _).trans (by decide)
      have hsem : k.sems iface ≠ 0 := by
        rw [hsems]
        decide
      obtain ⟨k₁, hrun, hc⟩ := ifaceUninstallStore_ok h hsem (hword.symm ▸ hlen)
        (hword.symm ▸ h.findDevice_eq hd)
      have hself : (k₁.ifaces iface).devList =
          (k.ifaces iface).devList.filter fun d' => d'.addr ≠ d.addr := by
        rw [hc.ifaces, ← h.iface iface d hd]
        simp only [Change.apply, Kernel.setIface, Function.update_self]
      have hothers : ∀ iface', iface' ≠ iface → k₁.ifaces iface' = k.ifaces iface' := by
        intro iface' hne
        rw [hc.ifaces]
        simp only [Change.apply, Kernel.setIface]
        rw [Function.update_of_ne]
        rwa [h.iface iface d hd]
      have haddrs : ((k.ifaces iface).devList.map (·.addr)).Nodup := by
        refine List.Nodup.map_on ?_ (List.Nodup.of_map _ (h.indexes iface).nodup)
        intro a ha b hb heq
        exact h.devAddr a (Kernel.mem_devs_of_mem ha) b (Kernel.mem_devs_of_mem hb) heq
      have hrest : ((k₁.ifaces iface).devList.map (·.index)).Perm is := by
        have hcons := (Keyed.perm_cons_filter_ne haddrs hd).map (·.index)
        rw [hself]
        exact (hcons.trans hperm).cons_inv
      obtain ⟨k', hloop, hinv, hsems', hnil, hkept⟩ := ih (h.changed hc) (fun j => hc.sems ▸ hsems j) hrest
      refine ⟨k', ?_, hinv, hsems', hnil, fun iface' hne => (hkept iface' hne).trans (hothers iface' hne)⟩
      have hutf8 := utf8_devNameStr iface d.index
      have hret : ¬toInt (devName iface d.index).length < 0 :=
        not_lt.mpr (toInt_nonneg (hshort.trans (by decide)))
      have hwrite : writeFile (ifaceUninstallStore iface) (devNameStr iface d.index) k = .ok k₁ := by
        rw [← hutf8] at hrun hret hlen hshort
        rw [writeFile_of_le (fun hnil => hlen (by rw [hnil]; rfl)) hshort hrun, if_neg hret]
      rw [List.map_cons, List.foldlM_cons, hwrite, Except.ok_bind]
      exact hloop

theorem Kernel.Holds.eraseIface (order : DirOrder) (h : k.Holds HZ c) (iface : HweIface) :
    ∃ k', eraseIface order k iface = .ok k' ∧ k'.Holds HZ (Function.update c iface []) := by
  obtain ⟨is, hperm, hdirs⟩ := h.devDirs order iface
  obtain ⟨k', hrun, hinv, hsems, hnil, hkept⟩ :=
    uninstall_all h.inv h.sems ((h.indexes iface).trans hperm.symm)
  refine ⟨k', ?_, hinv, hsems, ?_, ?_⟩
  · rw [Hwemu.eraseIface, hdirs, Except.ok_bind]
    exact hrun
  · intro iface'
    by_cases heq : iface' = iface
    · subst heq
      rw [hnil, Function.update_self]
      exact List.Perm.refl []
    · rw [hkept iface' heq, Function.update_of_ne heq]
      exact h.indexes iface'
  · intro iface' d hd
    by_cases heq : iface' = iface
    · subst heq
      rw [hnil] at hd
      exact absurd hd List.not_mem_nil
    · rw [hkept iface' heq] at hd
      rw [Function.update_of_ne heq]
      exact h.devs iface' d hd

/-- **Erasing leaves no device.** -/
theorem eraseConfig_ok (order : DirOrder) (h : k.Holds HZ c) :
    ∃ k', eraseConfig order k = .ok k' ∧ k'.Holds HZ fun _ => [] := by
  obtain ⟨k₁, hrun₁, hk₁⟩ := h.eraseIface order .i2c
  obtain ⟨k₂, hrun₂, hk₂⟩ := hk₁.eraseIface order .tty
  obtain ⟨k₃, hrun₃, hk₃⟩ := hk₂.eraseIface order .net
  obtain ⟨k₄, hrun₄, hk₄⟩ := hk₃.eraseIface order .spi
  refine ⟨k₄, ?_, ?_⟩
  · simp only [eraseConfig, ifacesOrder, List.foldlM_cons, hrun₁, hrun₂, hrun₃, hrun₄, Except.ok_bind]
    rfl
  · have hempty : Function.update (Function.update (Function.update (Function.update c .i2c []) .tty [])
        .net []) .spi [] = fun _ => [] := by
      funext iface
      cases iface <;> rfl
    rwa [hempty] at hk₄

end Hwemu
