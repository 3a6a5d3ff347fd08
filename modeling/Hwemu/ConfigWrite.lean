import Hwemu.ConfigStore

/-!
# Writing a configuration

A configuration whose devices and pairs are numbered without gaps is visited in the order of the
numbers, whatever the order of its dictionaries. Written in this order, the numbers are the ones that
the module gives out.
-/

namespace Hwemu

variable {w : Nat} {k k' : Kernel w} {HZ : Nat} {iface : HweIface}

/-! ### Configurations without gaps -/

/-- The texts of the pairs of each device of each interface, in order. -/
abbrev Plan := HweIface → List (List Str)

/-- The devices and the pairs of the configuration are numbered from 0, as the plan has them. -/
structure Config.Numbered (config : Config) (plan : Plan) : Prop where
  absent : ∀ iface, config.get? iface = none → plan iface = []
  names : ∀ iface devs, config.get? iface = some devs →
    devs.keys.Perm ((List.range (plan iface).length).map (devNameStr iface))
  nums : ∀ iface devs i texts, config.get? iface = some devs → (plan iface)[i]? = some texts →
    ∃ dev, devs.get? (devNameStr iface i) = some dev ∧
      (dev.keys.filterMap DevKey.num?).Perm ((List.range texts.length).map fun j : Nat => (j : Int)) ∧
      ∀ (j : Nat) text, texts[j]? = some text → dev.get? (.num j) = some text

def Plan.texts (plan : Plan) (iface : HweIface) (i : Nat) : List Str := (plan iface)[i]?.getD []

def Plan.text (plan : Plan) (iface : HweIface) (i j : Nat) : Str := (plan.texts iface i)[j]?.getD []

/-! ### Numbers without gaps -/

theorem mem_filterMap_num {keys : List DevKey} {m : Int} :
    m ∈ keys.filterMap DevKey.num? ↔ DevKey.num m ∈ keys := by
  rw [List.mem_filterMap]
  constructor
  · rintro ⟨key, hkey, hnum⟩
    cases key with
    | num n =>
        obtain rfl : n = m := Option.some.inj hnum
        exact hkey
    | name s => simp [DevKey.num?] at hnum
  · intro hkey
    exact ⟨.num m, hkey, rfl⟩

theorem nodup_filterMap_num {keys : List DevKey} (h : keys.Nodup) : (keys.filterMap DevKey.num?).Nodup := by
  refine h.filterMap ?_
  intro a b m ha hb
  cases a with
  | name s => simp [DevKey.num?] at ha
  | num m₁ =>
      cases b with
      | name s => simp [DevKey.num?] at hb
      | num m₂ =>
          simp only [DevKey.num?, Option.mem_def, Option.some.injEq] at ha hb
          rw [ha, hb]

/-- Numbers without gaps are the numbers below their count. -/
theorem perm_range_nums {dev : DevDict} {n : Nat} (h : ∀ m, .num m ∈ dev.keys ↔ 0 ≤ m ∧ m < (n : Int)) :
    (dev.keys.filterMap DevKey.num?).Perm ((List.range n).map fun j : Nat => (j : Int)) := by
  refine (List.perm_ext_iff_of_nodup (nodup_filterMap_num dev.nodup_keys) ?_).mpr ?_
  · exact List.Nodup.map (fun _ _ heq => Int.ofNat.inj heq) List.nodup_range
  · intro m
    rw [mem_filterMap_num, h m, List.mem_map]
    constructor
    · rintro ⟨hpos, hlt⟩
      exact ⟨m.toNat, List.mem_range.mpr (by omega), Int.toNat_of_nonneg hpos⟩
    · rintro ⟨j, hj, rfl⟩
      have hlt := List.mem_range.mp hj
      omega

/-! ### Visiting in order -/

theorem devNumber_devNameStr (py : Python) (iface : HweIface) {i : Nat} (hi : i < hweMaxDevices) :
    devNumber py iface (devNameStr iface i) = .ok (i : Int) := by
  have hlen := length_decimal_devIndex hi
  rw [devNumber, devNameStr, List.drop_left' rfl, pyInt_natStr py (hlen.trans (by decide))]

theorem not_startsWith_devNameStr (iface : HweIface) (i : Nat) :
    startsWith ['_'] (devNameStr iface i) = false := by
  cases iface <;> rfl

theorem insertionSort_range {l : List Int} {n : Nat} (h : l.Perm ((List.range n).map fun j : Nat => (j : Int))) :
    l.insertionSort (fun a b => a ≤ b) = (List.range n).map fun j : Nat => (j : Int) := by
  refine List.Perm.eq_of_pairwise' (List.pairwise_insertionSort _ _) ?_
    ((List.perm_insertionSort _ l).trans h)
  rw [List.pairwise_map]
  refine List.Pairwise.imp ?_ List.pairwise_lt_range
  intro i j hij
  exact Int.ofNat_le.mpr (Nat.le_of_lt hij)

section

variable {σ : Type} {onDev : HweIface → Str → σ → Except PyError σ}
  {onPair : HweIface → Str → Int → Str → σ → Except PyError σ} {config : Config} {plan : Plan}

def visitDev (onDev : HweIface → Str → σ → Except PyError σ)
    (onPair : HweIface → Str → Int → Str → σ → Except PyError σ) (plan : Plan) (iface : HweIface)
    (s : σ) (i : Nat) : Except PyError σ := do
  let s ← onDev iface (devNameStr iface i) s
  (List.range (plan.texts iface i).length).foldlM
    (fun s (j : Nat) => onPair iface (devNameStr iface i) (j : Int) (plan.text iface i j) s) s

/-- The devices of an interface are visited in the order of their numbers. -/
theorem traverseDevs_eq (py : Python) (h : Config.Numbered config plan) (hmax : (plan iface).length ≤ hweMaxDevices)
    {devs : Dict Str DevDict} (hget : config.get? iface = some devs) (s : σ) :
    traverseDevs py onDev onPair iface devs s =
      (List.range (plan iface).length).foldlM (visitDev onDev onPair plan iface) s := by
  have hsorted : sortedByKey (devNumber py iface) devs.keys =
      .ok ((List.range (plan iface).length).map (devNameStr iface)) := by
    refine sortedByKey_range ?_ (h.names iface devs hget)
    exact fun i hi => devNumber_devNameStr py iface (lt_of_lt_of_le hi hmax)
  unfold traverseDevs
  rw [hsorted, Except.ok_bind, List.foldlM_map]
  refine Except.foldlM_congr ?_ s
  intro i hi s
  have hlt := List.mem_range.mp hi
  have htexts : (plan iface)[i]? = some (plan.texts iface i) := by
    rw [Plan.texts, List.getElem?_eq_getElem hlt]
    rfl
  obtain ⟨dev, hdev, hnums, hpairs⟩ := h.nums iface devs i _ hget htexts
  rw [not_startsWith_devNameStr, if_neg Bool.false_ne_true, visitDev]
  congr 1
  funext s
  rw [hdev]
  dsimp only
  rw [insertionSort_range hnums, List.foldlM_map]
  refine Except.foldlM_congr ?_ s
  intro j hj s
  have hjlt := List.mem_range.mp hj
  rw [hpairs j (plan.text iface i j)]
  rw [Plan.text, List.getElem?_eq_getElem hjlt]
  rfl

/-- **The devices and pairs are visited in the order of their numbers.** -/
theorem traverseConfig_eq (py : Python) (h : Config.Numbered config plan)
    (hmax : ∀ iface, (plan iface).length ≤ hweMaxDevices) (s : σ) :
    traverseConfig py onDev onPair config s =
      config.keys.foldlM (fun s iface =>
        (List.range (plan iface).length).foldlM (visitDev onDev onPair plan iface) s) s := by
  change _ = (config.items.map Prod.fst).foldlM _ s
  unfold traverseConfig
  rw [List.foldlM_map]
  refine Except.foldlM_congr ?_ s
  rintro ⟨iface, devs⟩ hitem s
  exact traverseDevs_eq py h (hmax iface) (Dict.get?_eq_some_iff.mpr hitem) s

end

/-! ### Writing one file -/

theorem pages_of_le {data : List UInt8} (hne : data ≠ []) (hlen : data.length ≤ 4096) :
    pages data = [data] := by
  rw [pages, if_neg hne, List.take_of_length_le hlen, List.drop_eq_nil_of_le hlen, pages, if_pos rfl]

/-- A text of one page is written at once. -/
theorem writeFile_of_le {store : List UInt8 → Kernel w → Except Fault (Int × Kernel w)} {data : Str} {ret : Int}
    (hne : utf8 data ≠ []) (hlen : (utf8 data).length ≤ 4096) (hstore : store (utf8 data) k = .ok (ret, k')) :
    writeFile store data k = if ret < 0 then .error (.osError (-ret)) else .ok k' := by
  rw [writeFile, pages_of_le hne hlen, List.foldlM_cons, hstore]
  by_cases hneg : ret < 0
  · simp only [if_pos hneg]
    rfl
  · simp only [if_neg hneg]
    rfl

section

variable {c : Contents} {mem : Nat → Pair w} {i : Nat} {texts : List (List UInt8)} {text : Str}

theorem writeDev_ok (mem : Nat → Pair w) (h : k.Holds HZ c) (hroom : (c iface).length < hweMaxDevices) :
    ∃ k', writeDev (.succeeds mem) iface k = .ok k' ∧ k'.Holds HZ (c.addDev iface) := by
  have hne : utf8 ['1'] ≠ [] := by decide
  have hlen : (utf8 ['1']).length ≤ 4096 := by decide
  obtain ⟨k', hadd, hholds⟩ := h.ifaceAddStore hroom (List.length_pos_iff.mpr hne).ne'
  have hret : ¬toInt (utf8 ['1']).length < 0 := not_lt.mpr (toInt_nonneg (hlen.trans (by decide)))
  refine ⟨k', ?_, hholds⟩
  rw [writeDev, writeFile_of_le hne hlen hadd, if_neg hret]

/-- A text of one page is accepted exactly when the device accepts it. -/
theorem writePair_of_le (mem : Nat → Pair w) (h : k.Holds HZ c) (htexts : (c iface)[i]? = some texts) (hne : utf8 text ≠ [])
    (hlen : (utf8 text).length ≤ 4096) :
    ((∃ k', writePair HZ (.succeeds mem) iface (devNameStr iface i) text k = .ok k') ↔
        Accepts w HZ texts (utf8 text)) ∧
      ∀ k', writePair HZ (.succeeds mem) iface (devNameStr iface i) text k = .ok k' →
        k'.Holds HZ (c.addPair iface i (utf8 text)) := by
  obtain ⟨hi, _⟩ := List.getElem?_eq_some_iff.mp htexts
  obtain ⟨d, hd, rfl, hfind⟩ := h.findDevice hi
  have hmax : (utf8 text).length ≤ intMax := hlen.trans (by decide)
  have hmem : ((SysfsEnv.succeeds mem).addPair k).kmalloc = some (mem k.heap.next) := rfl
  obtain ⟨ret, k₁, hrun, haccepts, hholds⟩ := h.devAddStore hd htexts hmax hmem rfl
  have hwrite : writePair HZ (.succeeds mem) iface (devNameStr iface d.index) text k =
      if ret < 0 then .error (.osError (-ret)) else .ok k₁ := by
    rw [writePair, utf8_devNameStr, hfind]
    exact writeFile_of_le hne hlen hrun
  rw [hwrite, ← haccepts]
  by_cases hneg : ret < 0
  · simp only [if_pos hneg]
    refine ⟨iff_of_false (by simp) (by omega), by simp⟩
  · simp only [if_neg hneg]
    refine ⟨iff_of_true ⟨k₁, rfl⟩ (by omega), ?_⟩
    intro k' hk'
    rw [← Except.ok.inj hk']
    exact hholds (by omega)

/-- A text with one equals sign is refused when it takes more than a page: the piece after the one with
the equals sign stands for no pair. -/
theorem writePair_length_le (h : k.Holds HZ c) (htexts : (c iface)[i]? = some texts)
    (hone : (utf8 text).count 61 ≤ 1)
    (hrun : writePair HZ (.succeeds mem) iface (devNameStr iface i) text k = .ok k') :
    (utf8 text).length ≤ 4096 := by
  by_contra hlong
  obtain ⟨hi, _⟩ := List.getElem?_eq_some_iff.mp htexts
  obtain ⟨d, hd, rfl, hfind⟩ := h.findDevice hi
  rw [writePair, utf8_devNameStr, hfind] at hrun
  dsimp only at hrun
  rw [writeFile] at hrun
  generalize utf8 text = data at *
  have hdata : data ≠ [] := fun hnil => hlong (by simp [hnil])
  have hrest : data.drop 4096 ≠ [] := fun hnil => hlong (List.drop_eq_nil_iff.mp hnil)
  rw [pages, if_neg hdata, pages, if_neg hrest, List.foldlM_cons, Except.bind_eq_ok_iff] at hrun
  obtain ⟨k₁, hfirst, hrun⟩ := hrun
  rw [List.foldlM_cons, Except.bind_eq_ok_iff] at hrun
  obtain ⟨k₂, hsecond, _⟩ := hrun
  have hpage : ∀ l : List UInt8, (l.take 4096).length ≤ intMax := fun l =>
    (List.length_take_le _ _).trans (by decide)
  have hmem : ((SysfsEnv.succeeds mem).addPair k).kmalloc = some (mem k.heap.next) := rfl
  obtain ⟨ret, k₁', hstore, haccepts, hholds⟩ := h.devAddStore hd htexts (hpage data) hmem rfl
  rw [hstore] at hfirst
  dsimp only at hfirst
  split at hfirst
  · simp at hfirst
  · rename_i hpos
    obtain rfl := Except.ok.inj hfirst
    obtain ⟨q, hq, _⟩ := haccepts.mp (by omega)
    have hnot : 61 ∉ (data.drop 4096).take 4096 := by
      intro hmem
      have hcount : (data.take 4096).count 61 + (data.drop 4096).count 61 ≤ 1 := by
        rwa [← List.count_append, List.take_append_drop]
      have hleft := List.count_pos_iff.mpr (mem_of_textPair hq)
      have hright := List.count_pos_iff.mpr (List.mem_of_mem_take hmem)
      omega
    have hnone : textPair w HZ ((data.drop 4096).take 4096) = none := by
      cases hpair : textPair w HZ ((data.drop 4096).take 4096) with
      | none => rfl
      | some q' => exact absurd (mem_of_textPair hpair) hnot
    cases hagain : devAddStore HZ d.addr ((data.drop 4096).take 4096) ((SysfsEnv.succeeds mem).addPair k₁') k₁' with
    | error f =>
        rw [hagain] at hsecond
        simp at hsecond
    | ok r =>
        obtain ⟨ret', k₃⟩ := r
        rw [hagain] at hsecond
        dsimp only at hsecond
        rw [if_pos (devAddStore_refused (hholds (by omega)).inv (hpage _) hnone hagain)] at hsecond
        simp at hsecond

end

/-! ### Writing a configuration without gaps -/

def Plan.contents (plan : Plan) : Contents := fun iface => (plan iface).map fun texts => texts.map utf8

/-- Each text of the device is accepted after the ones before it. -/
def TextsAccepted (w HZ : Nat) (texts : List Str) : Prop :=
  ∀ (j : Nat) text, texts[j]? = some text →
    (utf8 text).length ≤ 4096 ∧ Accepts w HZ ((texts.take j).map utf8) (utf8 text)

section

variable {c : Contents} {mem : Nat → Pair w} {plan : Plan} {i : Nat} {texts : List Str}

/-- The contents while a device is being written: the devices before it, and some of its pairs. -/
def Contents.partly (c : Contents) (plan : Plan) (iface : HweIface) (i : Nat) (texts : List Str) : Contents :=
  Function.update c iface ((plan.contents iface).take i ++ [texts.map utf8])

theorem modify_concat {α : Type} (l : List α) (a : α) (f : α → α) :
    (l ++ [a]).modify l.length f = l ++ [f a] := by
  induction l with
  | nil => rfl
  | cons b l ih => rw [List.cons_append, List.length_cons, List.modify_succ_cons, ih, List.cons_append]

theorem Plan.length_take (plan : Plan) (hi : (plan iface)[i]? = some texts) :
    ((plan.contents iface).take i).length = i := by
  obtain ⟨hlt, _⟩ := List.getElem?_eq_some_iff.mp hi
  rw [List.length_take, Plan.contents, List.length_map, Nat.min_eq_left (Nat.le_of_lt hlt)]

theorem Contents.partly_get (c : Contents) (hi : (plan iface)[i]? = some texts) (written : List Str) :
    (c.partly plan iface i written iface)[i]? = some (written.map utf8) := by
  have hlen := plan.length_take hi
  rw [Contents.partly, Function.update_self, List.getElem?_append_right hlen.le, hlen, Nat.sub_self]
  rfl

theorem Contents.partly_addPair (c : Contents) (hi : (plan iface)[i]? = some texts) (written : List Str)
    (text : Str) : (c.partly plan iface i written).addPair iface i (utf8 text) =
      c.partly plan iface i (written ++ [text]) := by
  have hmodify := modify_concat ((plan.contents iface).take i) (written.map utf8) fun l => l ++ [utf8 text]
  rw [plan.length_take hi] at hmodify
  rw [Contents.addPair, Contents.partly, Function.update_self, Function.update_idem, hmodify,
    Contents.partly, List.map_append, List.map_singleton]

theorem Contents.partly_all (c : Contents) (hi : (plan iface)[i]? = some texts) :
    c.partly plan iface i texts = Function.update c iface ((plan.contents iface).take (i + 1)) := by
  have hget : (plan.contents iface)[i]? = some (texts.map utf8) := by
    rw [Plan.contents, List.getElem?_map, hi]
    rfl
  rw [Contents.partly, List.take_add_one, hget, Option.toList_some]

/-- The body of the loop over the devices of an interface. -/
def writePlanDev (HZ : Nat) (mem : Nat → Pair w) (plan : Plan) (iface : HweIface) (k : Kernel w) (i : Nat) :
    Except PyError (Kernel w) :=
  visitDev (fun iface _ k => writeDev (.succeeds mem) iface k)
    (fun iface devName _ pair k => writePair HZ (.succeeds mem) iface devName pair k) plan iface k i

theorem writePlanDev_eq (hi : (plan iface)[i]? = some texts) : writePlanDev HZ mem plan iface k i =
    writeDev (.succeeds mem) iface k >>= fun k => (List.range texts.length).foldlM (fun k j =>
      writePair HZ (.succeeds mem) iface (devNameStr iface i) (texts[j]?.getD []) k) k := by
  have htexts : plan.texts iface i = texts := by
    rw [Plan.texts, hi]
    rfl
  simp only [writePlanDev, visitDev, Plan.text, htexts]

theorem Accepts.ne_nil {texts : List (List UInt8)} {text : List UInt8} (h : Accepts w HZ texts text) :
    text ≠ [] := by
  obtain ⟨q, hq, _⟩ := h
  exact List.ne_nil_of_mem (mem_of_textPair hq)

/-- A new device of the interface, before any pair of it is written. -/
theorem writeDev_partly (mem : Nat → Pair w) (h : k.Holds HZ (Function.update c iface ((plan.contents iface).take i)))
    (hi : (plan iface)[i]? = some texts) (hmax : (plan iface).length ≤ hweMaxDevices) :
    ∃ k', writeDev (.succeeds mem) iface k = .ok k' ∧ k'.Holds HZ (c.partly plan iface i []) := by
  have hroom : (Function.update c iface ((plan.contents iface).take i) iface).length < hweMaxDevices := by
    obtain ⟨hlt, _⟩ := List.getElem?_eq_some_iff.mp hi
    rw [Function.update_self, plan.length_take hi]
    omega
  obtain ⟨k', hwrite, hholds⟩ := writeDev_ok mem h hroom
  refine ⟨k', hwrite, ?_⟩
  rwa [Contents.addDev, Function.update_self, Function.update_idem] at hholds

theorem writePlanDev_ok (mem : Nat → Pair w) (h : k.Holds HZ (Function.update c iface ((plan.contents iface).take i)))
    (hi : (plan iface)[i]? = some texts) (hmax : (plan iface).length ≤ hweMaxDevices)
    (haccepted : TextsAccepted w HZ texts) :
    ∃ k', writePlanDev HZ mem plan iface k i = .ok k' ∧
      k'.Holds HZ (Function.update c iface ((plan.contents iface).take (i + 1))) := by
  obtain ⟨k₁, hdev, hholds⟩ := writeDev_partly mem h hi hmax
  have hloop := Except.foldlM_range_ok (n := texts.length) (s := k₁)
    (I := fun j (k : Kernel w) => k.Holds HZ (c.partly plan iface i (texts.take j)))
    (f := fun k j => writePair HZ (.succeeds mem) iface (devNameStr iface i) (texts[j]?.getD []) k)
    (by
      intro j hj k hk
      have htext : texts[j]? = some texts[j] := List.getElem?_eq_getElem hj
      obtain ⟨hlen, hacc⟩ := haccepted j _ htext
      have hwrite := writePair_of_le mem hk (c.partly_get hi _) hacc.ne_nil hlen
      obtain ⟨k', hk'⟩ := hwrite.1.mpr hacc
      refine ⟨k', by rw [htext]; exact hk', ?_⟩
      have hadded := hwrite.2 k' hk'
      rwa [c.partly_addPair hi, List.take_concat_get' texts j hj] at hadded)
    hholds
  obtain ⟨k', hrun, hk'⟩ := hloop
  rw [List.take_length, c.partly_all hi] at hk'
  refine ⟨k', ?_, hk'⟩
  rw [writePlanDev_eq hi, hdev, Except.ok_bind]
  exact hrun

/-- The texts that were written without an exception were all accepted. -/
theorem writePlanDev_inv (h : k.Holds HZ (Function.update c iface ((plan.contents iface).take i)))
    (hi : (plan iface)[i]? = some texts) (hmax : (plan iface).length ≤ hweMaxDevices)
    (hone : ∀ text ∈ texts, utf8 text ≠ [] ∧ (utf8 text).count 61 ≤ 1)
    (hrun : writePlanDev HZ mem plan iface k i = .ok k') :
    TextsAccepted w HZ texts ∧
      k'.Holds HZ (Function.update c iface ((plan.contents iface).take (i + 1))) := by
  obtain ⟨k₁, hdev, hholds⟩ := writeDev_partly mem h hi hmax
  rw [writePlanDev_eq hi, hdev, Except.ok_bind] at hrun
  have hloop := Except.foldlM_range_inv
    (I := fun j (k : Kernel w) => k.Holds HZ (c.partly plan iface i (texts.take j)) ∧
      ∀ j' < j, ∀ text, texts[j']? = some text →
        (utf8 text).length ≤ 4096 ∧ Accepts w HZ ((texts.take j').map utf8) (utf8 text))
    (by
      rintro j hj k k' ⟨hk, hbefore⟩ hwrite
      have htext : texts[j]? = some texts[j] := List.getElem?_eq_getElem hj
      rw [htext, Option.getD_some] at hwrite
      obtain ⟨hne, hcount⟩ := hone _ (List.getElem_mem hj)
      have hlen := writePair_length_le hk (c.partly_get hi _) hcount hwrite
      have hpair := writePair_of_le mem hk (c.partly_get hi _) hne hlen
      have hadded := hpair.2 k' hwrite
      rw [c.partly_addPair hi, List.take_concat_get' texts j hj] at hadded
      refine ⟨hadded, ?_⟩
      intro j' hj' text hget
      rcases Nat.lt_succ_iff_lt_or_eq.mp hj' with hlt | rfl
      · exact hbefore j' hlt text hget
      · obtain rfl := Option.some.inj (htext.symm.trans hget)
        exact ⟨hlen, hpair.1.mp ⟨k', hwrite⟩⟩)
    hrun ⟨hholds, fun j' hj' => absurd hj' (Nat.not_lt_zero _)⟩
  obtain ⟨hk', hall⟩ := hloop
  rw [List.take_length, c.partly_all hi] at hk'
  refine ⟨?_, hk'⟩
  intro j text hget
  obtain ⟨hlt, _⟩ := List.getElem?_eq_some_iff.mp hget
  exact hall j hlt text hget

/-- The loop over the devices of an interface. -/
def writePlanIface (HZ : Nat) (mem : Nat → Pair w) (plan : Plan) (k : Kernel w) (iface : HweIface) :
    Except PyError (Kernel w) :=
  (List.range (plan iface).length).foldlM (writePlanDev HZ mem plan iface) k

theorem holds_take_zero (h : k.Holds HZ c) (hempty : c iface = []) :
    k.Holds HZ (Function.update c iface ((plan.contents iface).take 0)) := by
  rwa [List.take_zero, ← hempty, Function.update_eq_self]

theorem take_contents (plan : Plan) (iface : HweIface) :
    (plan.contents iface).take (plan iface).length = plan.contents iface := by
  rw [List.take_of_length_le]
  rw [Plan.contents, List.length_map]

theorem writePlanIface_ok (mem : Nat → Pair w) (h : k.Holds HZ c) (hempty : c iface = [])
    (hmax : (plan iface).length ≤ hweMaxDevices)
    (haccepted : ∀ texts ∈ plan iface, TextsAccepted w HZ texts) :
    ∃ k', writePlanIface HZ mem plan k iface = .ok k' ∧
      k'.Holds HZ (Function.update c iface (plan.contents iface)) := by
  rw [← take_contents plan iface]
  refine Except.foldlM_range_ok
    (I := fun i (k : Kernel w) => k.Holds HZ (Function.update c iface ((plan.contents iface).take i)))
    ?_ (holds_take_zero h hempty)
  intro i hi k hk
  exact writePlanDev_ok mem hk (List.getElem?_eq_getElem hi) hmax (haccepted _ (List.getElem_mem hi))

theorem writePlanIface_inv (h : k.Holds HZ c) (hempty : c iface = [])
    (hmax : (plan iface).length ≤ hweMaxDevices)
    (hone : ∀ texts ∈ plan iface, ∀ text ∈ texts, utf8 text ≠ [] ∧ (utf8 text).count 61 ≤ 1)
    (hrun : writePlanIface HZ mem plan k iface = .ok k') :
    (∀ texts ∈ plan iface, TextsAccepted w HZ texts) ∧
      k'.Holds HZ (Function.update c iface (plan.contents iface)) := by
  have hloop := Except.foldlM_range_inv
    (I := fun i (k : Kernel w) => k.Holds HZ (Function.update c iface ((plan.contents iface).take i)) ∧
      ∀ i' < i, ∀ texts, (plan iface)[i']? = some texts → TextsAccepted w HZ texts)
    (by
      rintro i hi k k' ⟨hk, hbefore⟩ hwrite
      have hget : (plan iface)[i]? = some (plan iface)[i] := List.getElem?_eq_getElem hi
      obtain ⟨haccepted, hk'⟩ := writePlanDev_inv hk hget hmax (hone _ (List.getElem_mem hi)) hwrite
      refine ⟨hk', ?_⟩
      intro i' hi' texts htexts
      rcases Nat.lt_succ_iff_lt_or_eq.mp hi' with hlt | rfl
      · exact hbefore i' hlt texts htexts
      · obtain rfl := Option.some.inj (hget.symm.trans htexts)
        exact haccepted)
    hrun ⟨holds_take_zero h hempty, fun i' hi' => absurd hi' (Nat.not_lt_zero _)⟩
  obtain ⟨hk', hall⟩ := hloop
  rw [take_contents] at hk'
  refine ⟨?_, hk'⟩
  intro texts htexts
  obtain ⟨i, hi, rfl⟩ := List.getElem_of_mem htexts
  exact hall i hi _ (List.getElem?_eq_getElem hi)

/-- The contents after the interfaces of the list were written. -/
def Contents.after (c : Contents) (plan : Plan) (ifaces : List HweIface) : Contents := fun iface =>
  if iface ∈ ifaces then plan.contents iface else c iface

theorem Contents.after_cons (c : Contents) (plan : Plan) {iface : HweIface} {ifaces : List HweIface}
    (hnot : iface ∉ ifaces) :
    Contents.after (Function.update c iface (plan.contents iface)) plan ifaces =
      c.after plan (iface :: ifaces) := by
  funext iface'
  by_cases heq : iface' = iface
  · subst heq
    rw [after, after, if_neg hnot, if_pos List.mem_cons_self, Function.update_self]
  · simp only [after, List.mem_cons, heq, false_or, Function.update_of_ne heq]

theorem Contents.update_empty {ifaces : List HweIface} (hnot : iface ∉ ifaces)
    (hempty : ∀ iface' ∈ ifaces, c iface' = []) (devs : List (List (List UInt8))) :
    ∀ iface' ∈ ifaces, Function.update c iface devs iface' = [] := by
  intro iface' hmem
  have hne : iface' ≠ iface := fun heq => hnot (heq ▸ hmem)
  rw [Function.update_of_ne hne]
  exact hempty iface' hmem

theorem writePlan_ok (mem : Nat → Pair w) {ifaces : List HweIface} (hnodup : ifaces.Nodup)
    (h : k.Holds HZ c)
    (hempty : ∀ iface ∈ ifaces, c iface = []) (hmax : ∀ iface, (plan iface).length ≤ hweMaxDevices)
    (haccepted : ∀ iface, ∀ texts ∈ plan iface, TextsAccepted w HZ texts) :
    ∃ k', ifaces.foldlM (writePlanIface HZ mem plan) k = .ok k' ∧ k'.Holds HZ (c.after plan ifaces) := by
  induction ifaces generalizing k c with
  | nil => exact ⟨k, rfl, h⟩
  | cons iface ifaces ih =>
      obtain ⟨hnot, hrest⟩ := List.nodup_cons.mp hnodup
      rw [List.forall_mem_cons] at hempty
      obtain ⟨k₁, hfirst, hk₁⟩ := writePlanIface_ok mem h hempty.1 (hmax iface) (haccepted iface)
      obtain ⟨k', hrun, hk'⟩ := ih hrest hk₁ (Contents.update_empty hnot hempty.2 _)
      rw [Contents.after_cons c plan hnot] at hk'
      exact ⟨k', by rw [List.foldlM_cons, hfirst, Except.ok_bind, hrun], hk'⟩

theorem writePlan_inv {ifaces : List HweIface} (hnodup : ifaces.Nodup) (h : k.Holds HZ c)
    (hempty : ∀ iface ∈ ifaces, c iface = []) (hmax : ∀ iface, (plan iface).length ≤ hweMaxDevices)
    (hone : ∀ iface, ∀ texts ∈ plan iface, ∀ text ∈ texts, utf8 text ≠ [] ∧ (utf8 text).count 61 ≤ 1)
    (hrun : ifaces.foldlM (writePlanIface HZ mem plan) k = .ok k') :
    (∀ iface ∈ ifaces, ∀ texts ∈ plan iface, TextsAccepted w HZ texts) ∧
      k'.Holds HZ (c.after plan ifaces) := by
  induction ifaces generalizing k c with
  | nil =>
      obtain rfl : k = k' := Except.ok.inj hrun
      exact ⟨by simp, h⟩
  | cons iface ifaces ih =>
      obtain ⟨hnot, hrest⟩ := List.nodup_cons.mp hnodup
      rw [List.forall_mem_cons] at hempty
      rw [List.foldlM_cons, Except.bind_eq_ok_iff] at hrun
      obtain ⟨k₁, hfirst, hrun⟩ := hrun
      obtain ⟨haccepted, hk₁⟩ := writePlanIface_inv h hempty.1 (hmax iface) (hone iface) hfirst
      obtain ⟨hothers, hk'⟩ := ih hrest hk₁ (Contents.update_empty hnot hempty.2 _) hrun
      rw [Contents.after_cons c plan hnot] at hk'
      exact ⟨List.forall_mem_cons.mpr ⟨haccepted, hothers⟩, hk'⟩

variable {py : Python} {config : Config}

theorem writeConfig_eq (h : Config.Numbered config plan)
    (hmax : ∀ iface, (plan iface).length ≤ hweMaxDevices) :
    writeConfig py HZ (.succeeds mem) config k = config.keys.foldlM (writePlanIface HZ mem plan) k :=
  traverseConfig_eq py h hmax k

theorem Config.Numbered.after (h : Config.Numbered config plan) :
    Contents.after (fun _ => []) plan config.keys = plan.contents := by
  funext iface
  rw [Contents.after]
  split
  · rfl
  · rename_i hnot
    rw [Plan.contents, h.absent iface (Dict.get?_eq_none_iff.mpr hnot)]
    rfl

/-- **A configuration without gaps is written** when each of its texts is accepted in its turn, and the
numbers that the module gives out are its own. -/
theorem writeConfig_ok (py : Python) (mem : Nat → Pair w) (h : Config.Numbered config plan)
    (hmax : ∀ iface, (plan iface).length ≤ hweMaxDevices)
    (haccepted : ∀ iface, ∀ texts ∈ plan iface, TextsAccepted w HZ texts)
    (hk : k.Holds HZ fun _ => []) :
    ∃ k', writeConfig py HZ (.succeeds mem) config k = .ok k' ∧ k'.Holds HZ plan.contents := by
  obtain ⟨k', hrun, hk'⟩ := writePlan_ok mem config.nodup hk (fun _ _ => rfl) hmax haccepted
  exact ⟨k', (writeConfig_eq h hmax).trans hrun, h.after ▸ hk'⟩

/-- **What was written without an exception** was accepted, each text in its turn. -/
theorem writeConfig_inv (h : Config.Numbered config plan)
    (hmax : ∀ iface, (plan iface).length ≤ hweMaxDevices)
    (hone : ∀ iface, ∀ texts ∈ plan iface, ∀ text ∈ texts, utf8 text ≠ [] ∧ (utf8 text).count 61 ≤ 1)
    (hk : k.Holds HZ fun _ => []) (hrun : writeConfig py HZ (.succeeds mem) config k = .ok k') :
    (∀ iface, ∀ texts ∈ plan iface, TextsAccepted w HZ texts) ∧ k'.Holds HZ plan.contents := by
  rw [writeConfig_eq h hmax] at hrun
  obtain ⟨haccepted, hk'⟩ := writePlan_inv config.nodup hk (fun _ _ => rfl) hmax hone hrun
  refine ⟨?_, h.after ▸ hk'⟩
  intro iface texts htexts
  by_cases hmem : iface ∈ config.keys
  · exact haccepted iface hmem texts htexts
  · rw [h.absent iface (Dict.get?_eq_none_iff.mpr hmem)] at htexts
    exact absurd htexts List.not_mem_nil

end

end Hwemu
