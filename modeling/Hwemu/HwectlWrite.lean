import Hwemu.HwectlLoad
import Hwemu.IniFile

/-!
# Writing what was loaded

The utility checks the keys and values one by one, so that what it lets through differs from what the
module accepts in three ways only: it does not count the pairs of a section, it does not ask for ASCII
digits in the timers, and it does not limit the leading zeros of their numbers.
-/

namespace Hwemu

namespace Hwectl

variable {w : Nat} {HZ : Nat} {py : Python} {filename : Str} {ini : Ini} {options : Dict Str Str}

/-! ### The texts of a section -/

/-- The text that a key of a section is loaded as. -/
def TextOf (py : Python) (ini : Ini) (options : Dict Str Str) (k text : Str) : Prop :=
  ∃ v, ini.getItem py options k = .ok v ∧ KeyOk py k ∧ ValueOk v ∧ text = k ++ '=' :: convertQuoted v

theorem loadTexts_iff {texts : List Str} : loadTexts py filename ini options = .ok texts ↔
    List.Forall₂ (TextOf py ini options) (ini.options options) texts := by
  have hone : ∀ k text, (ini.getItem py options k >>= fun v => loadPair py filename k v) = .ok text ↔
      TextOf py ini options k text := by
    intro k text
    rw [Except.bind_eq_ok_iff]
    simp only [loadPair_iff, TextOf]
  rw [loadTexts, Except.mapM_eq_ok_iff]
  simp only [hone]

/-- The pair that a key and a value of the file stand for. -/
structure PairIs {w : Nat} (py : Python) (k v : Str) (p : Pair w) : Prop where
  request : isHexStr k = true → p.asyncRx = false ∧ p.req = hexBytes k
  timer : isHexStr k = false → p.asyncRx = true ∧ asyncKeyTime py k = .ok (.ok p.periodMs)
  resp : p.resp = iniBytes v

/-- The limits of the module that `load_from_ini` does not check. -/
structure SectionFits (py : Python) (ini : Ini) (options : Dict Str Str) : Prop where
  count : (ini.options options).length ≤ hweMaxPairs
  ascii : ∀ k ∈ ini.options options, ∀ c ∈ k, c.toNat < 128
  length : ∀ k ∈ ini.options options, ∀ v, ini.getItem py options k = .ok v →
    k.length + 1 + (convertQuoted v).length ≤ 4096

theorem KeyOk.isHexStr_iff {k : Str} (h : KeyOk py k) :
    (isHexStr k = true → RequestOk k) ∧ (isHexStr k = false → ∃ t, asyncKeyTime py k = .ok (.ok t)) := by
  rcases h.kind with hreq | ⟨hhex, htime⟩
  · exact ⟨fun _ => hreq, fun hnot => by rw [hreq.hex] at hnot; exact absurd hnot (by decide)⟩
  · exact ⟨fun hyes => by rw [hhex] at hyes; exact absurd hyes (by decide), fun _ => htime⟩

/-- A key and a value within the limits are the pair that they stand for. -/
theorem textPair_of_key (HZ : Nat) {k v : Str} (hne : k ≠ []) (hkey : KeyOk py k) (hvalue : ValueOk v)
    (hascii : ∀ c ∈ k, c.toNat < 128) (hlen : k.length + 1 + (convertQuoted v).length ≤ 4096) :
    ∃ q : Pair w, textPair w HZ (utf8 (k ++ '=' :: convertQuoted v)) = some q ∧ PairIs py k v q := by
  cases hhex : isHexStr k with
  | true =>
      obtain ⟨q, hq, hkind, hreq, hresp⟩ := (hkey.isHexStr_iff.1 hhex).textPair hne hvalue
      exact ⟨q, hq, fun _ => ⟨hkind, hreq⟩, fun hnot => by rw [hhex] at hnot; exact absurd hnot (by decide), hresp⟩
  | false =>
      obtain ⟨t, ht⟩ := hkey.isHexStr_iff.2 hhex
      obtain ⟨q, hq, hkind, htime, _, hresp⟩ := textPair_timer ht hascii hvalue (hlen.trans (by decide))
      exact ⟨q, hq, fun hyes => by rw [hhex] at hyes; exact absurd hyes (by decide),
        fun _ => ⟨hkind, by rw [htime]; exact ht⟩, hresp⟩

theorem length_text {k v : Str} (hvalue : ValueOk v) (hascii : ∀ c ∈ k, c.toNat < 128) :
    (utf8 (k ++ '=' :: convertQuoted v)).length = k.length + 1 + (convertQuoted v).length := by
  rw [utf8_pair, List.length_append, List.length_cons, length_utf8_of_ascii hascii, hvalue.length_utf8]
  omega

section

variable {texts : List Str} (htexts : List.Forall₂ (TextOf py ini options) (ini.options options) texts)
  (hkeys : ∀ k ∈ ini.options options, (∀ c ∈ k, c.isUpper = false) ∧ k ≠ [])

include htexts

theorem getElem_text {j : Nat} {text : Str} (hj : texts[j]? = some text) :
    ∃ k, (ini.options options)[j]? = some k ∧ k ∈ ini.options options ∧ TextOf py ini options k text := by
  obtain ⟨hlt, rfl⟩ := List.getElem?_eq_some_iff.mp hj
  have hlt' : j < (ini.options options).length := htexts.length_eq ▸ hlt
  exact ⟨_, List.getElem?_eq_getElem hlt', List.getElem_mem hlt', htexts.get hlt' hlt⟩

include hkeys

/-- Within the limits, each text of a section is accepted in its turn. -/
theorem textsAccepted_of_fits (hfits : SectionFits py ini options) : TextsAccepted w HZ texts := by
  intro j text hj
  obtain ⟨k, hk, hmem, v, hv, hkey, hvalue, rfl⟩ := getElem_text htexts hj
  have hlen := hfits.length k hmem v hv
  have hascii := hfits.ascii k hmem
  obtain ⟨q, hq, hpair⟩ := textPair_of_key (w := w) HZ (hkeys k hmem).2 hkey hvalue hascii hlen
  refine ⟨by rw [length_text hvalue hascii]; exact hlen, q, hq, ?_, ?_⟩
  · obtain ⟨hlt, _⟩ := List.getElem?_eq_some_iff.mp hk
    have hcount := hfits.count
    rw [List.length_map, List.length_take]
    omega
  · intro hsync t ht q' hq' hsync' heq
    obtain ⟨text', htext', rfl⟩ := List.mem_map.mp ht
    obtain ⟨i, hi, rfl⟩ := List.getElem_of_mem htext'
    rw [List.length_take] at hi
    have hget : texts[i]? = some (texts.take j)[i] := by
      rw [List.getElem_take, List.getElem?_eq_getElem]
    obtain ⟨k', hk', hmem', v', hv', hkey', hvalue', htext⟩ := getElem_text htexts hget
    obtain ⟨q₁, hq₁, hpair'⟩ := textPair_of_key (w := w) HZ (hkeys k' hmem').2 hkey' hvalue'
      (hfits.ascii k' hmem') (hfits.length k' hmem' v' hv')
    rw [htext, hq₁] at hq'
    obtain rfl := Option.some.inj hq'
    -- both are requests, and the same key cannot stand twice in the section
    have hreq : ∀ k v (q : Pair w), PairIs py k v q → q.asyncRx = false → isHexStr k = true := by
      intro k v q hpair hkind
      by_contra hhex
      rw [(hpair.timer (Bool.not_eq_true _ ▸ hhex)).1] at hkind
      exact absurd hkind (by decide)
    have hhex := hreq k v q hpair hsync
    have hhex' := hreq k' v' q₁ hpair' hsync'
    have hok := hkey.isHexStr_iff.1 hhex
    have hok' := hkey'.isHexStr_iff.1 hhex'
    rw [(hpair.request hhex).2, (hpair'.request hhex').2] at heq
    have hsame := hexBytes_injective hhex' hhex (hkeys k' hmem').1 (hkeys k hmem).1 hok'.even hok.even heq
    rw [← hsame] at hk
    have hij := (List.getElem?_inj (List.getElem?_eq_some_iff.mp hk').1 (ini.nodup_options options)).mp
      (hk'.trans hk.symm)
    omega

omit hkeys

/-- Texts that are all accepted keep to the limits. -/
theorem fits_of_textsAccepted (haccepted : TextsAccepted w HZ texts) : SectionFits py ini options := by
  have hone : ∀ k ∈ ini.options options, ∃ v text, ini.getItem py options k = .ok v ∧
      text = k ++ '=' :: convertQuoted v ∧ KeyOk py k ∧ ValueOk v ∧
      (utf8 text).length ≤ 4096 ∧ ∃ q, textPair w HZ (utf8 text) = some q := by
    intro k hk
    obtain ⟨j, hj, rfl⟩ := List.getElem_of_mem hk
    have hlt : j < texts.length := htexts.length_eq ▸ hj
    obtain ⟨v, hv, hkey, hvalue, htext⟩ := htexts.get hj hlt
    obtain ⟨hlen, q, hq, _⟩ := haccepted j _ (List.getElem?_eq_getElem hlt)
    exact ⟨v, _, hv, htext, hkey, hvalue, hlen, q, hq⟩
  have hascii : ∀ k ∈ ini.options options, ∀ c ∈ k, c.toNat < 128 := by
    intro k hk
    obtain ⟨v, text, _, rfl, hkey, _, hlen, q, hq⟩ := hone k hk
    cases hhex : isHexStr k with
    | true => exact ascii_of_isHexStr hhex
    | false =>
        obtain ⟨t, ht⟩ := hkey.isHexStr_iff.2 hhex
        exact ascii_of_textPair ht (hlen.trans (by decide)) hq
  refine ⟨?_, hascii, ?_⟩
  · by_contra hmany
    rw [htexts.length_eq] at hmany
    have hlt : hweMaxPairs < texts.length := by omega
    obtain ⟨_, q, _, hroom, _⟩ := haccepted hweMaxPairs _ (List.getElem?_eq_getElem hlt)
    rw [List.length_map, List.length_take] at hroom
    omega
  · intro k hk v hv
    obtain ⟨v', text, hv', rfl, _, hvalue, hlen, _⟩ := hone k hk
    obtain rfl := Except.ok.inj (hv.symm.trans hv')
    rwa [length_text hvalue (hascii k hk)] at hlen

/-- A text of a pair has one equals sign. -/
theorem count_text : ∀ text ∈ texts, utf8 text ≠ [] ∧ (utf8 text).count 61 ≤ 1 := by
  intro text htext
  obtain ⟨j, hj, rfl⟩ := List.getElem_of_mem htext
  obtain ⟨k, _, _, v, _, hkey, hvalue, heq⟩ := getElem_text htexts (List.getElem?_eq_getElem hj)
  have hk : 61 ∉ utf8 k := by
    intro hmem
    cases hhex : isHexStr k with
    | true => exact (ne_of_isXDigit (isXDigit_of_isHexStr hhex 61 hmem)).2.2 rfl
    | false =>
        obtain ⟨t, ht⟩ := hkey.isHexStr_iff.2 hhex
        exact (ne_of_mem_key ht 61 hmem).1 rfl
  have hv : 61 ∉ utf8 (convertQuoted v) := fun hmem =>
    (ne_of_isXDigit (isXDigit_of_isHexStr hvalue.hex 61 hmem)).2.2 rfl
  rw [heq, utf8_pair]
  refine ⟨by simp, ?_⟩
  rw [List.count_append, List.count_cons_self, List.count_eq_zero_of_not_mem hk, List.count_eq_zero_of_not_mem hv]

end

/-! ### The whole file -/

/-- The module has one device for each section, that holds exactly the pairs of the section. -/
def Installed {w : Nat} (py : Python) (ini : Ini) (k : Kernel w) : Prop :=
  ∀ iface, ((k.ifaces iface).devList.map (·.index)).Perm
      (List.range (sectionsOf ini.sections.items iface).length) ∧
    ∀ d ∈ (k.ifaces iface).devList, ∃ item, (sectionsOf ini.sections.items iface)[d.index]? = some item ∧
      d.pairList.map (·.index) = List.range (ini.options item.2).length ∧
      List.Forall₂ (fun key p => ∃ v, ini.getItem py item.2 key = .ok v ∧ PairIs py key v p)
        (ini.options item.2) d.pairList

theorem PairIs.same {k v : Str} {q p : Pair w} (h : PairIs py k v q) (hsame : q.Same p) : PairIs py k v p := by
  constructor
  · intro hhex
    obtain ⟨hkind, hreq⟩ := h.request hhex
    exact ⟨hsame.kind.trans hkind, hsame.req.trans hreq⟩
  · intro hhex
    obtain ⟨hkind, htime⟩ := h.timer hhex
    rw [hsame.period hkind]
    exact ⟨hsame.kind.trans hkind, htime⟩
  · exact hsame.resp.trans h.resp

/-- The texts of a section within the limits are held as its pairs. -/
theorem pairs_of_holds {texts : List Str} (htexts : List.Forall₂ (TextOf py ini options) (ini.options options) texts)
    (hkeys : ∀ k ∈ ini.options options, (∀ c ∈ k, c.isUpper = false) ∧ k ≠ [])
    (hfits : SectionFits py ini options) {d : Dev w} (hd : d.Holds HZ (texts.map utf8)) :
    d.pairList.map (·.index) = List.range (ini.options options).length ∧
      List.Forall₂ (fun key p => ∃ v, ini.getItem py options key = .ok v ∧ PairIs py key v p)
        (ini.options options) d.pairList := by
  refine ⟨?_, ?_⟩
  · rw [hd.indexes, List.length_map, htexts.length_eq]
  · refine List.forall₂_iff_get.mpr ⟨?_, ?_⟩
    · rw [htexts.length_eq, ← hd.pairs.length_eq, List.length_map]
    · intro j hj hp
      have hlt : j < texts.length := htexts.length_eq ▸ hj
      obtain ⟨v, hv, hkey, hvalue, htext⟩ := htexts.get hj hlt
      have hmem := List.get_mem (ini.options options) ⟨j, hj⟩
      obtain ⟨q, hq, hpair⟩ := textPair_of_key (w := w) HZ (hkeys _ hmem).2 hkey hvalue
        (hfits.ascii _ hmem) (hfits.length _ hmem v hv)
      obtain ⟨q', hq', hsame⟩ := hd.pairs.get (by rw [List.length_map]; exact hlt) hp
      rw [List.get_eq_getElem, List.getElem_map] at hq'
      change textPair w HZ (utf8 (texts.get ⟨j, hlt⟩)) = some q' at hq'
      rw [htext, hq] at hq'
      obtain rfl := Option.some.inj hq'
      exact ⟨v, hv, hpair.same hsame⟩

theorem getElem?_planOf {items : List (Str × Dict Str Str)} {iface : HweIface} (i : Nat) :
    (planOf py filename ini items iface)[i]? = (sectionsOf items iface)[i]?.map fun item =>
      (loadTexts py filename ini item.2).toOption.getD [] := by
  rw [planOf, List.getElem?_map]

theorem mem_of_sectionsOf {items : List (Str × Dict Str Str)} {iface : HweIface} {item : Str × Dict Str Str}
    (h : item ∈ sectionsOf items iface) : item ∈ items := List.mem_of_mem_filter h

theorem Loadable.forall₂ {devCounts : HweIface → Nat} {items : List (Str × Dict Str Str)}
    (h : Loadable py filename ini devCounts items) {item : Str × Dict Str Str} (hitem : item ∈ items) :
    List.Forall₂ (TextOf py ini item.2) (ini.options item.2)
      ((loadTexts py filename ini item.2).toOption.getD []) := by
  obtain ⟨texts, htexts⟩ := h.texts item hitem
  rw [htexts]
  exact loadTexts_iff.mp htexts

section

variable {data : List UInt8} {cfg : Config} (hini : readIni py data = .ok ini)
  (hload : loadFromIni py filename (some data) = .ok cfg)

include hini hload

theorem loaded_plan : Loadable py filename ini (fun _ => 0) ini.sections.items ∧
    Config.Numbered cfg (planOf py filename ini ini.sections.items) ∧
    (∀ iface, (planOf py filename ini ini.sections.items iface).length ≤ hweMaxDevices) ∧
    ∀ iface, ∀ texts ∈ planOf py filename ini ini.sections.items iface,
      ∃ item ∈ ini.sections.items, List.Forall₂ (TextOf py ini item.2) (ini.options item.2) texts := by
  obtain ⟨hiff, hnumbered⟩ := loadFromIni_iff hini
  have hloadable := hiff.mp ⟨cfg, hload⟩
  refine ⟨hloadable, hnumbered cfg hload, ?_, ?_⟩
  · intro iface
    rw [planOf, List.length_map]
    exact (Nat.zero_add _).symm.le.trans (hloadable.count iface)
  · intro iface texts htexts
    obtain ⟨item, hitem, rfl⟩ := List.mem_map.mp htexts
    exact ⟨item, mem_of_sectionsOf hitem, hloadable.forall₂ (mem_of_sectionsOf hitem)⟩

/-- What was written kept to the limits. -/
theorem fits_of_written {mem : Nat → Pair w} {k' : Kernel w}
    (hwrite : writeConfig py HZ (.succeeds mem) cfg (Kernel.loaded w) = .ok k') :
    ∀ item ∈ ini.sections.items, SectionFits py ini item.2 := by
  obtain ⟨hloadable, hplan, hmax, hmem⟩ := loaded_plan hini hload
  obtain ⟨haccepted, _⟩ := writeConfig_inv hplan hmax (fun iface texts htexts => by
    obtain ⟨item, _, hforall⟩ := hmem iface texts htexts
    exact count_text hforall) (Kernel.Holds.loaded w HZ) hwrite
  intro item hitem
  obtain ⟨iface, hiface⟩ := hloadable.names item hitem
  refine fits_of_textsAccepted (w := w) (hloadable.forall₂ hitem) (haccepted iface _ ?_)
  exact List.mem_map.mpr ⟨item, List.mem_filter.mpr ⟨hitem, decide_eq_true hiface⟩, rfl⟩

/-- What keeps to the limits is written. -/
theorem written_of_fits (mem : Nat → Pair w) (hfits : ∀ item ∈ ini.sections.items, SectionFits py ini item.2) :
    ∃ k', writeConfig py HZ (.succeeds mem) cfg (Kernel.loaded w) = .ok k' ∧ Installed py ini k' := by
  obtain ⟨hloadable, hplan, hmax, hmem⟩ := loaded_plan hini hload
  have hkeys := readIni_keys hini
  obtain ⟨k', hwrite, hholds⟩ := writeConfig_ok py mem hplan hmax (fun iface texts htexts => by
    obtain ⟨item, hitem, hforall⟩ := hmem iface texts htexts
    exact textsAccepted_of_fits hforall (hkeys item hitem) (hfits item hitem)) (Kernel.Holds.loaded w HZ)
  refine ⟨k', hwrite, ?_⟩
  intro iface
  have hindexes := hholds.indexes iface
  rw [Plan.contents, List.length_map, planOf, List.length_map] at hindexes
  refine ⟨hindexes, ?_⟩
  intro d hd
  obtain ⟨texts, htexts, hdev⟩ := hholds.devs iface d hd
  rw [Plan.contents, List.getElem?_map, getElem?_planOf, Option.map_map] at htexts
  obtain ⟨item, hitem, rfl⟩ := Option.map_eq_some_iff.mp htexts
  have hitems := mem_of_sectionsOf (List.mem_of_getElem? hitem)
  exact ⟨item, hitem, pairs_of_holds (hloadable.forall₂ hitems) (hkeys item hitems) (hfits item hitems) hdev⟩

/-- **The utility and the module.** What was loaded from a file is written to a freshly loaded module, every
write accepted and every section held as it is in the file, exactly when each section of the file keeps to
the limits that the utility does not check. -/
theorem loaded_file_written_iff (mem : Nat → Pair w) :
    (∃ k', writeConfig py HZ (.succeeds mem) cfg (Kernel.loaded w) = .ok k' ∧ Installed py ini k') ↔
      ∀ item ∈ ini.sections.items, SectionFits py ini item.2 := by
  constructor
  · rintro ⟨k', hwrite, _⟩
    exact fits_of_written hini hload hwrite
  · exact written_of_fits hini hload mem

end

/-! ### Two files -/

/-- Two buses and a port, with requests, a response in quotes and timers. -/
def sampleText : Str :=
  ("[i2c-0]\n0A=\"x\"\n0b0C=aaBB\ntimer:1s500ms=cc\n" ++ "[ttyUSB0]\n01=0203\n" ++
    "[i2c-1]\ntimer:2s=\"tick\"\n").toList

def sampleIni : Ini where
  sections :=
    ((Dict.empty.set "i2c-0".toList
        (((Dict.empty.set "0a".toList "\"x\"".toList).set "0b0c".toList "aaBB".toList).set
          "timer:1s500ms".toList "cc".toList)).set
      "ttyUSB0".toList (Dict.empty.set "01".toList "0203".toList)).set
      "i2c-1".toList (Dict.empty.set "timer:2s".toList "\"tick\"".toList)
  defaults := .empty

theorem readIni_sampleText : readIni samplePython (utf8 sampleText) = .ok sampleIni := by
  rw [readIni, decodeUtf8_utf8]
  exact Except.eq_ok_of_toOption (by decide +kernel)

theorem sampleIni_fits : ∀ item ∈ sampleIni.sections.items, SectionFits samplePython sampleIni item.2 := by
  have hkeys : ∀ item ∈ sampleIni.sections.items, (sampleIni.options item.2).length ≤ hweMaxPairs ∧
      ∀ k ∈ sampleIni.options item.2, (k.all fun c => decide (c.toNat < 128)) = true ∧
        ∀ v ∈ (sampleIni.getItem samplePython item.2 k).toOption,
          k.length + 1 + (convertQuoted v).length ≤ 4096 := by
    decide +kernel
  intro item hitem
  obtain ⟨hcount, hfits⟩ := hkeys item hitem
  refine ⟨hcount, fun k hk => List.all_iff_forall_prop.mp (hfits k hk).1, fun k hk v hv => ?_⟩
  refine (hfits k hk).2 v ?_
  rw [hv]
  rfl

theorem loaded_file_written_iff_applies : ∃ (cfg : Config) (k' : Kernel 64),
    loadFromIni samplePython "test.ini".toList (some (utf8 sampleText)) = .ok cfg ∧
      writeConfig samplePython 250 (.succeeds fun _ => Pair.zeroed 64) cfg (Kernel.loaded 64) = .ok k' ∧
      Installed samplePython sampleIni k' := by
  obtain ⟨cfg, hload⟩ : ∃ cfg, loadFromIni samplePython "test.ini".toList (some (utf8 sampleText)) = .ok cfg := by
    unfold loadFromIni
    simp only [readIni_sampleText, Except.ok_bind]
    exact Except.exists_ok_of_isSome (by decide +kernel)
  obtain ⟨k', hwrite, hinstalled⟩ := (@loaded_file_written_iff 64 250 samplePython _ sampleIni _ cfg
    readIni_sampleText hload fun _ => Pair.zeroed 64).mpr sampleIni_fits
  exact ⟨cfg, k', hload, hwrite, hinstalled⟩

/-- The digit is the Arabic three. -/
def foreignText : Str := "[i2c-0]\ntimer:".toList ++ [Char.ofNat 0x663] ++ "s=00\n".toList

def foreignKey : Str := "timer:".toList ++ [Char.ofNat 0x663, 's']

def foreignIni : Ini where
  sections := Dict.empty.set "i2c-0".toList (Dict.empty.set foreignKey "00".toList)
  defaults := .empty

theorem readIni_foreignText : readIni samplePython (utf8 foreignText) = .ok foreignIni := by
  rw [readIni, decodeUtf8_utf8]
  exact Except.eq_ok_of_toOption (by decide +kernel)

/-- **A timer in Arabic digits** is loaded, and then refused by the module. -/
theorem foreign_digits_not_written : ¬∀ (py : Python) (filename : Str) (data : List UInt8) (ini : Ini) (cfg : Config)
    (mem : Nat → Pair 64), readIni py data = .ok ini → loadFromIni py filename (some data) = .ok cfg →
      ∃ k', writeConfig py 250 (.succeeds mem) cfg (Kernel.loaded 64) = .ok k' ∧ Installed py ini k' := by
  intro hclaim
  obtain ⟨cfg, hload⟩ : ∃ cfg, loadFromIni samplePython "test.ini".toList (some (utf8 foreignText)) = .ok cfg := by
    unfold loadFromIni
    simp only [readIni_foreignText, Except.ok_bind]
    exact Except.exists_ok_of_isSome (by decide +kernel)
  obtain ⟨k', hwrite, _⟩ := hclaim _ _ _ _ _ (fun _ => Pair.zeroed 64) readIni_foreignText hload
  have hfits := fits_of_written readIni_foreignText hload hwrite
  have hitem : ("i2c-0".toList, Dict.empty.set foreignKey "00".toList) ∈ foreignIni.sections.items := by decide
  have hkey : foreignKey ∈ foreignIni.options (Dict.empty.set foreignKey "00".toList) := by decide +kernel
  have hlt := (hfits _ hitem).ascii foreignKey hkey (Char.ofNat 0x663) (by decide)
  exact absurd hlt (by decide)

end Hwectl

end Hwemu
