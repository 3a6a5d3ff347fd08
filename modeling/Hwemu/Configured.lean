import Hwemu.EmulatorConfig
import Hwemu.LoadedBytes

/-!
# What a configured emulator answers

From the text of a file to the devices: the utility loads the file and writes it to the module, and each
device of the bench then answers just the requests of its section, with the responses that stand behind them.
-/

namespace Hwemu

namespace Hwectl

variable {w : Nat} {HZ : Nat} {py : Python} {filename : Str} {ini : Ini} {sects : List (Str × List (Str × Str))}
  {iface : HweIface}

/-! ### What a section says -/

/-- The sections of an interface, in the order of the file. -/
def sectsOn (iface : HweIface) (sects : List (Str × List (Str × Str))) : List (Str × List (Str × Str)) :=
  sects.filter fun sect => externDevNameToIface sect.1 = some iface

/-- The response to a request. -/
def sectAnswer (items : List (Str × Str)) (request : List UInt8) : Option (List UInt8) :=
  (items.find? fun item => isHexStr item.1 && iniBytes item.1 == request).map fun item => iniBytes item.2

/-- The limits of the module that the utility does not check. -/
structure SectFits (sect : Str × List (Str × Str)) : Prop where
  count : sect.2.length ≤ hweMaxPairs
  ascii : ∀ item ∈ sect.2, ∀ c ∈ item.1, c.toNat < 128
  length : ∀ item ∈ sect.2, item.1.length + 1 + (convertQuoted item.2).length ≤ 4096

instance (sect : Str × List (Str × Str)) : Decidable (SectFits sect) :=
  decidable_of_iff (sect.2.length ≤ hweMaxPairs ∧
    (∀ item ∈ sect.2, (item.1.all fun c => decide (c.toNat < 128)) = true) ∧
    ∀ item ∈ sect.2, item.1.length + 1 + (convertQuoted item.2).length ≤ 4096)
    ⟨fun h => ⟨h.1, fun item hitem c hc => of_decide_eq_true (List.all_eq_true.mp (h.2.1 item hitem) c hc), h.2.2⟩,
      fun h => ⟨h.count, fun item hitem =>
        List.all_eq_true.mpr fun c hc => decide_eq_true (h.ascii item hitem c hc), h.length⟩⟩

/-- The pair that a line of the file stands for. -/
structure ItemIs (py : Python) (item : Str × Str) (p : Pair w) : Prop where
  request : isHexStr item.1 = true → p.asyncRx = false ∧ p.req = iniBytes item.1
  timer : isHexStr item.1 = false → p.asyncRx = true ∧ asyncKeyTime py item.1 = .ok (.ok p.periodMs)
  resp : p.resp = iniBytes item.2

/-! ### From the keys that were read to those of the file -/

/-- A key that is not quoted, and the key that is read for it. -/
theorem KeyForm.lower_kind {k : Str} (h : KeyForm py k) (hplain : isQuoted k = false) :
    (isHexStr k = true ∧ isHexStr (py.lower k) = true ∧ (py.lower k).length = k.length ∧
        hexBytes (py.lower k) = iniBytes k) ∨
      (isHexStr k = false ∧ py.lower k = k) := by
  cases h with
  | hex pos ok =>
      have hbytes : iniBytes k = hexBytes k := if_neg (by rw [hplain]; exact Bool.false_ne_true)
      exact Or.inl ⟨ok.hex, isHexStr_lower ok.hex, length_lower ok.hex, hbytes ▸ hexBytes_lower ok.hex⟩
  | quoted t eq pos le =>
      rw [eq, isQuoted_quoted] at hplain
      exact absurd hplain.symm Bool.false_ne_true
  | timer ok =>
      refine Or.inr ⟨?_, lower_of_isTimer ok⟩
      obtain ⟨k', rfl⟩ := List.head?_eq_some_iff.mp (head_of_isTimer ok)
      rfl

section

variable {sect : Str × List (Str × Str)} {options : Dict Str Str}

/-- The value that is read for a key. -/
theorem getItem_lower (h : Configures py sects) (hplain : Unquoted sects) (hsect : sect ∈ sects)
    (hoptions : options.items = sect.2.map fun item => (py.lower item.1, item.2)) {item : Str × Str}
    (hitem : item ∈ sect.2) : ini.getItem py options (py.lower item.1) = .ok item.2 := by
  obtain ⟨_, hlower, _, _⟩ := (h.keys sect hsect item hitem).1.lower_ok (hplain sect hsect item hitem)
  have hget : options.get? (py.lower item.1) = some item.2 := by
    rw [Dict.get?_eq_some_iff, hoptions]
    exact List.mem_map_of_mem (f := fun item : Str × Str => (py.lower item.1, item.2)) hitem
  rw [Ini.getItem, hlower, Ini.lookup, hget]
  exact interpolate_plain _ 9 (h.values sect hsect item hitem).2

/-- The limits on a section are limits on what is read of it. -/
theorem SectFits.sectionFits (hfits : SectFits sect) (h : Configures py sects) (hplain : Unquoted sects)
    (hsect : sect ∈ sects) (hdefaults : ini.defaults = .empty)
    (hoptions : options.items = sect.2.map fun item => (py.lower item.1, item.2)) : SectionFits py ini options := by
  have hkeys := options_eq hdefaults hoptions
  have hkind : ∀ item ∈ sect.2, _ := fun item hitem =>
    (h.keys sect hsect item hitem).1.lower_kind (hplain sect hsect item hitem)
  constructor
  · rw [hkeys, List.length_map]
    exact hfits.count
  · intro k hk
    rw [hkeys] at hk
    obtain ⟨item, hitem, rfl⟩ := List.mem_map.mp hk
    rcases hkind item hitem with ⟨_, hhex, _, _⟩ | ⟨_, hlower⟩
    · exact ascii_of_isHexStr hhex
    · rw [hlower]
      exact hfits.ascii item hitem
  · intro k hk v hv
    rw [hkeys] at hk
    obtain ⟨item, hitem, rfl⟩ := List.mem_map.mp hk
    rw [getItem_lower h hplain hsect hoptions hitem] at hv
    obtain rfl := Except.ok.inj hv
    have hlen : (py.lower item.1).length = item.1.length := by
      rcases hkind item hitem with ⟨_, _, hlen, _⟩ | ⟨_, hlower⟩
      · exact hlen
      · rw [hlower]
    rw [hlen]
    exact hfits.length item hitem

/-- The pairs of what was read are those of the file. -/
theorem itemIs_of_pairIs (h : Configures py sects) (hplain : Unquoted sects) (hsect : sect ∈ sects)
    (hoptions : options.items = sect.2.map fun item => (py.lower item.1, item.2)) {item : Str × Str}
    (hitem : item ∈ sect.2) {p : Pair w}
    (hpair : ∃ v, ini.getItem py options (py.lower item.1) = .ok v ∧ PairIs py (py.lower item.1) v p) :
    ItemIs py item p := by
  obtain ⟨v, hv, hpair⟩ := hpair
  rw [getItem_lower h hplain hsect hoptions hitem] at hv
  obtain rfl := Except.ok.inj hv
  rcases (h.keys sect hsect item hitem).1.lower_kind (hplain sect hsect item hitem) with
    ⟨hhex, hlower, _, hbytes⟩ | ⟨hhex, hlower⟩
  · obtain ⟨hkind, hreq⟩ := hpair.request hlower
    refine ⟨fun _ => ⟨hkind, hreq.trans hbytes⟩, fun hnot => ?_, hpair.resp⟩
    rw [hhex] at hnot
    exact absurd hnot.symm Bool.false_ne_true
  · rw [hlower] at hpair
    refine ⟨fun hyes => ?_, fun _ => hpair.timer hhex, hpair.resp⟩
    rw [hhex] at hyes
    exact absurd hyes Bool.false_ne_true

end

/-- **What is installed** of a file. -/
theorem Installed.items {k : Kernel w} (hinstalled : Installed py ini k) (hini : ini.Is py sects)
    (h : Configures py sects) (hplain : Unquoted sects) (iface : HweIface) :
    ((k.ifaces iface).devList.map (·.index)).Perm (List.range (sectsOn iface sects).length) ∧
      ∀ d ∈ (k.ifaces iface).devList, ∃ sect, (sectsOn iface sects)[d.index]? = some sect ∧
        List.Forall₂ (ItemIs py) sect.2 d.pairList := by
  have hsections := sectionsOf_eq hini iface
  obtain ⟨hindexes, hdevs⟩ := hinstalled iface
  have hlength := congrArg List.length hsections
  rw [List.length_map, List.length_map] at hlength
  refine ⟨by rw [hlength] at hindexes; exact hindexes, ?_⟩
  intro d hd
  obtain ⟨item, hitem, _, hpairs⟩ := hdevs d hd
  have hget := congrArg (fun l => l[d.index]?) hsections
  rw [List.getElem?_map, List.getElem?_map, hitem] at hget
  obtain ⟨sect, hsect, hlowered⟩ := Option.map_eq_some_iff.mp hget.symm
  have hoptions : item.2.items = sect.2.map fun item => (py.lower item.1, item.2) := (Prod.mk.inj hlowered).2.symm
  have hmem : sect ∈ sects := List.mem_of_mem_filter (List.mem_of_getElem? hsect)
  rw [options_eq hini.defaults hoptions, List.forall₂_map_left_iff] at hpairs
  refine ⟨sect, hsect, List.forall₂_iff_get.mpr ⟨hpairs.length_eq, fun i hi hp => ?_⟩⟩
  exact itemIs_of_pairIs h hplain hmem hoptions (List.get_mem sect.2 ⟨i, hi⟩) (hpairs.get hi hp)

/-- **The answers of a device** are those of its section. -/
theorem find?_of_itemIs {items : List (Str × Str)} {ps : List (Pair w)} (h : List.Forall₂ (ItemIs py) items ps)
    (request : List UInt8) :
    (ps.find? fun p => !p.asyncRx && p.req == request).map (·.resp) = sectAnswer items request := by
  induction h with
  | nil => rfl
  | @cons item p items ps hitem _ ih =>
      rw [sectAnswer] at ih ⊢
      cases hhex : isHexStr item.1 with
      | false =>
          obtain ⟨hkind, _⟩ := hitem.timer hhex
          rw [List.find?_cons_of_neg (by simp [hkind]), List.find?_cons_of_neg (by simp [hhex])]
          exact ih
      | true =>
          obtain ⟨hkind, hreq⟩ := hitem.request hhex
          by_cases heq : iniBytes item.1 = request
          · rw [List.find?_cons_of_pos (by simp [hkind, hreq, heq]), List.find?_cons_of_pos (by simp [hhex, heq])]
            exact congrArg some hitem.resp
          · rw [List.find?_cons_of_neg (by simp [hkind, hreq, heq]), List.find?_cons_of_neg (by simp [heq])]
            exact ih

/-! ### The whole way -/

/-- What a bench shows of a file: a device for each section, which answers what the section says and no other
request, and which the clock is to ask for the responses of its timers. -/
structure Configured (py : Python) (sects : List (Str × List (Str × Str))) (s : Emulator w) (b : Bench w) :
    Prop where
  shows : s.Shows b
  free : ∀ iface index, (sectsOn iface sects)[index]? = none → b.devs iface index = none
  answers : ∀ iface index sect, (sectsOn iface sects)[index]? = some sect →
    ∃ dev, b.devs iface index = some dev ∧ ∀ request, (dev.answer request).map (·.resp) = sectAnswer sect.2 request
  pairs : ∀ iface, ∀ d ∈ (s.m.k.ifaces iface).devList, ∃ sect, (sectsOn iface sects)[d.index]? = some sect ∧
    List.Forall₂ (ItemIs py) sect.2 d.pairList

section

variable {data : List UInt8} {text : Str} {ls : List IniLine} (hdata : decodeUtf8 data = .ok text)
  (hlines : List.Forall₂ IniLine.Written (pyLines (universalNewlines text)) ls) (hfirst : IniLine.entries ls = [])
  (h : Configures py (IniLine.sections ls)) (honce : WrittenOnce (IniLine.sections ls))
  (hplain : Unquoted (IniLine.sections ls)) (hfits : ∀ sect ∈ IniLine.sections ls, SectFits sect)

include hdata hlines hfirst h honce hplain hfits

/-- A file that keeps to the limits is loaded and written, and what it is written to is configured by it. -/
theorem exists_configured (filename : Str) (mem : Nat → Pair w) (objs : Registry KernelObj) :
    ∃ cfg t, loadFromIni py filename (some data) = .ok cfg ∧
      writeConfig py HZ (.succeeds mem) cfg (Kernel.loaded w) = .ok t.emu.m.k ∧
      (Traced.loaded w objs).writeConfig py HZ mem cfg = .ok t ∧
      Run (Emulator.Step HZ) (Emulator.loaded w objs) t.trace t.emu ∧ (∀ e ∈ t.trace, Accepted e) ∧
      ∀ b, t.emu.Shows b → Configured py (IniLine.sections ls) t.emu b := by
  obtain ⟨cfg, hload⟩ := (loadFromIni_lines hdata hlines hfirst h filename).1.mpr ⟨honce, hplain⟩
  obtain ⟨ini, hini, _⟩ := Except.bind_eq_ok_iff.mp hload
  have his := (readIni_lines hdata hlines (plain_of_configures hfirst h) hfirst).2 ini hini
  have hsections : ∀ item ∈ ini.sections.items, SectionFits py ini item.2 := by
    intro item hitem
    obtain ⟨sect, hsect, _, hitems⟩ := exists_sect his hitem
    exact (hfits sect hsect).sectionFits h hplain hsect his.defaults hitems
  obtain ⟨k', hwrite, hinstalled⟩ : ∃ k', writeConfig py HZ (.succeeds mem) cfg (Kernel.loaded w) = .ok k' ∧
      Installed py ini k' := written_of_fits hini hload mem hsections
  obtain ⟨t, htraced, hstores⟩ := (Traced.Stores.loaded w HZ objs).writeConfig hwrite
  have hitems := hinstalled.items his h hplain
  rw [← hstores.kernel] at hwrite hitems
  refine ⟨cfg, t, hload, hwrite, htraced, hstores.run, hstores.accepted,
    fun b hshows => ⟨hshows, ?_, ?_, fun iface => (hitems iface).2⟩⟩
  · intro iface index hnone
    by_contra hsome
    obtain ⟨d, hd, rfl⟩ := hshows.places iface index (Option.ne_none_iff_isSome.mp hsome)
    have hmem := (hitems iface).1.mem_iff.mp (List.mem_map_of_mem hd)
    exact absurd (List.getElem?_eq_none_iff.mp hnone) (Nat.not_le_of_lt (List.mem_range.mp hmem))
  · intro iface index sect hsect
    obtain ⟨hlt, _⟩ := List.getElem?_eq_some_iff.mp hsect
    obtain ⟨d, hd, rfl⟩ := List.mem_map.mp ((hitems iface).1.mem_iff.mpr (List.mem_range.mpr hlt))
    obtain ⟨sect', hsect', hpairs⟩ := (hitems iface).2 d hd
    obtain rfl := Option.some.inj (hsect.symm.trans hsect')
    obtain ⟨dev, hdev, hdevShows⟩ := hshows.devs iface d hd
    refine ⟨dev, hdev, fun request => ?_⟩
    rw [← find?_of_itemIs hpairs request, BenchDev.answer, hdevShows.lines, List.find?_map, Option.map_map]
    rfl

/-- **From a file to the answers.** A file that keeps to the limits, with nothing in it twice and no key in quotes,
is loaded and written to a module that was just loaded, each write an operation of the emulator that is accepted,
and the devices then answer what the file says. -/
theorem ini_file_answered (filename : Str) (mem : Nat → Pair w) (objs : Registry KernelObj) :
    ∃ cfg t b, loadFromIni py filename (some data) = .ok cfg ∧
      writeConfig py HZ (.succeeds mem) cfg (Kernel.loaded w) = .ok t.emu.m.k ∧
      (Traced.loaded w objs).writeConfig py HZ mem cfg = .ok t ∧
      Run (Emulator.Step HZ) (Emulator.loaded w objs) t.trace t.emu ∧ (∀ e ∈ t.trace, Accepted e) ∧
      Run (Bench.Step HZ) Bench.empty t.trace b ∧ Configured py (IniLine.sections ls) t.emu b := by
  obtain ⟨cfg, t, hload, hwrite, htraced, hrun, haccepted, hconfigured⟩ :=
    exists_configured hdata hlines hfirst h honce hplain hfits filename mem objs
  obtain ⟨b, hbench, hshows⟩ := (Emulator.Shows.loaded w objs).run (fun e he => (haccepted e he).1) hrun
  exact ⟨cfg, t, b, hload, hwrite, htraced, hrun, haccepted, hbench, hconfigured b hshows⟩

end

/-- The first adapter of `sampleText` answers the byte `0a` with an `x`, and has a timer with a period of 1500 ms. -/
theorem ini_file_answered_applies : ∃ (cfg : Config) (s : Emulator 64) (b : Bench 64) (dev : BenchDev 64),
    loadFromIni samplePython "test.ini".toList (some (utf8 sampleText)) = .ok cfg ∧ s.Shows b ∧
      b.devs .i2c 0 = some dev ∧ (dev.answer [0x0a]).map (·.resp) = some [0x78] ∧
      ∃ d ∈ (s.m.k.ifaces .i2c).devList, ∃ p ∈ d.pairList, p.asyncRx = true ∧ p.periodMs = 1500 := by
  have hfits : ∀ sect ∈ IniLine.sections sampleLines, SectFits sect := by decide +kernel
  obtain ⟨cfg, t, b, hload, _, _, _, _, _, hconfigured⟩ := @ini_file_answered 64 250 samplePython
    _ _ _ (decodeUtf8_utf8 sampleText) written_sampleLines rfl configures_sample (by decide) (by decide) hfits
    "test.ini".toList (fun _ => Pair.zeroed 64) .empty
  obtain ⟨dev, hdev, hanswers⟩ := hconfigured.answers .i2c 0 _ rfl
  refine ⟨cfg, t.emu, b, dev, hload, hconfigured.shows, hdev, ?_, ?_⟩
  · rw [hanswers]
    decide
  · obtain ⟨d, hd, hindex⟩ := hconfigured.shows.places .i2c 0 (Option.isSome_of_eq_some hdev)
    obtain ⟨sect, hsect, hpairs⟩ := hconfigured.pairs .i2c d hd
    rw [hindex] at hsect
    obtain rfl : _ = sect := Option.some.inj hsect
    have hlt : 2 < d.pairList.length := hpairs.length_eq ▸ (by decide : 2 < 3)
    obtain ⟨hkind, htime⟩ := (hpairs.get (i := 2) (by decide) hlt).timer (by decide)
    have hperiod : asyncKeyTime samplePython "timer:1s500ms".toList = .ok (.ok 1500) :=
      Except.eq_ok_of_toOption (by decide +kernel)
    refine ⟨d, hd, d.pairList.get ⟨2, hlt⟩, List.get_mem .., hkind, ?_⟩
    exact Int.natCast_inj.mp (Except.ok.inj (Except.ok.inj (htime.symm.trans hperiod)))

end Hwectl

end Hwemu
