import Hwemu.HwectlWrite
import Hwemu.IniText

/-!
# The bytes that are loaded

The pairs that `load_from_ini` makes of a file are texts for the same requests, timers and responses, in the
same order, although the parser puts the keys in lower case. That is as long as no key is quoted.
-/

namespace Hwemu

namespace Hwectl

variable {py : Python} {filename k v : Str}

/-! ### Keys in lower case -/

def IsTimer (py : Python) (k : Str) : Prop := ∃ t, asyncKeyTime py k = .ok (.ok t)

theorem toLower_hexChar : ∀ c ∈ hexChars, hexChars.contains c.toLower = true ∧
    hexToBin (UInt8.ofNat c.toLower.toNat) = hexToBin (UInt8.ofNat c.toNat) :=
  List.all_iff_forall_prop.mp (by decide +kernel)

theorem lower_of_isHexStr (h : isHexStr k = true) : py.lower k = k.map Char.toLower :=
  py.lower_ascii k (ascii_of_isHexStr h)

theorem isHexStr_lower (h : isHexStr k = true) : isHexStr (py.lower k) = true := by
  rw [lower_of_isHexStr h]
  refine List.all_eq_true.mpr fun c hc => ?_
  obtain ⟨c₀, hc₀, rfl⟩ := List.mem_map.mp hc
  exact (toLower_hexChar c₀ (List.contains_iff_mem.mp (List.all_eq_true.mp h c₀ hc₀))).1

theorem length_lower (h : isHexStr k = true) : (py.lower k).length = k.length := by
  rw [lower_of_isHexStr h, List.length_map]

theorem fromHex_congr {src src' : List UInt8} (h : src.map hexToBin = src'.map hexToBin) : fromHex src = fromHex src' := by
  induction src using fromHex.induct generalizing src' with
  | case1 hi lo src ih =>
      rw [List.map_cons, List.map_cons, eq_comm, List.map_eq_cons_iff] at h
      obtain ⟨hi', rest, rfl, hhi, hrest⟩ := h
      obtain ⟨lo', src', rfl, hlo, hsrc⟩ := List.map_eq_cons_iff.mp hrest
      rw [fromHex, fromHex, hhi, hlo, ih hsrc.symm]
  | case2 src hshort =>
      have hlen : src.length = src'.length := by
        have hmap := congrArg List.length h
        rwa [List.length_map, List.length_map] at hmap
      rcases src with _ | ⟨b, _ | ⟨b', src⟩⟩
      · rw [List.length_eq_zero_iff.mp hlen.symm]
      · obtain ⟨c, rfl⟩ := List.length_eq_one_iff.mp hlen.symm
        rfl
      · exact absurd rfl (hshort b b' src)

/-- Digits stand for the same bytes in lower case. -/
theorem hexBytes_lower (h : isHexStr k = true) : hexBytes (py.lower k) = hexBytes k := by
  have hsame : (utf8 (py.lower k)).map hexToBin = (utf8 k).map hexToBin := by
    rw [utf8_of_ascii (ascii_of_isHexStr (isHexStr_lower h)), utf8_of_ascii (ascii_of_isHexStr h), lower_of_isHexStr h,
      List.map_map, List.map_map, List.map_map]
    refine List.map_congr_left fun c hc => ?_
    exact (toLower_hexChar c (List.contains_iff_mem.mp (List.all_eq_true.mp h c hc))).2
  exact fromHex_congr hsame

theorem lower_of_isTimer (h : IsTimer py k) : py.lower k = k := by
  obtain ⟨t, ht⟩ := h
  refine py.lower_eq_self k fun c hc => (mem_timerKey ht c hc).imp_left fun hletter => ?_
  exact (show ∀ c ∈ "timer:hs".toList, c.toNat < 128 ∧ c.isUpper = false from
    List.all_iff_forall_prop.mp (by decide)) c hletter

theorem lower_lower_of_isHexStr (h : isHexStr k = true) : py.lower (py.lower k) = py.lower k :=
  py.lower_eq_self _ fun c hc => Or.inl ⟨ascii_of_isHexStr (isHexStr_lower h) c hc, py.lower_isUpper k c hc⟩

/-! ### What a file says -/

/-- A key of the file: a request in digits or in quotes, or a timer. -/
inductive KeyForm (py : Python) (k : Str) : Prop where
  | hex (pos : k ≠ []) (ok : RequestOk k)
  | quoted (t : Str) (eq : k = '"' :: t ++ ['"']) (pos : t ≠ []) (le : (utf8 t).length ≤ hweMaxRequest)
  | timer (ok : IsTimer py k)

/-- A value of the file: a response in digits or in quotes. -/
inductive ValueForm (v : Str) : Prop where
  | hex (pos : v ≠ []) (hex : isHexStr v = true) (even : v.length % 2 = 0) (le : v.length ≤ hweMaxResponse * 2)
  | quoted (t : Str) (eq : v = '"' :: t ++ ['"']) (pos : t ≠ []) (le : (utf8 t).length ≤ hweMaxResponse)

/-- The sections of a file that configures devices: their names are known, not too many are of one interface,
their keys and values are within the limits, and no two requests of a section are the same. -/
structure Configures (py : Python) (sects : List (Str × List (Str × Str))) : Prop where
  names : ∀ sect ∈ sects, ∃ iface, externDevNameToIface sect.1 = some iface
  count : ∀ iface, (sects.filter fun sect => externDevNameToIface sect.1 = some iface).length ≤ hweMaxDevices
  keys : ∀ sect ∈ sects, ∀ item ∈ sect.2, KeyForm py item.1 ∧ '=' ∉ item.1
  values : ∀ sect ∈ sects, ∀ item ∈ sect.2, ValueForm item.2 ∧ '%' ∉ item.2
  requests : ∀ sect ∈ sects, sect.2.Pairwise fun item item' =>
    ¬IsTimer py item.1 → ¬IsTimer py item'.1 → iniBytes item.1 ≠ iniBytes item'.1

/-! ### Whether a file configures devices -/

theorem unquote_quoted (t : Str) : unquote ('"' :: t ++ ['"']) = t := by
  rw [unquote, List.cons_append, List.drop_one, List.tail_cons, List.dropLast_concat]

theorem isTimer_iff : IsTimer py k ↔ ((asyncKeyTime py k).toOption.bind Except.toOption).isSome = true := by
  unfold IsTimer
  cases asyncKeyTime py k with
  | error e => simp [Except.toOption]
  | ok r => cases r <;> simp [Except.toOption]

instance (py : Python) (k : Str) : Decidable (IsTimer py k) := decidable_of_iff _ isTimer_iff.symm

instance (k : Str) : Decidable (RequestOk k) :=
  decidable_of_iff (isHexStr k = true ∧ k.length % 2 = 0 ∧ k.length ≤ hweMaxRequest * 2)
    ⟨fun h => ⟨h.1, h.2.1, h.2.2⟩, fun h => ⟨h.hex, h.even, h.le⟩⟩

/-- A text in quotes is between its first and its last character. -/
theorem exists_quoted_iff {s : Str} {P : Str → Prop} :
    (∃ t, s = '"' :: t ++ ['"'] ∧ P t) ↔ s = '"' :: unquote s ++ ['"'] ∧ P (unquote s) := by
  constructor
  · rintro ⟨t, rfl, ht⟩
    rw [unquote_quoted]
    exact ⟨rfl, ht⟩
  · rintro ⟨hs, ht⟩
    exact ⟨unquote s, hs, ht⟩

theorem keyForm_iff : KeyForm py k ↔ (k ≠ [] ∧ RequestOk k) ∨ (k = '"' :: unquote k ++ ['"'] ∧
    unquote k ≠ [] ∧ (utf8 (unquote k)).length ≤ hweMaxRequest) ∨ IsTimer py k := by
  rw [← exists_quoted_iff (P := fun t => t ≠ [] ∧ (utf8 t).length ≤ hweMaxRequest)]
  constructor
  · rintro (⟨hpos, hok⟩ | ⟨t, heq, hpos, hle⟩ | hok)
    · exact Or.inl ⟨hpos, hok⟩
    · exact Or.inr (Or.inl ⟨t, heq, hpos, hle⟩)
    · exact Or.inr (Or.inr hok)
  · rintro (⟨hpos, hok⟩ | ⟨t, heq, hpos, hle⟩ | hok)
    · exact .hex hpos hok
    · exact .quoted t heq hpos hle
    · exact .timer hok

instance (py : Python) (k : Str) : Decidable (KeyForm py k) := decidable_of_iff _ keyForm_iff.symm

theorem valueForm_iff : ValueForm v ↔ (v ≠ [] ∧ isHexStr v = true ∧ v.length % 2 = 0 ∧ v.length ≤ hweMaxResponse * 2) ∨
    v = '"' :: unquote v ++ ['"'] ∧ unquote v ≠ [] ∧ (utf8 (unquote v)).length ≤ hweMaxResponse := by
  rw [← exists_quoted_iff (P := fun t => t ≠ [] ∧ (utf8 t).length ≤ hweMaxResponse)]
  constructor
  · rintro (⟨hpos, hhex, heven, hle⟩ | ⟨t, heq, hpos, hle⟩)
    · exact Or.inl ⟨hpos, hhex, heven, hle⟩
    · exact Or.inr ⟨t, heq, hpos, hle⟩
  · rintro (⟨hpos, hhex, heven, hle⟩ | ⟨t, heq, hpos, hle⟩)
    · exact .hex hpos hhex heven hle
    · exact .quoted t heq hpos hle

instance (v : Str) : Decidable (ValueForm v) := decidable_of_iff _ valueForm_iff.symm

theorem configures_iff {sects : List (Str × List (Str × Str))} : Configures py sects ↔
    (∀ sect ∈ sects, (externDevNameToIface sect.1).isSome = true) ∧
    (∀ iface ∈ HweIface.all,
      (sects.filter fun sect => externDevNameToIface sect.1 = some iface).length ≤ hweMaxDevices) ∧
    (∀ sect ∈ sects, ∀ item ∈ sect.2, (KeyForm py item.1 ∧ '=' ∉ item.1) ∧ ValueForm item.2 ∧ '%' ∉ item.2) ∧
    ∀ sect ∈ sects, sect.2.Pairwise fun item item' =>
      ¬IsTimer py item.1 → ¬IsTimer py item'.1 → iniBytes item.1 ≠ iniBytes item'.1 := by
  constructor
  · intro h
    exact ⟨fun sect hsect => Option.isSome_iff_exists.mpr (h.names sect hsect), fun iface _ => h.count iface,
      fun sect hsect item hitem => ⟨h.keys sect hsect item hitem, h.values sect hsect item hitem⟩, h.requests⟩
  · rintro ⟨hnames, hcount, hitems, hrequests⟩
    exact ⟨fun sect hsect => Option.isSome_iff_exists.mp (hnames sect hsect), fun iface => hcount iface iface.mem_all,
      fun sect hsect item hitem => (hitems sect hsect item hitem).1,
      fun sect hsect item hitem => (hitems sect hsect item hitem).2, hrequests⟩

instance (py : Python) (sects : List (Str × List (Str × Str))) : Decidable (Configures py sects) :=
  decidable_of_iff _ configures_iff.symm

/-! ### What is loaded -/

/-- The digits stand for the bytes, all of them. -/
structure HexOf (s : Str) (b : List UInt8) : Prop where
  hex : isHexStr s = true
  length : s.length = 2 * b.length
  bytes : hexBytes s = b

/-- The text of a pair stands for the key and the value. -/
def Denotes (py : Python) (item : Str × Str) (text : Str) : Prop :=
  ∃ k v, text = k ++ '=' :: v ∧ HexOf v (iniBytes item.2) ∧
    (¬IsTimer py item.1 → HexOf k (iniBytes item.1)) ∧
    (IsTimer py item.1 → asyncKeyTime py k = asyncKeyTime py item.1)

/-- The configuration has a device for each section, with a pair for each key, in the order of the file. -/
def Preserves (py : Python) (sects : List (Str × List (Str × Str))) (cfg : Config) : Prop :=
  ∃ plan, Config.Numbered cfg plan ∧ ∀ iface,
    List.Forall₂ (fun sect texts => List.Forall₂ (Denotes py) sect.2 texts)
      (sects.filter fun sect => externDevNameToIface sect.1 = some iface) (plan iface)

/-! ### Forms -/

theorem isPySpace_hexChar : ∀ c ∈ hexChars, isPySpace c = false ∧ c ∉ ['#', ';', '[', '"'] :=
  List.all_iff_forall_prop.mp (by decide +kernel)

theorem hexChar_of_mem (h : isHexStr k = true) {c : Char} (hc : c ∈ k) : c ∈ hexChars :=
  List.contains_iff_mem.mp (List.all_eq_true.mp h c hc)

theorem not_isQuoted_of_isHexStr (h : isHexStr k = true) : isQuoted k = false := by
  rw [isQuoted, Bool.and_eq_false_iff]
  refine Or.inl ?_
  cases k with
  | nil => rfl
  | cons c k =>
      rw [← Bool.not_eq_true, startsWith_cons]
      rintro rfl
      exact (isPySpace_hexChar _ (hexChar_of_mem h List.mem_cons_self)).2 (by decide)

theorem isQuoted_quoted (t : Str) : isQuoted ('"' :: t ++ ['"']) = true := by
  rw [isQuoted, Bool.and_eq_true, List.cons_append, startsWith_cons]
  exact ⟨rfl, List.isSuffixOf_iff_suffix.mpr ⟨'"' :: t, rfl⟩⟩

theorem length_fromHex (src : List UInt8) : (fromHex src).length = src.length / 2 := by
  induction src using fromHex.induct with
  | case1 hi lo src ih =>
      rw [fromHex, List.length_cons, ih, List.length_cons, List.length_cons]
      omega
  | case2 src hshort =>
      rcases src with _ | ⟨b, _ | ⟨b', src⟩⟩
      · rfl
      · simp [fromHex]
      · exact absurd rfl (hshort b b' src)

theorem hexOf_self {s : Str} (h : isHexStr s = true) (heven : s.length % 2 = 0) : HexOf s (hexBytes s) := by
  refine ⟨h, ?_, rfl⟩
  rw [hexBytes, length_fromHex, length_utf8_of_ascii (ascii_of_isHexStr h)]
  omega

theorem ValueForm.ok (h : ValueForm v) : ValueOk v := by
  cases h with
  | hex pos hex even le =>
      have hconv := convertQuoted_of_not_isQuoted (not_isQuoted_of_isHexStr hex)
      have hlen := List.length_pos_iff.mpr pos
      refine ⟨?_, ?_, ?_, ?_⟩ <;> rw [hconv]
      · exact hex
      · exact even
      · exact hlen
      · exact le
  | quoted t eq pos le =>
      have hconv := convertQuoted_of_isQuoted (eq ▸ isQuoted_quoted t)
      have hunquote : unquote v = t := eq ▸ unquote_quoted t
      have hlen : 0 < (utf8 t).length := by
        obtain ⟨c, t', rfl⟩ := List.exists_cons_of_ne_nil pos
        rw [utf8_cons, List.length_append]
        exact Nat.add_pos_left (List.length_pos_iff.mpr String.utf8EncodeChar_ne_nil) _
      have hlength := length_bytesToHexStr (utf8 t)
      refine ⟨?_, ?_, ?_, ?_⟩ <;> rw [hconv, hunquote]
      · exact isHexStr_bytesToHexStr _
      · omega
      · omega
      · omega

theorem ValueOk.hexOf (h : ValueOk v) : HexOf (convertQuoted v) (iniBytes v) := by
  rw [← hexBytes_convertQuoted]
  exact hexOf_self h.hex h.even

theorem ValueForm.strip_eq (h : ValueForm v) : strip v = v := by
  cases h with
  | hex pos hex even le => exact strip_eq_self fun c hc => (isPySpace_hexChar c (hexChar_of_mem hex hc)).1
  | quoted t eq pos le =>
      have hspace : ¬(isPySpace '"' = true) := by decide
      rw [eq, strip, List.cons_append, List.dropWhile_cons_of_neg hspace, rstrip, List.rdropWhile_eq_self_iff]
      intro hne
      rw [List.getLast_cons (List.concat_ne_nil _ _), List.getLast_concat]
      exact hspace

/-- The units end the groups of a timer, so that it does not end in blanks. -/
theorem rstrip_of_isTimer (h : IsTimer py k) : rstrip k = k := by
  obtain ⟨t, ht⟩ := h
  obtain ⟨g, _, _, _, _, hg, _⟩ := asyncKeyTime_ok ht
  obtain ⟨rfl, _⟩ := timerGroups_split hg
  have happend : ∀ s s' : Str, (∀ c ∈ s.getLast?, isPySpace c = false) → (∀ c ∈ s'.getLast?, isPySpace c = false) →
      ∀ c ∈ (s ++ s').getLast?, isPySpace c = false := by
    intro s s' hs hs' c hc
    rw [List.getLast?_append] at hc
    rcases Option.or_eq_some_iff.mp hc with hlast | ⟨_, hlast⟩
    · exact hs' c hlast
    · exact hs c hlast
  have hgroup : ∀ (unit : Str) (o : Option Str), unit ≠ [] → (∀ c ∈ unit, isPySpace c = false) →
      ∀ c ∈ (groupText unit o).getLast?, isPySpace c = false := by
    intro unit o hne hunit c hc
    cases o with
    | none => exact absurd hc.symm (Option.some_ne_none c)
    | some digits =>
        rw [groupText, List.getLast?_append_of_ne_nil _ hne] at hc
        exact hunit c (List.mem_of_getLast? hc)
  have hcolon : ∀ c ∈ "timer:".toList.getLast?, isPySpace c = false := by
    intro c hc
    obtain rfl : ':' = c := Option.some.inj hc
    decide
  have hlast : ∀ c ∈ ("timer:".toList ++ g.body).getLast?, isPySpace c = false := by
    refine happend _ _ hcolon (happend _ _ (hgroup _ _ (by decide) (List.all_iff_forall_prop.mp (by decide))) ?_)
    refine happend _ _ (hgroup _ _ (by decide) (List.all_iff_forall_prop.mp (by decide))) ?_
    refine happend _ _ (hgroup _ _ (by decide) (List.all_iff_forall_prop.mp (by decide))) ?_
    exact hgroup _ _ (by decide) (List.all_iff_forall_prop.mp (by decide))
  rw [rstrip, List.rdropWhile_eq_self_iff]
  intro hne
  rw [hlast _ (List.getLast?_eq_some_getLast hne)]
  exact Bool.false_ne_true

theorem head_of_isTimer (h : IsTimer py k) : k.head? = some 't' := by
  obtain ⟨t, ht⟩ := h
  obtain ⟨g, _, _, _, _, hg, _⟩ := asyncKeyTime_ok ht
  obtain ⟨rfl, _⟩ := timerGroups_split hg
  rfl

theorem KeyForm.plain (h : KeyForm py k) (heq : '=' ∉ k) (hv : ValueForm v) : (IniLine.entry k v).Plain := by
  refine ⟨heq, ?_, hv.strip_eq, ?_⟩
  · cases h with
    | hex pos ok =>
        rw [rstrip, List.rdropWhile_eq_self_iff]
        intro hne
        rw [(isPySpace_hexChar _ (hexChar_of_mem ok.hex (List.getLast_mem hne))).1]
        exact Bool.false_ne_true
    | quoted t eq pos le =>
        rw [eq, rstrip, List.rdropWhile_concat_neg _ _ _ (by decide)]
    | timer ok => exact rstrip_of_isTimer ok
  · cases h with
    | hex pos ok =>
        obtain ⟨c, k', rfl⟩ := List.exists_cons_of_ne_nil pos
        have hc := (isPySpace_hexChar c (hexChar_of_mem ok.hex List.mem_cons_self)).2
        exact ⟨c, rfl, fun hmem => hc (List.mem_append_left ['"'] hmem)⟩
    | quoted t eq pos le =>
        exact ⟨'"', by rw [eq]; rfl, by decide⟩
    | timer ok => exact ⟨'t', head_of_isTimer ok, by decide⟩

/-! ### One section -/

theorem iniParts_plain (h : '%' ∉ v) : iniParts none v = v.map .char := by
  induction v with
  | nil => rfl
  | cons c v ih =>
      obtain ⟨hc, hv⟩ := not_or.mp (List.mem_cons.not.mp h)
      rw [iniParts, ih hv, List.map_cons]
      · rintro s rfl _
        exact hc rfl
      · rintro s rfl _
        exact hc rfl
      · rintro rfl
        exact hc rfl

/-- A value without `%` stands for itself. -/
theorem interpolate_plain (options : Str → Option Str) (depth : Nat) (h : '%' ∉ v) :
    interpolate py options (depth + 1) v = .ok v := by
  have hloop : ∀ accum : Str, v.foldlM (fun accum c => (Except.ok (accum ++ [c]) : Except PyError Str)) accum =
      .ok (accum ++ v) := by
    intro accum
    clear h
    induction v generalizing accum with
    | nil => rw [List.append_nil]; rfl
    | cons c v ih =>
        rw [List.foldlM_cons, Except.ok_bind, ih, List.append_assoc, List.singleton_append]
  rw [interpolate, iniParts_plain h, List.foldlM_map]
  exact hloop []

section

variable {ini : Ini} {options : Dict Str Str} {items : List (Str × Str)}

/-- The keys of a section that has nothing from the defaults. -/
theorem options_eq (hdefaults : ini.defaults = .empty)
    (hoptions : options.items = items.map fun item => (py.lower item.1, item.2)) :
    ini.options options = items.map fun item => py.lower item.1 := by
  have hkeys : options.keys = items.map fun item => py.lower item.1 := by
    rw [Dict.keys, hoptions, List.map_map]
    rfl
  rw [Ini.options, hdefaults, hkeys]
  exact List.append_nil _

/-- A key that is not quoted is taken in lower case, and stands for the same. -/
theorem KeyForm.lower_ok (h : KeyForm py k) (hplain : isQuoted k = false) :
    KeyOk py (py.lower k) ∧ py.lower (py.lower k) = py.lower k ∧
      (¬IsTimer py k → HexOf (py.lower k) (iniBytes k)) ∧ (IsTimer py k → py.lower k = k) := by
  cases h with
  | hex pos ok =>
      have hhex := @isHexStr_lower py k ok.hex
      have hlen := @length_lower py k ok.hex
      have hrequest : RequestOk (py.lower k) := ⟨hhex, hlen ▸ ok.even, hlen ▸ ok.le⟩
      refine ⟨⟨not_isQuoted_of_isHexStr hhex, Or.inl hrequest⟩, lower_lower_of_isHexStr ok.hex, fun _ => ?_,
        lower_of_isTimer⟩
      rw [iniBytes, if_neg (by rw [hplain]; exact Bool.false_ne_true), ← @hexBytes_lower py k ok.hex]
      exact hexOf_self hhex hrequest.even
  | quoted t eq pos le =>
      rw [eq, isQuoted_quoted] at hplain
      exact absurd hplain.symm Bool.false_ne_true
  | timer ok =>
      have hlower := lower_of_isTimer ok
      have hhex : isHexStr k = false := by
        obtain ⟨k', rfl⟩ := List.head?_eq_some_iff.mp (head_of_isTimer ok)
        rfl
      rw [hlower]
      exact ⟨⟨hplain, Or.inr ⟨hhex, ok⟩⟩, hlower, fun hnot => absurd ok hnot, fun _ => rfl⟩

/-- The text that a key and a value are loaded as. -/
def itemText (py : Python) (item : Str × Str) : Str := py.lower item.1 ++ '=' :: convertQuoted item.2

theorem denotes_itemText {item : Str × Str} (hkey : KeyForm py item.1) (hplain : isQuoted item.1 = false)
    (hvalue : ValueForm item.2) : Denotes py item (itemText py item) := by
  obtain ⟨_, _, hrequest, htimer⟩ := hkey.lower_ok hplain
  exact ⟨_, _, rfl, hvalue.ok.hexOf, hrequest, fun h => congrArg (asyncKeyTime py) (htimer h)⟩

/-- **The texts of a section.** -/
theorem loadTexts_eq (hdefaults : ini.defaults = .empty)
    (hoptions : options.items = items.map fun item => (py.lower item.1, item.2))
    (hkeys : ∀ item ∈ items, KeyForm py item.1 ∧ isQuoted item.1 = false)
    (hvalues : ∀ item ∈ items, ValueForm item.2 ∧ '%' ∉ item.2) :
    loadTexts py filename ini options = .ok (items.map (itemText py)) := by
  rw [loadTexts_iff, options_eq hdefaults hoptions, List.forall₂_map_left_iff, List.forall₂_map_right_iff,
    List.forall₂_same]
  intro item hitem
  obtain ⟨hkey, hplain⟩ := hkeys item hitem
  obtain ⟨hvalue, hpercent⟩ := hvalues item hitem
  obtain ⟨hok, hlower, _, _⟩ := hkey.lower_ok hplain
  refine ⟨item.2, ?_, hok, hvalue.ok, rfl⟩
  have hget : options.get? (py.lower item.1) = some item.2 := by
    rw [Dict.get?_eq_some_iff, hoptions]
    exact List.mem_map_of_mem (f := fun item : Str × Str => (py.lower item.1, item.2)) hitem
  rw [Ini.getItem, hlower, Ini.lookup, hget]
  exact interpolate_plain _ 9 hpercent

end

/-! ### All sections -/

section

variable {ini : Ini} {sects : List (Str × List (Str × Str))}

theorem exists_sect (hini : ini.Is py sects) {item : Str × Dict Str Str} (hitem : item ∈ ini.sections.items) :
    ∃ sect ∈ sects, item.1 = sect.1 ∧ item.2.items = sect.2.map fun item => (py.lower item.1, item.2) := by
  have hmem : (item.1, item.2.items) ∈ sects.map (loweredItems py) := by
    rw [← hini.sections]
    exact List.mem_map_of_mem (f := fun item : Str × Dict Str Str => (item.1, item.2.items)) hitem
  obtain ⟨sect, hsect, heq⟩ := List.mem_map.mp hmem
  obtain ⟨hname, hitems⟩ := Prod.mk.inj heq
  exact ⟨sect, hsect, hname.symm, hitems.symm⟩

theorem sectionsOf_eq (hini : ini.Is py sects) (iface : HweIface) :
    (sectionsOf ini.sections.items iface).map (fun item => (item.1, item.2.items)) =
      (sects.filter fun sect => externDevNameToIface sect.1 = some iface).map (loweredItems py) := by
  have hfilter := congrArg (List.filter fun sect => decide (externDevNameToIface sect.1 = some iface)) hini.sections
  rw [List.filter_map, List.filter_map] at hfilter
  exact hfilter

/-- The texts of the sections of an interface, in the order of the file. -/
def textsOf (py : Python) (sects : List (Str × List (Str × Str))) : Plan := fun iface =>
  (sects.filter fun sect => externDevNameToIface sect.1 = some iface).map fun sect => sect.2.map (itemText py)

/-- No key of the file is quoted. -/
def Unquoted (sects : List (Str × List (Str × Str))) : Prop :=
  ∀ sect ∈ sects, ∀ item ∈ sect.2, isQuoted item.1 = false

instance (sects : List (Str × List (Str × Str))) : Decidable (Unquoted sects) :=
  inferInstanceAs (Decidable (∀ sect ∈ sects, ∀ item ∈ sect.2, isQuoted item.1 = false))

/-- **What is loaded** of sections that were read, when no key is quoted. -/
theorem loadable_of_unquoted (hini : ini.Is py sects) (h : Configures py sects) (hplain : Unquoted sects) :
    Loadable py filename ini (fun _ => 0) ini.sections.items ∧
      planOf py filename ini ini.sections.items = textsOf py sects := by
  have htexts : ∀ item ∈ ini.sections.items, loadTexts py filename ini item.2 =
      .ok (item.2.items.map fun item => item.1 ++ '=' :: convertQuoted item.2) := by
    intro item hitem
    obtain ⟨sect, hsect, _, hitems⟩ := exists_sect hini hitem
    rw [loadTexts_eq hini.defaults hitems (fun it hit => ⟨(h.keys sect hsect it hit).1, hplain sect hsect it hit⟩)
      (h.values sect hsect), hitems, List.map_map]
    rfl
  refine ⟨⟨fun item hitem => ?_, fun iface => ?_, fun item hitem => ⟨_, htexts item hitem⟩⟩, ?_⟩
  · obtain ⟨sect, hsect, hname, _⟩ := exists_sect hini hitem
    rw [hname]
    exact h.names sect hsect
  · have hlength := congrArg List.length (sectionsOf_eq hini iface)
    rw [List.length_map, List.length_map] at hlength
    rw [Nat.zero_add, hlength]
    exact h.count iface
  · funext iface
    calc planOf py filename ini ini.sections.items iface
        = (sectionsOf ini.sections.items iface).map fun item =>
            item.2.items.map fun item => item.1 ++ '=' :: convertQuoted item.2 := by
          refine List.map_congr_left fun item hitem => ?_
          rw [htexts item (mem_of_sectionsOf hitem)]
          rfl
      _ = ((sectionsOf ini.sections.items iface).map fun item => (item.1, item.2.items)).map fun sect =>
            sect.2.map fun item => item.1 ++ '=' :: convertQuoted item.2 := by
          rw [List.map_map]
          rfl
      _ = textsOf py sects iface := by
          rw [sectionsOf_eq hini, List.map_map]
          refine List.map_congr_left fun sect _ => ?_
          rw [Function.comp_apply, loweredItems, List.map_map]
          rfl

/-- A quoted key is not loaded. -/
theorem unquoted_of_loadable (hini : ini.Is py sects) (h : Configures py sects)
    (hload : Loadable py filename ini (fun _ => 0) ini.sections.items) : Unquoted sects := by
  intro sect hsect it hit
  have hmem : loweredItems py sect ∈ ini.sections.items.map fun item => (item.1, item.2.items) := by
    rw [hini.sections]
    exact List.mem_map_of_mem hsect
  obtain ⟨item, hitem, heq⟩ := List.mem_map.mp hmem
  have hitems : item.2.items = sect.2.map fun item => (py.lower item.1, item.2) := (Prod.mk.inj heq).2
  have hforall := hload.forall₂ hitem
  rw [options_eq hini.defaults hitems, List.forall₂_map_left_iff] at hforall
  obtain ⟨i, hi, rfl⟩ := List.getElem_of_mem hit
  obtain ⟨_, _, hok, _, _⟩ := hforall.get hi (hforall.length_eq ▸ hi)
  cases (h.keys sect hsect _ hit).1 with
  | hex pos ok => exact not_isQuoted_of_isHexStr ok.hex
  | quoted t eq pos le =>
      have hplain := hok.plain
      rw [List.get_eq_getElem, eq, py.lower_quoted, isQuoted_quoted] at hplain
      exact absurd hplain.symm Bool.false_ne_true
  | timer ok =>
      have hplain := hok.plain
      rwa [List.get_eq_getElem, lower_of_isTimer ok] at hplain

end

/-! ### The file -/

section

variable {sects : List (Str × List (Str × Str))}

/-- Keys that are not the same, and do not stand for the same request, are not the same in lower case. -/
theorem lower_ne {k k' : Str} (hkey : KeyForm py k) (hkey' : KeyForm py k') (hplain : isQuoted k = false)
    (hplain' : isQuoted k' = false) (hne : k ≠ k')
    (hrequests : ¬IsTimer py k → ¬IsTimer py k' → iniBytes k ≠ iniBytes k') : py.lower k ≠ py.lower k' := by
  intro heq
  obtain ⟨_, _, hrequest, htimer⟩ := hkey.lower_ok hplain
  obtain ⟨_, _, hrequest', htimer'⟩ := hkey'.lower_ok hplain'
  have hnot : ∀ {s : Str}, IsTimer py s → isHexStr s = false := by
    intro s hs
    obtain ⟨s', rfl⟩ := List.head?_eq_some_iff.mp (head_of_isTimer hs)
    rfl
  by_cases ht : IsTimer py k
  · rw [htimer ht] at heq
    by_cases ht' : IsTimer py k'
    · exact hne (heq.trans (htimer' ht'))
    · have hhex := (hrequest' ht').hex
      rw [← heq, hnot ht] at hhex
      exact absurd hhex Bool.false_ne_true
  · by_cases ht' : IsTimer py k'
    · have hhex := (hrequest ht).hex
      rw [heq, htimer' ht', hnot ht'] at hhex
      exact absurd hhex Bool.false_ne_true
    · refine hrequests ht ht' ?_
      rw [← (hrequest ht).bytes, heq, (hrequest' ht').bytes]

/-- No section and no key of a section is written twice. -/
structure WrittenOnce (sects : List (Str × List (Str × Str))) : Prop where
  names : (sects.map Prod.fst).Nodup
  keys : ∀ sect ∈ sects, (sect.2.map Prod.fst).Nodup

instance (sects : List (Str × List (Str × Str))) : Decidable (WrittenOnce sects) :=
  decidable_of_iff ((sects.map Prod.fst).Nodup ∧ ∀ sect ∈ sects, (sect.2.map Prod.fst).Nodup)
    ⟨fun h => ⟨h.1, h.2⟩, fun h => ⟨h.names, h.keys⟩⟩

theorem writtenOnce_of_distinct (h : IniDistinct py sects) : WrittenOnce sects := by
  refine ⟨h.names, fun sect hsect => List.Nodup.of_map py.lower ?_⟩
  rw [List.map_map]
  exact h.keys sect hsect

theorem distinct_of_writtenOnce (h : Configures py sects) (hplain : Unquoted sects) (honce : WrittenOnce sects) :
    IniDistinct py sects := by
  refine ⟨honce.names, fun sect hsect => ?_⟩
  have hkeys := honce.keys sect hsect
  rw [List.Nodup, List.pairwise_map] at hkeys ⊢
  refine (hkeys.and (h.requests sect hsect)).imp_of_mem fun {item item'} hitem hitem' hboth => ?_
  exact lower_ne (h.keys sect hsect item hitem).1 (h.keys sect hsect item' hitem').1 (hplain sect hsect item hitem)
    (hplain sect hsect item' hitem') hboth.1 hboth.2

theorem plain_of_configures {ls : List IniLine} (hfirst : IniLine.entries ls = [])
    (h : Configures py (IniLine.sections ls)) : ∀ l ∈ ls, l.Plain := by
  refine IniLine.plain_of_sections (fun item hitem => ?_) fun sect hsect => ⟨?_, fun item hitem => ?_⟩
  · rw [hfirst] at hitem
    exact absurd hitem List.not_mem_nil
  · obtain ⟨iface, hiface⟩ := h.names sect hsect
    constructor
    · intro hnil
      rw [hnil] at hiface
      exact absurd hiface.symm (Option.some_ne_none iface)
    · intro hdefault
      rw [hdefault] at hiface
      exact absurd hiface.symm (Option.some_ne_none iface)
  · obtain ⟨hkey, heq⟩ := h.keys sect hsect item hitem
    exact hkey.plain heq (h.values sect hsect item hitem).1

variable {data : List UInt8} {text : Str} {ls : List IniLine} (hdata : decodeUtf8 data = .ok text)
  (hlines : List.Forall₂ IniLine.Written (pyLines (universalNewlines text)) ls) (hfirst : IniLine.entries ls = [])
  (h : Configures py (IniLine.sections ls))

include hdata hlines hfirst h

/-- **Which files are loaded**, and as what. -/
theorem loadFromIni_lines (filename : Str) :
    ((∃ cfg, loadFromIni py filename (some data) = .ok cfg) ↔
        WrittenOnce (IniLine.sections ls) ∧ Unquoted (IniLine.sections ls)) ∧
      ∀ cfg, loadFromIni py filename (some data) = .ok cfg →
        Config.Numbered cfg (textsOf py (IniLine.sections ls)) := by
  obtain ⟨hread, his⟩ := @readIni_lines py data text ls hdata hlines (plain_of_configures hfirst h) hfirst
  have hini : ∀ {cfg}, loadFromIni py filename (some data) = .ok cfg → ∃ ini, readIni py data = .ok ini := by
    intro cfg hload
    obtain ⟨ini, hini, _⟩ := Except.bind_eq_ok_iff.mp hload
    exact ⟨ini, hini⟩
  constructor
  · constructor
    · rintro ⟨cfg, hload⟩
      obtain ⟨ini, hini⟩ := hini hload
      have hloadable := (loadFromIni_iff hini).1.mp ⟨cfg, hload⟩
      exact ⟨writtenOnce_of_distinct (hread.mp ⟨ini, hini⟩), unquoted_of_loadable (his ini hini) h hloadable⟩
    · rintro ⟨honce, hplain⟩
      obtain ⟨ini, hini⟩ := hread.mpr (distinct_of_writtenOnce h hplain honce)
      exact (loadFromIni_iff hini).1.mpr (loadable_of_unquoted (his ini hini) h hplain).1
  · intro cfg hload
    obtain ⟨ini, hini⟩ := hini hload
    obtain ⟨hiff, hnumbered⟩ := @loadFromIni_iff py filename data ini hini
    have hplain := unquoted_of_loadable (his ini hini) h (hiff.mp ⟨cfg, hload⟩)
    rw [← (@loadable_of_unquoted py filename ini _ (his ini hini) h hplain).2]
    exact hnumbered cfg hload

/-- **The bytes of the file are loaded**, for each key and value in its place, exactly when no section and no
key of a section stands in the file twice, and no key is quoted. -/
theorem load_preserves_iff (filename : Str) :
    (∃ cfg, loadFromIni py filename (some data) = .ok cfg ∧ Preserves py (IniLine.sections ls) cfg) ↔
      WrittenOnce (IniLine.sections ls) ∧ Unquoted (IniLine.sections ls) := by
  obtain ⟨hiff, hnumbered⟩ := loadFromIni_lines hdata hlines hfirst h filename
  constructor
  · rintro ⟨cfg, hload, _⟩
    exact hiff.mp ⟨cfg, hload⟩
  · rintro ⟨honce, hplain⟩
    obtain ⟨cfg, hload⟩ := hiff.mpr ⟨honce, hplain⟩
    refine ⟨cfg, hload, _, hnumbered cfg hload, fun iface => ?_⟩
    rw [textsOf, List.forall₂_map_right_iff, List.forall₂_same]
    intro sect hsect
    have hmem := List.mem_of_mem_filter hsect
    rw [List.forall₂_map_right_iff, List.forall₂_same]
    intro item hitem
    exact denotes_itemText (h.keys sect hmem item hitem).1 (hplain sect hmem item hitem) (h.values sect hmem item hitem).1

end

/-! ### Two files -/

/-- The lines of `sampleText`. -/
def sampleLines : List IniLine :=
  [.heading "i2c-0".toList, .entry "0A".toList "\"x\"".toList, .entry "0b0C".toList "aaBB".toList,
    .entry "timer:1s500ms".toList "cc".toList, .heading "ttyUSB0".toList, .entry "01".toList "0203".toList,
    .heading "i2c-1".toList, .entry "timer:2s".toList "\"tick\"".toList]

theorem written_sampleLines :
    List.Forall₂ IniLine.Written (pyLines (universalNewlines sampleText)) sampleLines := by decide +kernel

theorem configures_sample : Configures samplePython (IniLine.sections sampleLines) := by decide +kernel

/-- Requests in digits of either case, responses in quotes, and timers. -/
theorem load_preserves_iff_applies : ∃ cfg,
    loadFromIni samplePython "test.ini".toList (some (utf8 sampleText)) = .ok cfg ∧
      Preserves samplePython (IniLine.sections sampleLines) cfg :=
  (load_preserves_iff (decodeUtf8_utf8 sampleText) written_sampleLines rfl configures_sample _).mpr
    ⟨by decide, by decide⟩

/-- A file with one key. -/
def quotedText : Str := "[i2c-0]\n\"ab\"=00\n".toList

/-- **A quoted key** is looked up with a name that does not exist. -/
theorem quoted_key_not_loaded : ¬∀ (py : Python) (data : List UInt8) (text filename : Str) (ls : List IniLine),
    decodeUtf8 data = .ok text → List.Forall₂ IniLine.Written (pyLines (universalNewlines text)) ls →
    IniLine.entries ls = [] → Configures py (IniLine.sections ls) →
    ∃ cfg, loadFromIni py filename (some data) = .ok cfg ∧ Preserves py (IniLine.sections ls) cfg := by
  intro hclaim
  let ls : List IniLine := [.heading "i2c-0".toList, .entry "\"ab\"".toList "00".toList]
  have hconfigures : Configures samplePython (IniLine.sections ls) := by decide +kernel
  have hlines : List.Forall₂ IniLine.Written (pyLines (universalNewlines quotedText)) ls := by decide +kernel
  obtain ⟨cfg, hload, _⟩ := hclaim samplePython _ _ "test.ini".toList _ (decodeUtf8_utf8 quotedText) hlines rfl hconfigures
  have hfails : (loadFromIni samplePython "test.ini".toList (some (utf8 quotedText))).toOption.isSome = false := by
    rw [loadFromIni, readIni, decodeUtf8_utf8]
    decide +kernel
  rw [hload] at hfails
  exact absurd hfails.symm Bool.false_ne_true

end Hwectl

end Hwemu
