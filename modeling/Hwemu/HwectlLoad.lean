import Hwemu.ConfigWrite
import Hwemu.HwectlText

/-!
# The configuration that is loaded

A file is loaded when each of its sections is. The configuration has a device for each section, with
the numbers that the sections of an interface have among themselves.
-/

namespace Hwemu

namespace Hwectl

variable {py : Python} {filename k v text : Str}

/-! ### One pair -/

/-- What `load_from_ini` makes sure of about a key: it is not quoted. -/
structure KeyOk (py : Python) (k : Str) : Prop where
  plain : isQuoted k = false
  kind : RequestOk k ∨ isHexStr k = false ∧ ∃ t, asyncKeyTime py k = .ok (.ok t)

theorem checkAsyncKey_iff : (∃ err, checkAsyncKey py k = .ok (true, err)) ↔ ∃ t, asyncKeyTime py k = .ok (.ok t) := by
  unfold checkAsyncKey
  cases htime : asyncKeyTime py k with
  | error e => simp
  | ok r =>
      cases r with
      | error err => simp [pure, Except.pure]
      | ok t => simp [pure, Except.pure]

theorem convertQuoted_of_not_isQuoted (h : isQuoted k = false) : convertQuoted k = k := by
  rw [convertQuoted, if_neg (by simp [h])]

theorem convertQuoted_of_isQuoted (h : isQuoted k = true) : convertQuoted k = bytesToHexStr (utf8 (unquote k)) := by
  rw [convertQuoted, if_pos h]

theorem checkKey_iff : checkKey py filename k = .ok () ↔ KeyOk py k := by
  cases hquoted : isQuoted k with
  | true =>
      have hconv := convertQuoted_of_isQuoted hquoted
      have hhex := isHexStr_bytesToHexStr (utf8 (unquote k))
      have hlen := length_bytesToHexStr (utf8 (unquote k))
      refine iff_of_false ?_ fun h => by rw [h.plain] at hquoted; exact Bool.false_ne_true hquoted
      simp only [checkKey, hconv, hhex, if_true, hquoted]
      split
      · simp [error]
      · rw [if_neg (by omega)]
        simp
  | false =>
      have hconv := convertQuoted_of_not_isQuoted hquoted
      unfold checkKey
      simp only [hconv]
      split
      · rename_i hhex
        simp only [hquoted, Bool.false_eq_true, if_false]
        constructor
        · intro h
          split at h
          · simp [error] at h
          · split at h
            · simp [error] at h
            · exact ⟨hquoted, Or.inl ⟨hhex, by omega, by omega⟩⟩
        · rintro ⟨_, hreq | ⟨hnot, _⟩⟩
          · have heven := hreq.even
            have hle := hreq.le
            rw [if_neg (by omega), if_neg (by omega)]
          · rw [hhex] at hnot
            exact absurd hnot (by decide)
      · rename_i hhex
        rw [Bool.not_eq_true] at hhex
        constructor
        · intro h
          obtain ⟨⟨ok, err⟩, hcheck, h⟩ := Except.bind_eq_ok_iff.mp h
          cases ok with
          | false => simp [error] at h
          | true => exact ⟨hquoted, Or.inr ⟨hhex, checkAsyncKey_iff.mp ⟨err, hcheck⟩⟩⟩
        · rintro ⟨_, hreq | ⟨_, htime⟩⟩
          · rw [hreq.hex] at hhex
            exact absurd hhex (by decide)
          · obtain ⟨err, hcheck⟩ := checkAsyncKey_iff.mpr htime
            rw [hcheck]
            rfl

theorem checkValue_iff : checkValue filename k v = .ok () ↔ ValueOk v := by
  unfold checkValue
  dsimp only
  constructor
  · intro h
    split at h
    · simp [error] at h
    · split at h
      · simp [error] at h
      · rename_i hhex
        split at h
        · simp [error] at h
        · split at h
          · simp [error] at h
          · exact ⟨by simpa using hhex, by omega, by omega, by omega⟩
  · intro h
    have heven := h.even
    have hpos := h.pos
    have hle := h.le
    rw [if_neg (by omega), h.hex, if_neg (by decide), if_neg (by omega), if_neg (by omega)]

/-- **Which pairs are loaded**, and as which text. -/
theorem loadPair_iff : loadPair py filename k v = .ok text ↔
    KeyOk py k ∧ ValueOk v ∧ text = k ++ '=' :: convertQuoted v := by
  unfold loadPair
  constructor
  · intro h
    obtain ⟨⟨⟩, hkey, h⟩ := Except.bind_eq_ok_iff.mp h
    obtain ⟨⟨⟩, hvalue, h⟩ := Except.bind_eq_ok_iff.mp h
    have hok := checkKey_iff.mp hkey
    rw [convertQuoted_of_not_isQuoted hok.plain] at h
    exact ⟨hok, checkValue_iff.mp hvalue, (Except.ok.inj h).symm⟩
  · rintro ⟨hkey, hvalue, rfl⟩
    rw [checkKey_iff.mpr hkey, checkValue_iff.mpr hvalue, convertQuoted_of_not_isQuoted hkey.plain]
    rfl

/-! ### One section -/

/-- The texts of the pairs of a section. -/
def loadTexts (py : Python) (filename : Str) (ini : Ini) (options : Dict Str Str) : Except PyError (List Str) :=
  (ini.options options).mapM fun k => do
    let v ← ini.getItem py options k
    loadPair py filename k v

def addTexts (dev : DevDict) : Nat → List Str → DevDict
  | _, [] => dev
  | i, text :: texts => addTexts (dev.set (.num i) text) (i + 1) texts

theorem get?_addTexts (dev : DevDict) (i : Nat) (texts : List Str) (m : Int) :
    (addTexts dev i texts).get? (.num m) =
      if (i : Int) ≤ m ∧ m < i + texts.length then texts[(m - i).toNat]? else dev.get? (.num m) := by
  induction texts generalizing dev i with
  | nil =>
      rw [addTexts, if_neg]
      simp only [List.length_nil]
      omega
  | cons text texts ih =>
      rw [addTexts, ih, Dict.get?_set]
      simp only [DevKey.num.injEq, List.length_cons]
      push_cast
      by_cases hm : (i : Int) = m
      · subst hm
        rw [if_neg (by omega), if_pos rfl, if_pos (by omega)]
        simp
      · rw [if_neg hm]
        by_cases hrange : (i : Int) + 1 ≤ m ∧ m < i + 1 + texts.length
        · rw [if_pos hrange, if_pos (by omega)]
          have hsub : (m - i).toNat = (m - (i + 1)).toNat + 1 := by omega
          rw [hsub, List.getElem?_cons_succ]
        · rw [if_neg hrange, if_neg (by omega)]

theorem foldlM_texts {ε α : Type} {f : α → Except ε Str} {l : List α} (dev : DevDict) (i : Nat) :
    l.foldlM (fun (st : DevDict × Nat) a => do
      let (pairs, i) := st
      let text ← f a
      return (pairs.set (.num i) text, i + 1)) (dev, i) =
      (l.mapM f).map fun texts => (addTexts dev i texts, i + texts.length) := by
  induction l generalizing dev i with
  | nil => rfl
  | cons a l ih =>
      rw [List.foldlM_cons, List.mapM_cons]
      cases hf : f a with
      | error e => rfl
      | ok text =>
          simp only [Except.ok_bind, pure, Except.pure] at ih ⊢
          rw [ih]
          cases l.mapM f with
          | error e => rfl
          | ok texts =>
              simp only [Except.map, Except.ok_bind, addTexts, List.length_cons]
              congr 2
              omega

/-- The dictionary of a section. -/
def sectionDict (sect : Str) (texts : List Str) : DevDict :=
  addTexts (Dict.empty.set (.name "_extern_dev_name".toList) sect) 0 texts

theorem get?_sectionDict (sect : Str) (texts : List Str) (m : Int) :
    (sectionDict sect texts).get? (.num m) = if 0 ≤ m ∧ m < (texts.length : Int) then texts[m.toNat]? else none := by
  have hnone : (Dict.empty.set (DevKey.name "_extern_dev_name".toList) sect).get? (.num m) = none := by
    rw [Dict.get?_set, if_neg (by simp), Dict.get?_empty]
  rw [sectionDict, get?_addTexts, hnone, Nat.cast_zero, zero_add, sub_zero]

/-- The body of the loop over the sections, when it gets to the pairs. -/
theorem loadSection_eq {ini : Ini} {cfg : Config} {devCounts : HweIface → Nat} {sect : Str}
    {options : Dict Str Str} {iface : HweIface} (hiface : externDevNameToIface sect = some iface)
    (hroom : devCounts iface ≠ hweMaxDevices) :
    loadSection py filename ini (cfg, devCounts) (sect, options) =
      (loadTexts py filename ini options).map fun texts =>
        (Dict.set (if iface ∈ cfg.keys then cfg else cfg.set iface .empty) iface
          ((((if iface ∈ cfg.keys then cfg else cfg.set iface .empty).get? iface).getD .empty).set
            (devNameStr iface (devCounts iface)) (sectionDict sect texts)),
          Function.update devCounts iface (devCounts iface + 1)) := by
  have hloop := @foldlM_texts PyError Str
    (fun k => ini.getItem py options k >>= fun v => loadPair py filename k v) (ini.options options)
    (Dict.empty.set (.name "_extern_dev_name".toList) sect) 0
  unfold loadSection
  simp only [hiface, if_neg hroom]
  simp only [bind_assoc] at hloop
  rw [hloop]
  unfold loadTexts
  cases (ini.options options).mapM fun k => ini.getItem py options k >>= fun v => loadPair py filename k v with
  | error e => rfl
  | ok texts => rfl

/-! ### All sections -/

/-- The configuration has the devices of the plan, and their numbers are counted. -/
structure Loaded (st : LoadState) (plan : Plan) : Prop where
  numbered : Config.Numbered st.1 plan
  counts : ∀ iface, st.2 iface = (plan iface).length

def addSection (plan : Plan) (iface : HweIface) (texts : List Str) : Plan :=
  Function.update plan iface (plan iface ++ [texts])

/-- The dictionary of a section has a pair for each text, in their order. -/
theorem sectionDict_nums (sect : Str) (texts : List Str) :
    ((sectionDict sect texts).keys.filterMap DevKey.num?).Perm ((List.range texts.length).map fun j : Nat => (j : Int)) ∧
      ∀ (j : Nat) text, texts[j]? = some text → (sectionDict sect texts).get? (.num j) = some text := by
  constructor
  · refine perm_range_nums fun m => ?_
    rw [← Dict.isSome_get?_iff, get?_sectionDict]
    split
    · rename_i hm
      refine iff_of_true ?_ hm
      rw [List.getElem?_eq_getElem (by omega)]
      rfl
    · rename_i hm
      exact iff_of_false (by simp) hm
  · intro j text htext
    obtain ⟨hlt, _⟩ := List.getElem?_eq_some_iff.mp htext
    rw [get?_sectionDict, if_pos (by omega), Int.toNat_natCast, htext]

/-- The entry of an interface is made when there is none, and gets another device. -/
theorem get?_setDevice (cfg : Config) (iface iface' : HweIface) (name : Str) (dev : DevDict) :
    (Dict.set (if iface ∈ cfg.keys then cfg else cfg.set iface .empty) iface
      ((((if iface ∈ cfg.keys then cfg else cfg.set iface .empty).get? iface).getD .empty).set name dev)).get? iface' =
      if iface = iface' then some (((cfg.get? iface).getD .empty).set name dev) else cfg.get? iface' := by
  have hdevs : ((if iface ∈ cfg.keys then cfg else cfg.set iface .empty).get? iface).getD .empty =
      (cfg.get? iface).getD .empty := by
    split
    · rfl
    · rename_i hnot
      rw [Dict.get?_set, if_pos rfl, Dict.get?_eq_none_iff.mpr hnot]
      rfl
  rw [hdevs, Dict.get?_set]
  split
  · rfl
  · rename_i hne
    split
    · rfl
    · rw [Dict.get?_set, if_neg hne]

section

variable {cfg : Config} {plan : Plan}

/-- The devices of an interface, when there may be none. -/
theorem keys_of_numbered (h : Config.Numbered cfg plan) (iface : HweIface) : ((cfg.get? iface).getD .empty).keys.Perm
    ((List.range (plan iface).length).map (devNameStr iface)) := by
  cases hget : cfg.get? iface with
  | none =>
      rw [h.absent iface hget]
      exact List.Perm.refl []
  | some devs => exact h.names iface devs hget

/-- A section becomes the next device of its interface. -/
theorem numbered_addSection {cfg' : Config} (h : Config.Numbered cfg plan) (iface : HweIface) (sect : Str)
    (texts : List Str) (hget : ∀ iface', cfg'.get? iface' = if iface = iface' then
      some (((cfg.get? iface).getD .empty).set (devNameStr iface (plan iface).length) (sectionDict sect texts))
      else cfg.get? iface') : Config.Numbered cfg' (addSection plan iface texts) := by
  have hkeys := keys_of_numbered h iface
  have hnew : devNameStr iface (plan iface).length ∉ ((cfg.get? iface).getD .empty).keys := by
    rw [hkeys.mem_iff, List.mem_map]
    rintro ⟨i, hi, heq⟩
    exact absurd (devNameStr_injective heq) (Nat.ne_of_lt (List.mem_range.mp hi))
  constructor
  · intro iface' hnone
    rw [hget] at hnone
    split at hnone
    · exact absurd hnone (Option.some_ne_none _)
    · rename_i hne
      rw [Hwectl.addSection, Function.update_of_ne (Ne.symm hne)]
      exact h.absent iface' hnone
  · intro iface' devs hdevs
    rw [hget] at hdevs
    split at hdevs
    · rename_i heq
      subst heq
      obtain rfl := Option.some.inj hdevs
      rw [Dict.keys_set, if_neg hnew, Hwectl.addSection, Function.update_self, List.length_append,
        List.length_singleton, List.range_succ, List.map_append]
      exact hkeys.append_right _
    · rename_i hne
      rw [Hwectl.addSection, Function.update_of_ne (Ne.symm hne)]
      exact h.names iface' devs hdevs
  · intro iface' devs i texts' hdevs hi
    rw [hget] at hdevs
    split at hdevs
    · rename_i heq
      subst heq
      obtain rfl := Option.some.inj hdevs
      rw [Hwectl.addSection, Function.update_self] at hi
      by_cases hlast : i = (plan iface).length
      · subst hlast
        rw [List.getElem?_concat_length] at hi
        obtain rfl := Option.some.inj hi
        exact ⟨sectionDict sect texts, by rw [Dict.get?_set, if_pos rfl], sectionDict_nums sect texts⟩
      · have hlt : i < (plan iface).length := by
          obtain ⟨hlt, _⟩ := List.getElem?_eq_some_iff.mp hi
          rw [List.length_append, List.length_singleton] at hlt
          omega
        rw [List.getElem?_append_left hlt] at hi
        rw [Dict.get?_set, if_neg fun heq => hlast (devNameStr_injective heq).symm]
        cases hold : cfg.get? iface with
        | none =>
            rw [h.absent iface hold] at hi
            simp at hi
        | some devs => exact h.nums iface devs i texts' hold hi
    · rename_i hne
      rw [Hwectl.addSection, Function.update_of_ne (Ne.symm hne)] at hi
      exact h.nums iface' devs i texts' hdevs hi

end

theorem Loaded.addSection {cfg : Config} {devCounts : HweIface → Nat} {plan : Plan}
    (h : Loaded (cfg, devCounts) plan) (iface : HweIface) (sect : Str) (texts : List Str) :
    Loaded (Dict.set (if iface ∈ cfg.keys then cfg else cfg.set iface .empty) iface
      ((((if iface ∈ cfg.keys then cfg else cfg.set iface .empty).get? iface).getD .empty).set
        (devNameStr iface (devCounts iface)) (sectionDict sect texts)),
      Function.update devCounts iface (devCounts iface + 1)) (addSection plan iface texts) := by
  have hcount : devCounts iface = (plan iface).length := h.counts iface
  rw [hcount]
  refine ⟨numbered_addSection h.numbered iface sect texts fun iface' => get?_setDevice cfg iface iface' _ _, ?_⟩
  intro iface'
  by_cases heq : iface' = iface
  · subst heq
    simp only [Hwectl.addSection, Function.update_self, List.length_append, List.length_singleton]
  · simp only [Hwectl.addSection, Function.update_of_ne heq]
    exact h.counts iface'

def sectionsOf (items : List (Str × Dict Str Str)) (iface : HweIface) : List (Str × Dict Str Str) :=
  items.filter fun item => externDevNameToIface item.1 = some iface

theorem sectionsOf_cons {item : Str × Dict Str Str} {iface : HweIface}
    (h : externDevNameToIface item.1 = some iface) (items : List (Str × Dict Str Str)) (iface' : HweIface) :
    sectionsOf (item :: items) iface' =
      if iface' = iface then item :: sectionsOf items iface' else sectionsOf items iface' := by
  rw [sectionsOf, List.filter_cons, h]
  by_cases heq : iface' = iface
  · subst heq
    simp only [decide_true, if_true]
    rfl
  · have hne : ¬some iface = some iface' := fun hsome => heq (Option.some.inj hsome).symm
    simp only [hne, decide_false, Bool.false_eq_true, if_false, heq]
    rfl

/-- The texts of the sections, for each interface. -/
def planOf (py : Python) (filename : Str) (ini : Ini) (items : List (Str × Dict Str Str)) : Plan := fun iface =>
  (sectionsOf items iface).map fun item => (loadTexts py filename ini item.2).toOption.getD []

/-- Each section has a valid name and valid pairs, and no interface has too many of them. -/
structure Loadable (py : Python) (filename : Str) (ini : Ini) (devCounts : HweIface → Nat)
    (items : List (Str × Dict Str Str)) : Prop where
  names : ∀ item ∈ items, ∃ iface, externDevNameToIface item.1 = some iface
  count : ∀ iface, devCounts iface + (sectionsOf items iface).length ≤ hweMaxDevices
  texts : ∀ item ∈ items, ∃ texts, loadTexts py filename ini item.2 = .ok texts

theorem loadable_cons {ini : Ini} {devCounts : HweIface → Nat} {item : Str × Dict Str Str}
    {items : List (Str × Dict Str Str)} {iface : HweIface} (hiface : externDevNameToIface item.1 = some iface) :
    Loadable py filename ini devCounts (item :: items) ↔
      (∃ texts, loadTexts py filename ini item.2 = .ok texts) ∧
        Loadable py filename ini (Function.update devCounts iface (devCounts iface + 1)) items := by
  have hcount : (∀ iface', devCounts iface' + (sectionsOf (item :: items) iface').length ≤ hweMaxDevices) ↔
      ∀ iface', Function.update devCounts iface (devCounts iface + 1) iface' +
        (sectionsOf items iface').length ≤ hweMaxDevices := by
    refine forall_congr' fun iface' => ?_
    rw [sectionsOf_cons hiface]
    by_cases heq : iface' = iface
    · subst heq
      rw [if_pos rfl, Function.update_self, List.length_cons]
      omega
    · rw [if_neg heq, Function.update_of_ne heq]
  constructor
  · rintro ⟨hnames, hmax, htexts⟩
    rw [List.forall_mem_cons] at hnames htexts
    exact ⟨htexts.1, hnames.2, hcount.mp hmax, htexts.2⟩
  · rintro ⟨htexts, hnames, hmax, hrest⟩
    exact ⟨List.forall_mem_cons.mpr ⟨⟨iface, hiface⟩, hnames⟩, hcount.mpr hmax,
      List.forall_mem_cons.mpr ⟨htexts, hrest⟩⟩

/-- **The loop over the sections** gets to its end when all of them can be loaded, and then it has loaded
all of them. -/
theorem loadSections {ini : Ini} {st : LoadState} {plan : Plan} (h : Loaded st plan)
    (hmax : ∀ iface, st.2 iface ≤ hweMaxDevices) (items : List (Str × Dict Str Str)) :
    ((∃ st', items.foldlM (loadSection py filename ini) st = .ok st') ↔ Loadable py filename ini st.2 items) ∧
      ∀ st', items.foldlM (loadSection py filename ini) st = .ok st' →
        Loaded st' fun iface => plan iface ++ planOf py filename ini items iface := by
  induction items generalizing st plan with
  | nil =>
      refine ⟨iff_of_true ⟨st, rfl⟩ ⟨by simp, hmax, by simp⟩, ?_⟩
      intro st' hst'
      obtain rfl := Except.ok.inj hst'
      have hplan : (fun iface => plan iface ++ planOf py filename ini [] iface) = plan := by
        funext iface
        exact List.append_nil _
      rwa [hplan]
  | cons item items ih =>
      obtain ⟨cfg, devCounts⟩ := st
      obtain ⟨sect, options⟩ := item
      -- a section that is not loaded ends the loop
      have hfail : (∃ e, loadSection py filename ini (cfg, devCounts) (sect, options) = .error e) →
          ¬Loadable py filename ini devCounts ((sect, options) :: items) →
          ((∃ st', ((sect, options) :: items).foldlM (loadSection py filename ini) (cfg, devCounts) = .ok st') ↔
            Loadable py filename ini devCounts ((sect, options) :: items)) ∧
          ∀ st', ((sect, options) :: items).foldlM (loadSection py filename ini) (cfg, devCounts) = .ok st' →
            Loaded st' fun iface => plan iface ++ planOf py filename ini ((sect, options) :: items) iface := by
        rintro ⟨e, herror⟩ hnot
        rw [List.foldlM_cons, herror]
        exact ⟨iff_of_false (by simp) hnot, by simp⟩
      cases hiface : externDevNameToIface sect with
      | none =>
          refine hfail ⟨_, by simp only [loadSection, hiface, error]; rfl⟩ fun hload => ?_
          obtain ⟨iface, hsome⟩ := hload.names _ List.mem_cons_self
          rw [hiface] at hsome
          simp at hsome
      | some iface =>
          by_cases hroom : devCounts iface = hweMaxDevices
          · refine hfail ⟨_, by simp only [loadSection, hiface, if_pos hroom, error]; rfl⟩ fun hload => ?_
            have hcount := hload.count iface
            rw [sectionsOf_cons hiface, if_pos rfl, List.length_cons] at hcount
            omega
          · have heq := @loadSection_eq py filename ini cfg devCounts sect options iface hiface hroom
            cases htexts : loadTexts py filename ini options with
            | error e =>
                rw [htexts] at heq
                refine hfail ⟨_, heq⟩ fun hload => ?_
                obtain ⟨texts, hok⟩ := hload.texts _ List.mem_cons_self
                rw [htexts] at hok
                simp at hok
            | ok texts =>
                rw [htexts] at heq
                have hbound : ∀ iface',
                    Function.update devCounts iface (devCounts iface + 1) iface' ≤ hweMaxDevices := by
                  intro iface'
                  have hle := hmax iface'
                  by_cases hsame : iface' = iface
                  · subst hsame
                    rw [Function.update_self]
                    dsimp only at hle
                    omega
                  · rw [Function.update_of_ne hsame]
                    exact hle
                obtain ⟨hiff, hloaded⟩ := ih (h.addSection iface sect texts) hbound
                have hcons : ((sect, options) :: items).foldlM (loadSection py filename ini) (cfg, devCounts) =
                    items.foldlM (loadSection py filename ini) _ :=
                  (List.foldlM_cons ..).trans (by rw [heq]; rfl)
                rw [hcons, loadable_cons hiface]
                refine ⟨hiff.trans ⟨fun hload => ⟨⟨texts, htexts⟩, hload⟩, fun hload => hload.2⟩, ?_⟩
                intro st' hst'
                have hplan : (fun iface' => addSection plan iface texts iface' ++
                    planOf py filename ini items iface') =
                    fun iface' => plan iface' ++ planOf py filename ini ((sect, options) :: items) iface' := by
                  funext iface'
                  rw [planOf, planOf, sectionsOf_cons hiface, addSection]
                  by_cases hsame : iface' = iface
                  · subst hsame
                    rw [Function.update_self, if_pos rfl, List.map_cons, htexts, List.append_assoc]
                    rfl
                  · rw [Function.update_of_ne hsame, if_neg hsame]
                rw [← hplan]
                exact hloaded st' hst'

/-- **What is loaded from a file**: the devices of its sections, with the texts of their pairs. -/
theorem loadFromIni_iff {data : List UInt8} {ini : Ini} (hini : readIni py data = .ok ini) :
    ((∃ cfg, loadFromIni py filename (some data) = .ok cfg) ↔
        Loadable py filename ini (fun _ => 0) ini.sections.items) ∧
      ∀ cfg, loadFromIni py filename (some data) = .ok cfg →
        Config.Numbered cfg (planOf py filename ini ini.sections.items) := by
  have hempty : Loaded (Dict.empty, fun _ => 0) fun _ => [] := by
    refine ⟨⟨fun _ _ => rfl, ?_, ?_⟩, fun _ => rfl⟩
    · intro iface devs hget
      simp at hget
    · intro iface devs i texts hget
      simp at hget
  obtain ⟨hiff, hloaded⟩ := @loadSections py filename ini _ _ hempty (fun _ => Nat.zero_le _) ini.sections.items
  unfold loadFromIni
  simp only [hini, Except.ok_bind]
  constructor
  · rw [← hiff]
    constructor
    · rintro ⟨cfg, h⟩
      obtain ⟨st', hrun, _⟩ := Except.bind_eq_ok_iff.mp h
      exact ⟨st', hrun⟩
    · rintro ⟨st', hrun⟩
      exact ⟨st'.1, by rw [hrun]; rfl⟩
  · intro cfg h
    obtain ⟨st', hrun, hcfg⟩ := Except.bind_eq_ok_iff.mp h
    obtain rfl := Except.ok.inj hcfg
    exact (hloaded st' hrun).numbered

end Hwectl

end Hwemu
