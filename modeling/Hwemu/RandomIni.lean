import Hwemu.LoadedBytes

/-!
# A configuration written as a file

`cmd_random_ini` writes a configuration with the external names of its devices, `load_from_ini` gives the
devices their names again. What `config_to_str` prints of it is the same before and after.
-/

namespace Hwemu

variable {py : Python}

/-! ### Printing a configuration -/

/-- `traverse_config` with a callback for the interfaces too. -/
def traverseConfigIfaces {σ : Type} (py : Python) (onIface : HweIface → σ → Except PyError σ)
    (onDev : HweIface → Str → σ → Except PyError σ) (onPair : HweIface → Str → Int → Str → σ → Except PyError σ)
    (config : Config) (s : σ) : Except PyError σ :=
  config.items.foldlM (fun s (iface, devs) => do
    let s ← onIface iface s
    traverseDevs py onDev onPair iface devs s) s

/-- `'%d' % n`. -/
def intStr (n : Int) : Str := if n < 0 then '-' :: natStr n.natAbs else natStr n.toNat

def configToStr (py : Python) (config : Config) : Except PyError Str :=
  traverseConfigIfaces py (fun iface ret => .ok (ret ++ ifaceName iface ++ ['\n']))
    (fun iface devName ret => .ok (ret ++ ifaceName iface ++ '/' :: devName ++ ['\n']))
    (fun _ _ pairNum pair ret => .ok (ret ++ intStr pairNum ++ '\t' :: pair ++ ['\n'])) config []

namespace Hwectl

/-- `on_dev` of `cmd_random_ini`; the state is `txt` and `empty_line`. -/
def randomIniDev (iface : HweIface) (devName : Str) (st : Str × Bool) : Except PyError (Str × Bool) :=
  match externDevNamePrefixes.lookup iface with
  | none => .error .keyError
  | some pfx =>
      let sect := pfx ++ devName.drop (ifaceName iface).length
      .ok (st.1 ++ (if st.2 then ['\n'] else []) ++ '[' :: (sect ++ [']', '\n']), true)

/-- `on_pair` of `cmd_random_ini`. -/
def randomIniPair (_ : HweIface) (_ : Str) (_ : Int) (pair : Str) (st : Str × Bool) : Except PyError (Str × Bool) :=
  .ok (st.1 ++ pair ++ ['\n'], st.2)

/-- `cmd_random_ini` with the configuration that was drawn; the file is there already or is written. -/
def cmdRandomIni (py : Python) (filename : Str) (file : Option (List UInt8)) (cfg : Config) :
    Except PyError (List UInt8) :=
  match file with
  | some _ => .error (.raised (filename ++ ": file already exists".toList))
  | none => do
      let (txt, _) ← traverseConfig py randomIniDev randomIniPair cfg ([], false)
      return utf8 txt

/-! ### What is drawn -/

/-- The bytes of the requests and responses of the pairs of a device. -/
abbrev DrawnPairs := List (List UInt8 × List UInt8)

/-- `rand_pair_str`. -/
def pairText (p : List UInt8 × List UInt8) : Str := bytesToHexStr p.1 ++ '=' :: bytesToHexStr p.2

/-- The texts of what was drawn. -/
def drawnPlan (drawn : HweIface → List DrawnPairs) : Plan := fun iface => (drawn iface).map fun pairs => pairs.map pairText

/-- What `rand_config` draws: at least one device and at most `HWE_MAX_DEVICES` for an interface,
bytes within the limits, and no request twice in a device. -/
structure Drawable (drawn : HweIface → List DrawnPairs) : Prop where
  some_dev : ∀ iface, drawn iface ≠ []
  devs : ∀ iface, (drawn iface).length ≤ hweMaxDevices
  requests : ∀ iface, ∀ pairs ∈ drawn iface, (pairs.map Prod.fst).Nodup
  limits : ∀ iface, ∀ pairs ∈ drawn iface, ∀ p ∈ pairs,
    (p.1 ≠ [] ∧ p.1.length ≤ hweMaxRequest) ∧ (p.2 ≠ [] ∧ p.2.length ≤ hweMaxResponse)

/-- A configuration as `rand_config` makes it: all interfaces in order, each with devices and pairs that are
numbered from 0. -/
structure RandConfig (drawn : HweIface → List DrawnPairs) (config : Config) : Prop extends Drawable drawn where
  ifaces : config.keys = ifacesOrder
  numbered : Config.Numbered config (drawnPlan drawn)

/-- `rand_pair_str_list`. -/
def randPairStrList (pairs : DrawnPairs) : DevDict :=
  Dict.setAll (fun i : Nat => .num i) (fun i => pairText (pairs[i]?.getD ([], []))) (List.range pairs.length) .empty

/-- `rand_dev_list`. -/
def randDevList (pfx : HweIface) (devs : List DrawnPairs) : Dict Str DevDict :=
  Dict.setAll (devNameStr pfx) (fun i => randPairStrList (devs[i]?.getD [])) (List.range devs.length) .empty

/-- `rand_config`, with what was drawn. -/
def randConfig (drawn : HweIface → List DrawnPairs) : Config :=
  Dict.setAll id (fun ifc => randDevList ifc (drawn ifc)) ifacesOrder .empty

/-- **What `rand_config` makes.** -/
theorem randConfig_shape {drawn : HweIface → List DrawnPairs} (h : Drawable drawn) : RandConfig drawn (randConfig drawn) := by
  have hkeys : (randConfig drawn).keys = ifacesOrder :=
    (Dict.keys_setAll (d := .empty) (by decide)).trans (List.map_id ifacesOrder)
  have hget : ∀ iface, (randConfig drawn).get? iface = some (randDevList iface (drawn iface)) := fun iface =>
    Dict.get?_setAll_of_mem (fun _ _ _ _ heq => heq) (mem_ifacesOrder iface)
  have hnames : ∀ iface, (randDevList iface (drawn iface)).keys =
      (List.range (drawn iface).length).map (devNameStr iface) := fun iface =>
    Dict.keys_setAll (d := .empty) (List.nodup_range.map fun _ _ heq => devNameStr_injective heq)
  refine ⟨h, hkeys, fun iface hnone => ?_, fun iface devs hdevs => ?_, fun iface devs i texts hdevs htexts => ?_⟩
  · rw [hget] at hnone
    exact absurd hnone (Option.some_ne_none _)
  · obtain rfl := Option.some.inj ((hget iface).symm.trans hdevs)
    rw [hnames, drawnPlan, List.length_map]
  · obtain rfl := Option.some.inj ((hget iface).symm.trans hdevs)
    rw [drawnPlan, List.getElem?_map, Option.map_eq_some_iff] at htexts
    obtain ⟨pairs, hpairs, rfl⟩ := htexts
    obtain ⟨hi, _⟩ := List.getElem?_eq_some_iff.mp hpairs
    refine ⟨randPairStrList pairs, ?_, ?_, fun j text htext => ?_⟩
    · have hdev : (randDevList iface (drawn iface)).get? (devNameStr iface i) =
          some (randPairStrList ((drawn iface)[i]?.getD [])) :=
        Dict.get?_setAll_of_mem (fun _ _ _ _ heq => devNameStr_injective heq) (List.mem_range.mpr hi)
      rwa [hpairs] at hdev
    · have hnums : (randPairStrList pairs).keys = (List.range pairs.length).map fun j : Nat => DevKey.num j :=
        Dict.keys_setAll (d := .empty) (List.nodup_range.map fun _ _ heq => Int.ofNat.inj (DevKey.num.inj heq))
      rw [hnums, List.filterMap_map, List.length_map]
      exact List.Perm.of_eq (congrFun List.filterMap_eq_map _)
    · obtain ⟨p, hp, rfl⟩ := Option.map_eq_some_iff.mp (List.getElem?_map.symm.trans htext)
      obtain ⟨hj, _⟩ := List.getElem?_eq_some_iff.mp hp
      have hpair : (randPairStrList pairs).get? (.num (j : Int)) = some (pairText (pairs[j]?.getD ([], []))) :=
        @Dict.get?_setAll_of_mem _ _ _ _ _ (fun i : Nat => DevKey.num i) _ _
          (fun _ _ _ _ heq => Int.ofNat.inj (DevKey.num.inj heq)) j (List.mem_range.mpr hj)
      rwa [hp] at hpair

/-! ### What is printed -/

theorem traverseConfigIfaces_eq {σ : Type} {onIface : HweIface → σ → Except PyError σ}
    {onDev : HweIface → Str → σ → Except PyError σ} {onPair : HweIface → Str → Int → Str → σ → Except PyError σ}
    {config : Config} {plan : Plan} (h : Config.Numbered config plan)
    (hmax : ∀ iface, (plan iface).length ≤ hweMaxDevices) (s : σ) :
    traverseConfigIfaces py onIface onDev onPair config s = config.keys.foldlM (fun s iface => do
      let s ← onIface iface s
      (List.range (plan iface).length).foldlM (visitDev onDev onPair plan iface) s) s := by
  change _ = (config.items.map Prod.fst).foldlM _ s
  unfold traverseConfigIfaces
  rw [List.foldlM_map]
  refine Except.foldlM_congr ?_ s
  rintro ⟨iface, devs⟩ hitem s
  dsimp only
  congr 1
  funext s
  exact traverseDevs_eq py h (hmax iface) (Dict.get?_eq_some_iff.mpr hitem) s

/-- Configurations with the same interfaces and texts look the same. -/
theorem configToStr_congr {config config' : Config} {plan : Plan} (h : Config.Numbered config plan)
    (h' : Config.Numbered config' plan) (hmax : ∀ iface, (plan iface).length ≤ hweMaxDevices)
    (hkeys : config'.keys = config.keys) : configToStr py config' = configToStr py config := by
  unfold configToStr
  rw [traverseConfigIfaces_eq h hmax, traverseConfigIfaces_eq h' hmax, hkeys]

theorem configToStr_ok {config : Config} {plan : Plan} (h : Config.Numbered config plan)
    (hmax : ∀ iface, (plan iface).length ≤ hweMaxDevices) : ∃ text, configToStr py config = .ok text := by
  unfold configToStr
  rw [traverseConfigIfaces_eq h hmax]
  refine Except.foldlM_total (fun s iface => ?_) []
  refine Except.foldlM_total (fun s i => ?_) _
  exact Except.foldlM_total (fun s j => ⟨_, rfl⟩) _

/-! ### The file that is written -/

def externPrefix (iface : HweIface) : Str := (externDevNamePrefixes.lookup iface).getD []

theorem lookup_externPrefix (iface : HweIface) : externDevNamePrefixes.lookup iface = some (externPrefix iface) := by
  cases iface <;> rfl

variable {drawn : HweIface → List DrawnPairs} {config : Config}

def drawnPairs (drawn : HweIface → List DrawnPairs) (iface : HweIface) (i : Nat) : DrawnPairs := (drawn iface)[i]?.getD []

/-- The section of a device. -/
def sectOf (drawn : HweIface → List DrawnPairs) (iface : HweIface) (i : Nat) : Str × List (Str × Str) :=
  (externPrefix iface ++ natStr i, (drawnPairs drawn iface i).map fun p => (bytesToHexStr p.1, bytesToHexStr p.2))

def sectsOf (drawn : HweIface → List DrawnPairs) : List (Str × List (Str × Str)) :=
  ifacesOrder.flatMap fun iface => (List.range (drawn iface).length).map (sectOf drawn iface)

def sectLines (sect : Str × List (Str × Str)) : List IniLine :=
  .heading sect.1 :: sect.2.map fun item => .entry item.1 item.2

/-- The lines of the file: an empty one before each section but the first. -/
def fileLines : List (Str × List (Str × Str)) → List IniLine
  | [] => []
  | sect :: sects => sectLines sect ++ sects.flatMap fun sect => .skip :: sectLines sect

/-- What `cmd_random_ini` appends for a device and its pairs. -/
def addSect (st : Str × Bool) (sect : Str × List (Str × Str)) : Str × Bool :=
  (st.1 ++ (if st.2 then ['\n'] else []) ++ IniLine.fileText (sectLines sect), true)

theorem map_getD_range {α : Type} (l : List α) (a : α) : ((List.range l.length).map fun j => l[j]?.getD a) = l := by
  refine List.ext_getElem (by rw [List.length_map, List.length_range]) fun j hj hj' => ?_
  rw [List.getElem_map, List.getElem_range, List.getElem?_eq_getElem hj', Option.getD_some]

theorem texts_drawnPlan (iface : HweIface) (i : Nat) :
    (drawnPlan drawn).texts iface i = (drawnPairs drawn iface i).map pairText := by
  rw [Plan.texts, drawnPlan, List.getElem?_map, drawnPairs]
  cases (drawn iface)[i]? with
  | none => rfl
  | some pairs => rfl

/-- One device with its pairs. -/
theorem visitDev_random (iface : HweIface) (st : Str × Bool) (i : Nat) :
    visitDev randomIniDev randomIniPair (drawnPlan drawn) iface st i = .ok (addSect st (sectOf drawn iface i)) := by
  have hpairs : ∀ (texts : List Str) (st : Str × Bool),
      texts.foldl (fun (st : Str × Bool) text => (st.1 ++ text ++ ['\n'], st.2)) st =
        (st.1 ++ texts.flatMap (fun text => text ++ ['\n']), st.2) := by
    intro texts
    induction texts with
    | nil => exact fun st => Prod.ext (List.append_nil _).symm rfl
    | cons text texts ih =>
        intro st
        rw [List.foldl_cons, ih, List.flatMap_cons, ← List.append_assoc, List.append_assoc st.1]
  have htexts : (List.range ((drawnPlan drawn).texts iface i).length).map ((drawnPlan drawn).text iface i) =
      (drawnPairs drawn iface i).map pairText := by
    rw [← texts_drawnPlan]
    exact map_getD_range _ _
  have hsect : IniLine.fileText (sectLines (sectOf drawn iface i)) =
      '[' :: (externPrefix iface ++ natStr i ++ [']', '\n']) ++
        ((drawnPairs drawn iface i).map pairText).flatMap fun text => text ++ ['\n'] := by
    rw [sectLines, sectOf, List.map_map, IniLine.fileText, List.flatMap_cons, List.flatMap_map, List.flatMap_map,
      IniLine.text, List.cons_append, List.append_assoc _ [']'], List.singleton_append]
    rfl
  have hname : (devNameStr iface i).drop (ifaceName iface).length = natStr i := by
    rw [devNameStr, List.drop_left]
  rw [visitDev, randomIniDev, lookup_externPrefix, hname]
  dsimp only
  rw [Except.ok_bind]
  refine (Except.foldlM_ok (fun _ _ _ => rfl) _).trans ?_
  rw [← List.foldl_map (f := (drawnPlan drawn).text iface i)
    (g := fun (st : Str × Bool) text => (st.1 ++ text ++ ['\n'], st.2)), htexts, hpairs,
    addSect, hsect, List.append_assoc (st.1 ++ _)]

theorem RandConfig.length_plan (h : RandConfig drawn config) (iface : HweIface) :
    (drawnPlan drawn iface).length ≤ hweMaxDevices := by
  rw [drawnPlan, List.length_map]
  exact h.devs iface

theorem fileText_append (ls ls' : List IniLine) :
    IniLine.fileText (ls ++ ls') = IniLine.fileText ls ++ IniLine.fileText ls' := List.flatMap_append

theorem foldl_addSect (sects : List (Str × List (Str × Str))) (txt : Str) :
    (sects.foldl addSect (txt, true)).1 = txt ++ IniLine.fileText (sects.flatMap fun sect => .skip :: sectLines sect) := by
  induction sects generalizing txt with
  | nil => exact (List.append_nil txt).symm
  | cons sect sects ih =>
      rw [List.foldl_cons, addSect, if_pos rfl, ih, List.flatMap_cons, fileText_append, List.append_assoc,
        List.append_assoc]
      rfl

/-- **What `cmd_random_ini` writes.** -/
theorem cmdRandomIni_eq (filename : Str) (h : RandConfig drawn config) :
    cmdRandomIni py filename none config = .ok (utf8 (IniLine.fileText (fileLines (sectsOf drawn)))) := by
  have hiface : ∀ (st : Str × Bool), ∀ iface ∈ ifacesOrder,
      (List.range (drawnPlan drawn iface).length).foldlM (visitDev randomIniDev randomIniPair (drawnPlan drawn) iface) st =
        .ok (((List.range (drawn iface).length).map (sectOf drawn iface)).foldl addSect st) := by
    intro st iface _
    rw [List.foldl_map, drawnPlan, List.length_map]
    exact Except.foldlM_ok (fun st i _ => visitDev_random iface st i) st
  have hfold : ((sectsOf drawn).foldl addSect ([], false)).1 = IniLine.fileText (fileLines (sectsOf drawn)) := by
    cases sectsOf drawn with
    | nil => rfl
    | cons sect sects =>
        rw [List.foldl_cons, addSect, if_neg Bool.false_ne_true, foldl_addSect, fileLines, fileText_append]
        rfl
  rw [cmdRandomIni]
  dsimp only
  rw [traverseConfig_eq py h.numbered h.length_plan, h.ifaces, Except.foldlM_ok hiface, Except.ok_bind,
    ← List.foldl_flatMap]
  exact congrArg (fun txt => Except.ok (utf8 txt)) hfold

/-! ### The file that is read -/

theorem entries_append (items : List (Str × Str)) (ls : List IniLine) :
    IniLine.entries (items.map (fun item => .entry item.1 item.2) ++ ls) = items ++ IniLine.entries ls := by
  induction items with
  | nil => rfl
  | cons item items ih => exact congrArg (List.cons item) ih

theorem sections_append (items : List (Str × Str)) (ls : List IniLine) :
    IniLine.sections (items.map (fun item => .entry item.1 item.2) ++ ls) = IniLine.sections ls := by
  induction items with
  | nil => rfl
  | cons item items ih => exact ih

theorem sections_sectLines (sect : Str × List (Str × Str)) {ls : List IniLine} (h : IniLine.entries ls = []) :
    IniLine.sections (sectLines sect ++ ls) = sect :: IniLine.sections ls := by
  rw [sectLines, List.cons_append, IniLine.sections, entries_append, sections_append, h, List.append_nil]

theorem entries_rest (sects : List (Str × List (Str × Str))) :
    IniLine.entries (sects.flatMap fun sect => .skip :: sectLines sect) = [] := by
  cases sects with
  | nil => rfl
  | cons sect sects => rfl

theorem sections_rest (sects : List (Str × List (Str × Str))) :
    IniLine.sections (sects.flatMap fun sect => .skip :: sectLines sect) = sects := by
  induction sects with
  | nil => rfl
  | cons sect sects ih =>
      rw [List.flatMap_cons, List.cons_append, IniLine.sections, sections_sectLines sect (entries_rest sects), ih]

/-- The sections of the file are those that were written. -/
theorem sections_fileLines (sects : List (Str × List (Str × Str))) :
    IniLine.entries (fileLines sects) = [] ∧ IniLine.sections (fileLines sects) = sects := by
  cases sects with
  | nil => exact ⟨rfl, rfl⟩
  | cons sect sects =>
      refine ⟨rfl, ?_⟩
      rw [fileLines, sections_sectLines sect (entries_rest sects), sections_rest]

theorem mem_sectsOf {sect : Str × List (Str × Str)} :
    sect ∈ sectsOf drawn ↔ ∃ iface i, i < (drawn iface).length ∧ sectOf drawn iface i = sect := by
  rw [sectsOf, List.mem_flatMap]
  constructor
  · rintro ⟨iface, _, hmem⟩
    obtain ⟨i, hi, rfl⟩ := List.mem_map.mp hmem
    exact ⟨iface, i, List.mem_range.mp hi, rfl⟩
  · rintro ⟨iface, i, hi, rfl⟩
    exact ⟨iface, mem_ifacesOrder iface, List.mem_map_of_mem (List.mem_range.mpr hi)⟩

/-- **The external name of a device names its interface.** -/
theorem externDevNameToIface_sectOf (iface : HweIface) (i : Nat) :
    externDevNameToIface (sectOf drawn iface i).1 = some iface := by
  cases iface <;> rfl

theorem mem_drawnPairs {iface : HweIface} {i : Nat} (hi : i < (drawn iface).length) :
    drawnPairs drawn iface i ∈ drawn iface := by
  rw [drawnPairs, List.getElem?_eq_getElem hi]
  exact List.getElem_mem hi

/-- What is printed of bytes is digits in lower case. -/
theorem lower_bytesToHexStr (b : List UInt8) : py.lower (bytesToHexStr b) = bytesToHexStr b := by
  have hbyte : ∀ x : UInt8, (hexChar (x.toNat / 16)).isUpper = false ∧ (hexChar (x.toNat % 16)).isUpper = false :=
    forall_byte (by decide +kernel)
  refine py.lower_eq_self _ fun c hc => Or.inl ⟨ascii_of_isHexStr (isHexStr_bytesToHexStr b) c hc, ?_⟩
  obtain ⟨x, _, hx⟩ := List.mem_flatMap.mp hc
  rcases List.mem_pair.mp hx with rfl | rfl
  · exact (hbyte x).1
  · exact (hbyte x).2

theorem bytesToHexStr_injective : Function.Injective bytesToHexStr :=
  Function.LeftInverse.injective hexBytes_bytesToHexStr

theorem bytesToHexStr_ne_nil {b : List UInt8} (h : b ≠ []) : bytesToHexStr b ≠ [] := by
  refine List.ne_nil_of_length_pos ?_
  rw [length_bytesToHexStr]
  exact Nat.mul_pos Nat.two_pos (List.length_pos_iff.mpr h)

theorem notMem_bytesToHexStr {c : Char} (b : List UInt8) (hc : c ∉ hexChars) : c ∉ bytesToHexStr b :=
  fun hmem => hc (hexChar_of_mem (isHexStr_bytesToHexStr b) hmem)

theorem iniBytes_bytesToHexStr (b : List UInt8) : iniBytes (bytesToHexStr b) = b := by
  rw [iniBytes, not_isQuoted_of_isHexStr (isHexStr_bytesToHexStr b), if_neg Bool.false_ne_true, hexBytes_bytesToHexStr]

/-- An item of a section was drawn. -/
theorem mem_sectOf {iface : HweIface} {i : Nat} {item : Str × Str} (hitem : item ∈ (sectOf drawn iface i).2) :
    ∃ p ∈ drawnPairs drawn iface i, (bytesToHexStr p.1, bytesToHexStr p.2) = item := List.mem_map.mp hitem

theorem filter_sectsOf (iface : HweIface) :
    (sectsOf drawn).filter (fun sect => externDevNameToIface sect.1 = some iface) =
      (List.range (drawn iface).length).map (sectOf drawn iface) := by
  have hblock : ∀ iface', ((List.range (drawn iface').length).map (sectOf drawn iface')).filter
      (fun sect => externDevNameToIface sect.1 = some iface) =
      if iface' = iface then (List.range (drawn iface).length).map (sectOf drawn iface) else [] := by
    intro iface'
    by_cases heq : iface' = iface
    · subst heq
      rw [if_pos rfl, List.filter_eq_self]
      intro sect hsect
      obtain ⟨i, _, rfl⟩ := List.mem_map.mp hsect
      exact decide_eq_true (externDevNameToIface_sectOf iface' i)
    · rw [if_neg heq, List.filter_eq_nil_iff]
      intro sect hsect
      obtain ⟨i, _, rfl⟩ := List.mem_map.mp hsect
      rw [externDevNameToIface_sectOf, decide_eq_true_eq]
      exact fun hsome => heq (Option.some.inj hsome)
  rw [sectsOf, List.filter_flatMap]
  simp only [hblock]
  cases iface <;> simp [ifacesOrder]

/-- No blanks are written. -/
theorem solid_fileLines : ∀ l ∈ fileLines (sectsOf drawn), ∀ c ∈ l.text, isPySpace c = false := by
  have hhex : ∀ (b : List UInt8), ∀ c ∈ bytesToHexStr b, isPySpace c = false := fun b c hc =>
    (isPySpace_hexChar c (hexChar_of_mem (isHexStr_bytesToHexStr b) hc)).1
  have hpfx : ∀ (iface : HweIface), ∀ c ∈ externPrefix iface, isPySpace c = false := by
    intro iface
    cases iface <;> exact List.all_iff_forall_prop.mp (by decide)
  have hname : ∀ (iface : HweIface) (i : Nat), ∀ c ∈ externPrefix iface ++ natStr i, isPySpace c = false := by
    intro iface i c hc
    rcases List.mem_append.mp hc with hprefix | hdigit
    · exact hpfx iface c hprefix
    · obtain ⟨ds, _, hlt, heq, _⟩ := natStr_eq i
      rw [heq] at hdigit
      obtain ⟨d, hd, rfl⟩ := List.mem_map.mp hdigit
      exact (digitChar_spec (hlt d hd)).2.2.2
  have hsect : ∀ sect ∈ sectsOf drawn, ∀ l ∈ sectLines sect, ∀ c ∈ l.text, isPySpace c = false := by
    intro sect hsect l hl
    obtain ⟨iface, i, _, rfl⟩ := mem_sectsOf.mp hsect
    rcases List.mem_cons.mp hl with rfl | hentry
    · intro c hc
      rcases List.mem_cons.mp hc with rfl | hrest
      · decide
      · rcases List.mem_append.mp hrest with hmem | hmem
        · exact hname iface i c hmem
        · rw [List.mem_singleton.mp hmem]
          decide
    · obtain ⟨item, hitem, rfl⟩ := List.mem_map.mp hentry
      obtain ⟨p, _, rfl⟩ := mem_sectOf hitem
      intro c hc
      rcases List.mem_append.mp hc with hmem | hmem
      · exact hhex p.1 c hmem
      · rcases List.mem_cons.mp hmem with rfl | hmem
        · decide
        · exact hhex p.2 c hmem
  intro l hl
  cases hsects : sectsOf drawn with
  | nil =>
      rw [hsects] at hl
      exact absurd hl List.not_mem_nil
  | cons sect sects =>
      rw [hsects] at hl hsect
      rw [List.forall_mem_cons] at hsect
      rcases List.mem_append.mp hl with hfirst | hrest
      · exact hsect.1 l hfirst
      · obtain ⟨sect', hsect', hmem⟩ := List.mem_flatMap.mp hrest
        rcases List.mem_cons.mp hmem with rfl | hline
        · exact fun c hc => absurd hc List.not_mem_nil
        · exact hsect.2 sect' hsect' l hline

theorem configures_sectsOf (h : RandConfig drawn config) : Configures py (sectsOf drawn) := by
  constructor
  · intro sect hsect
    obtain ⟨iface, i, _, rfl⟩ := mem_sectsOf.mp hsect
    exact ⟨iface, externDevNameToIface_sectOf iface i⟩
  · intro iface
    rw [filter_sectsOf, List.length_map, List.length_range]
    exact h.devs iface
  · intro sect hsect item hitem
    obtain ⟨iface, i, hi, rfl⟩ := mem_sectsOf.mp hsect
    obtain ⟨p, hp, rfl⟩ := mem_sectOf hitem
    obtain ⟨⟨hne, hle⟩, _⟩ := h.limits iface _ (mem_drawnPairs hi) p hp
    have hlen := length_bytesToHexStr p.1
    have hok : RequestOk (bytesToHexStr p.1) := ⟨isHexStr_bytesToHexStr p.1, by omega, by omega⟩
    exact ⟨.hex (bytesToHexStr_ne_nil hne) hok, notMem_bytesToHexStr p.1 (by decide)⟩
  · intro sect hsect item hitem
    obtain ⟨iface, i, hi, rfl⟩ := mem_sectsOf.mp hsect
    obtain ⟨p, hp, rfl⟩ := mem_sectOf hitem
    obtain ⟨_, hne, hle⟩ := h.limits iface _ (mem_drawnPairs hi) p hp
    have hlen := length_bytesToHexStr p.2
    have hform : ValueForm (bytesToHexStr p.2) :=
      .hex (bytesToHexStr_ne_nil hne) (isHexStr_bytesToHexStr p.2) (by omega) (by omega)
    exact ⟨hform, notMem_bytesToHexStr p.2 (by decide)⟩
  · intro sect hsect
    obtain ⟨iface, i, hi, rfl⟩ := mem_sectsOf.mp hsect
    have hnodup := h.requests iface _ (mem_drawnPairs hi)
    rw [List.Nodup, List.pairwise_map] at hnodup
    rw [sectOf, List.pairwise_map]
    refine hnodup.imp fun hne _ _ => ?_
    rwa [iniBytes_bytesToHexStr, iniBytes_bytesToHexStr]

theorem writtenOnce_sectsOf (h : RandConfig drawn config) : WrittenOnce (sectsOf drawn) := by
  constructor
  · rw [sectsOf, List.map_flatMap, List.nodup_flatMap]
    refine ⟨fun iface _ => ?_, ?_⟩
    · rw [List.map_map]
      refine List.nodup_range.map fun i j heq => ?_
      have hstr := List.append_cancel_left heq
      have hutf8 := congrArg utf8 hstr
      rw [natStr, natStr, utf8_asciiStr (decimal_ascii i), utf8_asciiStr (decimal_ascii j)] at hutf8
      exact decimal_injective hutf8
    · have hdistinct : ifacesOrder.Pairwise (· ≠ ·) := by decide
      refine hdistinct.imp fun {iface iface'} hne => ?_
      rw [Function.onFun, List.disjoint_left]
      intro name hmem hmem'
      rw [List.map_map] at hmem hmem'
      obtain ⟨i, _, rfl⟩ := List.mem_map.mp hmem
      obtain ⟨j, _, heq⟩ := List.mem_map.mp hmem'
      have hsame := congrArg externDevNameToIface heq
      rw [Function.comp_apply, Function.comp_apply, externDevNameToIface_sectOf, externDevNameToIface_sectOf] at hsame
      exact hne (Option.some.inj hsame).symm
  · intro sect hsect
    obtain ⟨iface, i, hi, rfl⟩ := mem_sectsOf.mp hsect
    have hnodup := (h.requests iface _ (mem_drawnPairs hi)).map bytesToHexStr_injective
    rw [List.map_map] at hnodup
    rw [sectOf, List.map_map]
    exact hnodup

theorem unquoted_sectsOf : Unquoted (sectsOf drawn) := by
  intro sect hsect item hitem
  obtain ⟨iface, i, _, rfl⟩ := mem_sectsOf.mp hsect
  obtain ⟨p, _, rfl⟩ := mem_sectOf hitem
  exact not_isQuoted_of_isHexStr (isHexStr_bytesToHexStr p.1)

/-- **The texts of the file are those that were drawn.** -/
theorem textsOf_sectsOf : textsOf py (sectsOf drawn) = drawnPlan drawn := by
  funext iface
  have hdev : ∀ i, (sectOf drawn iface i).2.map (itemText py) = (drawnPairs drawn iface i).map pairText := by
    intro i
    rw [sectOf, List.map_map]
    refine List.map_congr_left fun p _ => ?_
    rw [Function.comp_apply, itemText, lower_bytesToHexStr,
      convertQuoted_of_not_isQuoted (not_isQuoted_of_isHexStr (isHexStr_bytesToHexStr p.2))]
    rfl
  rw [textsOf, filter_sectsOf, List.map_map, drawnPlan]
  have hrange := congrArg (List.map fun pairs => pairs.map pairText) (map_getD_range (drawn iface) [])
  rw [List.map_map] at hrange
  rw [← hrange]
  exact List.map_congr_left fun i _ => hdev i

/-! ### The interfaces that are loaded -/

/-- An interface is entered in the configuration with its first section. -/
def addIface (keys : List HweIface) (name : Str) : List HweIface :=
  match externDevNameToIface name with
  | none => keys
  | some iface => if iface ∈ keys then keys else keys ++ [iface]

theorem keys_loadSection {filename : Str} {ini : Ini} {st st' : LoadState} {item : Str × Dict Str Str}
    (hrun : loadSection py filename ini st item = .ok st') : st'.1.keys = addIface st.1.keys item.1 := by
  obtain ⟨cfg, devCounts⟩ := st
  obtain ⟨sect, options⟩ := item
  unfold addIface
  cases hiface : externDevNameToIface sect with
  | none =>
      simp only [loadSection, hiface] at hrun
      cases hrun
  | some iface =>
      by_cases hroom : devCounts iface = hweMaxDevices
      · simp only [loadSection, hiface, if_pos hroom] at hrun
        cases hrun
      · rw [loadSection_eq hiface hroom] at hrun
        cases htexts : loadTexts py filename ini options with
        | error e =>
            rw [htexts] at hrun
            cases hrun
        | ok texts =>
            rw [htexts] at hrun
            obtain rfl := Except.ok.inj hrun
            dsimp only
            by_cases hmem : iface ∈ cfg.keys
            · rw [if_pos hmem, if_pos hmem, Dict.keys_set, if_pos hmem]
            · rw [if_neg hmem, if_neg hmem, Dict.keys_set, Dict.keys_set, if_neg hmem,
                if_pos (List.mem_append_right _ (List.mem_singleton_self _))]

theorem keys_loadSections {filename : Str} {ini : Ini} {items : List (Str × Dict Str Str)} {st st' : LoadState}
    (hrun : items.foldlM (loadSection py filename ini) st = .ok st') :
    st'.1.keys = (items.map Prod.fst).foldl addIface st.1.keys := by
  induction items generalizing st with
  | nil =>
      obtain rfl := Except.ok.inj hrun
      rfl
  | cons item items ih =>
      rw [List.foldlM_cons, Except.bind_eq_ok_iff] at hrun
      obtain ⟨st₁, hfirst, hrest⟩ := hrun
      rw [ih hrest, keys_loadSection hfirst]
      rfl

theorem foldl_addIface {iface : HweIface} {names : List Str} (hnames : ∀ name ∈ names, externDevNameToIface name = some iface)
    (hne : names ≠ []) {keys : List HweIface} (hnew : iface ∉ keys) : names.foldl addIface keys = keys ++ [iface] := by
  have hagain : ∀ names : List Str, (∀ name ∈ names, externDevNameToIface name = some iface) →
      names.foldl addIface (keys ++ [iface]) = keys ++ [iface] := by
    intro names hnames
    induction names with
    | nil => rfl
    | cons name names ih =>
        rw [List.forall_mem_cons] at hnames
        have hmem : iface ∈ keys ++ [iface] := List.mem_append_right _ (List.mem_singleton_self _)
        rw [List.foldl_cons, addIface, hnames.1]
        dsimp only
        rw [if_pos hmem]
        exact ih hnames.2
  obtain ⟨name, names, rfl⟩ := List.exists_cons_of_ne_nil hne
  rw [List.forall_mem_cons] at hnames
  rw [List.foldl_cons, addIface, hnames.1]
  dsimp only
  rw [if_neg hnew]
  exact hagain names hnames.2

/-- The interfaces stand in the order of their sections. -/
theorem foldl_addIface_sectsOf (h : RandConfig drawn config) :
    ((sectsOf drawn).map Prod.fst).foldl addIface [] = ifacesOrder := by
  have hblock : ∀ (iface : HweIface) {keys : List HweIface}, iface ∉ keys →
      (((List.range (drawn iface).length).map (sectOf drawn iface)).map Prod.fst).foldl addIface keys = keys ++ [iface] := by
    intro iface keys hnew
    refine foldl_addIface (fun name hname => ?_) ?_ hnew
    · rw [List.map_map] at hname
      obtain ⟨i, _, rfl⟩ := List.mem_map.mp hname
      exact externDevNameToIface_sectOf iface i
    · rw [Ne, List.map_eq_nil_iff, List.map_eq_nil_iff, List.range_eq_nil, List.length_eq_zero_iff]
      exact h.some_dev iface
  rw [sectsOf, List.map_flatMap, List.foldl_flatMap, ifacesOrder]
  simp only [List.foldl_cons, List.foldl_nil]
  rw [hblock .i2c (by decide), hblock .tty (by decide), hblock .net (by decide), hblock .spi (by decide)]
  rfl

/-- **Written as a file and loaded again**, a configuration as it is drawn is printed as before. -/
theorem random_ini_loaded (filename : Str) (h : RandConfig drawn config) :
    ∃ data cfg text, cmdRandomIni py filename none config = .ok data ∧
      loadFromIni py filename (some data) = .ok cfg ∧
      configToStr py config = .ok text ∧ configToStr py cfg = .ok text := by
  obtain ⟨hfirst, hsections⟩ := sections_fileLines (sectsOf drawn)
  have hlines := IniLine.written_fileText (@solid_fileLines drawn)
  have hconfigures : Configures py (IniLine.sections (fileLines (sectsOf drawn))) := by
    rw [hsections]
    exact configures_sectsOf h
  obtain ⟨hiff, hnumbered⟩ := loadFromIni_lines (decodeUtf8_utf8 _) hlines hfirst hconfigures filename
  rw [hsections] at hiff hnumbered
  obtain ⟨cfg, hload⟩ := hiff.mpr ⟨writtenOnce_sectsOf h, unquoted_sectsOf⟩
  have hplan := hnumbered cfg hload
  rw [textsOf_sectsOf] at hplan
  have hkeys : cfg.keys = config.keys := by
    obtain ⟨ini, hini, hrest⟩ := Except.bind_eq_ok_iff.mp hload
    obtain ⟨st', hrun, hcfg⟩ := Except.bind_eq_ok_iff.mp hrest
    obtain rfl := Except.ok.inj hcfg
    have his := (@readIni_lines py _ _ _ (decodeUtf8_utf8 _) hlines (plain_of_configures hfirst hconfigures) hfirst).2 ini hini
    have hnames := congrArg (List.map Prod.fst) his.sections
    rw [hsections, List.map_map, List.map_map] at hnames
    change ini.sections.items.map Prod.fst = (sectsOf drawn).map Prod.fst at hnames
    rw [keys_loadSections hrun, hnames, h.ifaces]
    exact foldl_addIface_sectsOf h
  obtain ⟨text, htext⟩ := @configToStr_ok py config _ h.numbered h.length_plan
  exact ⟨_, cfg, text, cmdRandomIni_eq filename h, hload, htext,
    (configToStr_congr h.numbered hplan h.length_plan hkeys).trans htext⟩

/-- Devices of every interface, two of i2c and three of spi. -/
def sampleDrawn : HweIface → List DrawnPairs
  | .i2c => [[([0x01], [0xab]), ([0x02, 0x03], [0xcd, 0xef, 0x00])], [([0xff], [0x10])]]
  | .tty => [[([0x61, 0x74], [0x6f, 0x6b]), ([0x61], [0x3f])]]
  | .net => [[([0x00], [0x00])]]
  | .spi => [[([0x9f], [0x20, 0xba])], [([0x01], [0x01]), ([0x02], [0x01])], [([0x9f], [0x20, 0xba])]]

theorem sampleDrawn_drawable : Drawable sampleDrawn := by
  have hdevs : ∀ iface, sampleDrawn iface ≠ [] ∧ (sampleDrawn iface).length ≤ hweMaxDevices ∧
      ∀ pairs ∈ sampleDrawn iface, (pairs.map Prod.fst).Nodup ∧ ∀ p ∈ pairs,
        (p.1 ≠ [] ∧ p.1.length ≤ hweMaxRequest) ∧ (p.2 ≠ [] ∧ p.2.length ≤ hweMaxResponse) := by
    intro iface
    cases iface <;> decide
  exact ⟨fun iface => (hdevs iface).1, fun iface => (hdevs iface).2.1,
    fun iface pairs hpairs => ((hdevs iface).2.2 pairs hpairs).1,
    fun iface pairs hpairs => ((hdevs iface).2.2 pairs hpairs).2⟩

theorem random_ini_loaded_applies : ∃ data cfg text,
    cmdRandomIni samplePython "test.ini".toList none (randConfig sampleDrawn) = .ok data ∧
      loadFromIni samplePython "test.ini".toList (some data) = .ok cfg ∧
      configToStr samplePython (randConfig sampleDrawn) = .ok text ∧ configToStr samplePython cfg = .ok text :=
  random_ini_loaded "test.ini".toList (randConfig_shape sampleDrawn_drawable)

end Hwectl

end Hwemu
