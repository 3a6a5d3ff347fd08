import Hwemu.ConfigRead
import Hwemu.TimerRuns

/-!
# Rounds of writing, reading and erasing

The scripts never ask the module which numbers it gave to devices and pairs. For every configuration
without gaps it gives them the numbers that they have in the configuration, and after an erasure it
starts over.
-/

namespace Hwemu

variable {w : Nat} {k : Kernel w} {HZ : Nat}

/-! ### The configurations -/

def Config.devs (config : Config) (iface : HweIface) : Dict Str DevDict :=
  (config.get? iface).getD .empty

/-- Devices and pairs are numbered without gaps within the limits of the module, every text is one that
`str_to_pair` accepts and that fits a page, and no two synchronous pairs of a device have the same
request. -/
structure Config.Valid (w HZ : Nat) (config : Config) : Prop where
  names : ∀ iface, ∃ n ≤ hweMaxDevices, ∀ name,
    name ∈ (config.devs iface).keys ↔ ∃ i < n, devNameStr iface i = name
  nums : ∀ iface name dev, (config.devs iface).get? name = some dev →
    ∃ n ≤ hweMaxPairs, ∀ m, .num m ∈ dev.keys ↔ 0 ≤ m ∧ m < (n : Int)
  texts : ∀ iface name dev m text, (config.devs iface).get? name = some dev →
    dev.get? (.num m) = some text →
      (utf8 text).length ≤ 4096 ∧ (textPair w HZ (utf8 text)).isSome
  distinct : ∀ iface name dev m m' text text' q q', (config.devs iface).get? name = some dev →
    dev.get? (.num m) = some text → dev.get? (.num m') = some text' → m ≠ m' →
      textPair w HZ (utf8 text) = some q → textPair w HZ (utf8 text') = some q' →
        q.asyncRx = false → q'.asyncRx = false → q.req ≠ q'.req

/-- What was read has the same devices with the same pair numbers, each pair as its canonical text. -/
structure Config.ReadsBack (w HZ : Nat) (config read : Config) : Prop where
  names : ∀ iface name, name ∈ (read.devs iface).keys ↔ name ∈ (config.devs iface).keys
  pairs : ∀ iface name dev, (config.devs iface).get? name = some dev →
    ∃ dev', (read.devs iface).get? name = some dev' ∧ ∀ key, dev'.get? key =
      key.num?.bind fun n => (dev.get? (.num n)).bind fun text => canonicalText w HZ (utf8 text)

/-! ### The plan of a configuration -/

def DevDict.texts (dev : DevDict) : List Str :=
  (List.range (dev.keys.filterMap DevKey.num?).length).map fun j : Nat => (dev.get? (.num j)).getD []

def Config.plan (config : Config) : Plan := fun iface =>
  (List.range (config.devs iface).items.length).map fun i =>
    ((config.devs iface).get? (devNameStr iface i)).elim [] DevDict.texts

theorem perm_range_names {devs : Dict Str DevDict} {iface : HweIface} {n : Nat}
    (h : ∀ name, name ∈ devs.keys ↔ ∃ i < n, devNameStr iface i = name) :
    devs.keys.Perm ((List.range n).map (devNameStr iface)) := by
  refine (List.perm_ext_iff_of_nodup devs.nodup_keys ?_).mpr ?_
  · exact List.Nodup.map (fun _ _ heq => devNameStr_injective heq) List.nodup_range
  · intro name
    rw [h name, List.mem_map]
    simp only [List.mem_range]

namespace Config.Valid

variable {config : Config} {iface : HweIface} {i j : Nat} {name : Str} {dev : DevDict} {text : Str}

theorem length_devs (h : Config.Valid w HZ config) (iface : HweIface) :
    (config.devs iface).items.length ≤ hweMaxDevices ∧
      ∀ name, name ∈ (config.devs iface).keys ↔
        ∃ i < (config.devs iface).items.length, devNameStr iface i = name := by
  obtain ⟨n, hn, hnames⟩ := h.names iface
  have hlen := (perm_range_names hnames).length_eq
  rw [Dict.keys, List.length_map, List.length_map, List.length_range] at hlen
  rw [hlen]
  exact ⟨hn, hnames⟩

theorem length_texts (h : Config.Valid w HZ config) (hdev : (config.devs iface).get? name = some dev) :
    dev.texts.length ≤ hweMaxPairs ∧ ∀ m, .num m ∈ dev.keys ↔ 0 ≤ m ∧ m < (dev.texts.length : Int) := by
  obtain ⟨n, hn, hnums⟩ := h.nums iface name dev hdev
  have hlen := (perm_range_nums hnums).length_eq
  rw [List.length_map, List.length_range] at hlen
  rw [DevDict.texts, List.length_map, List.length_range, hlen]
  exact ⟨hn, hnums⟩

theorem getElem?_texts (h : Config.Valid w HZ config) (hdev : (config.devs iface).get? name = some dev)
    (j : Nat) : dev.texts[j]? = dev.get? (.num j) := by
  obtain ⟨_, hnums⟩ := h.length_texts hdev
  by_cases hj : j < dev.texts.length
  · obtain ⟨text, htext⟩ := Option.isSome_iff_exists.mp
      (Dict.isSome_get?_iff.mpr ((hnums j).mpr ⟨Int.natCast_nonneg j, Int.ofNat_lt.mpr hj⟩))
    rw [List.getElem?_eq_getElem hj, htext]
    simp only [DevDict.texts, List.getElem_map, List.getElem_range, htext, Option.getD_some]
  · rw [List.getElem?_eq_none (by omega), eq_comm, Dict.get?_eq_none_iff, hnums]
    omega

theorem getElem?_plan (h : Config.Valid w HZ config) {texts : List Str}
    (hi : (Config.plan config iface)[i]? = some texts) :
    ∃ dev, (config.devs iface).get? (devNameStr iface i) = some dev ∧ texts = dev.texts := by
  obtain ⟨hlt, rfl⟩ := List.getElem?_eq_some_iff.mp hi
  rw [Config.plan, List.length_map, List.length_range] at hlt
  have hmem := ((h.length_devs iface).2 (devNameStr iface i)).mpr ⟨i, hlt, rfl⟩
  obtain ⟨dev, hdev⟩ := Option.isSome_iff_exists.mp (Dict.isSome_get?_iff.mpr hmem)
  refine ⟨dev, hdev, ?_⟩
  simp only [Config.plan, List.getElem_map, List.getElem_range, hdev, Option.elim_some]

theorem length_plan (config : Config) (iface : HweIface) :
    (Config.plan config iface).length = (config.devs iface).items.length := by
  rw [Config.plan, List.length_map, List.length_range]

theorem devs_eq {devs : Dict Str DevDict} (hget : config.get? iface = some devs) :
    config.devs iface = devs := by
  rw [Config.devs, hget, Option.getD_some]

theorem numbered (h : Config.Valid w HZ config) : Config.Numbered config config.plan := by
  constructor
  · intro iface hnone
    rw [Config.plan, Config.devs, hnone]
    rfl
  · intro iface devs hget
    obtain ⟨_, hnames⟩ := h.length_devs iface
    rw [length_plan]
    rw [devs_eq hget] at hnames ⊢
    exact perm_range_names hnames
  · intro iface devs i texts hget hi
    obtain ⟨dev, hdev, rfl⟩ := h.getElem?_plan hi
    obtain ⟨_, hnums⟩ := h.length_texts hdev
    refine ⟨dev, devs_eq hget ▸ hdev, perm_range_nums hnums, ?_⟩
    intro j text htext
    rw [← h.getElem?_texts hdev, htext]

/-- The texts of a device are accepted one after another. -/
theorem accepted (h : Config.Valid w HZ config) (iface : HweIface) :
    ∀ texts ∈ Config.plan config iface, TextsAccepted w HZ texts := by
  intro texts hmem j text hget
  obtain ⟨i, hi, rfl⟩ := List.getElem_of_mem hmem
  obtain ⟨dev, hdev, htexts⟩ := h.getElem?_plan (List.getElem?_eq_getElem hi)
  rw [htexts] at hget ⊢
  have hmax := (h.length_texts hdev).1
  have hj := h.getElem?_texts hdev j
  rw [hget] at hj
  obtain ⟨hlen, hsome⟩ := h.texts _ _ _ _ _ hdev hj.symm
  obtain ⟨q, hq⟩ := Option.isSome_iff_exists.mp hsome
  obtain ⟨hlt, _⟩ := List.getElem?_eq_some_iff.mp hget
  refine ⟨hlen, q, hq, ?_, ?_⟩
  · rw [List.length_map, List.length_take]
    omega
  · intro hsync t ht q' hq' hsync'
    obtain ⟨text', htext', rfl⟩ := List.mem_map.mp ht
    obtain ⟨j', hj', rfl⟩ := List.getElem_of_mem htext'
    rw [List.length_take] at hj'
    have hget' : dev.texts[j']? = some (dev.texts.take j)[j'] := by
      rw [List.getElem_take, List.getElem?_eq_getElem]
    rw [h.getElem?_texts hdev] at hget'
    have hne : (j' : Int) ≠ (j : Int) := by omega
    exact h.distinct _ _ _ _ _ _ _ _ _ hdev hget' hj.symm hne hq' hq hsync' hsync

/-- What is read of the contents that a configuration left is the configuration. -/
theorem readsBack (h : Config.Valid w HZ config) {read : Config}
    (hshows : Config.Shows w HZ read config.plan.contents) : Config.ReadsBack w HZ config read := by
  have hlen : ∀ iface, ((Config.plan config).contents iface).length = (config.devs iface).items.length := by
    intro iface
    rw [Plan.contents, List.length_map, length_plan]
  constructor
  · intro iface name
    obtain ⟨devs, hdevs, hnames, _⟩ := hshows iface
    rw [devs_eq hdevs, hnames, hlen, (h.length_devs iface).2]
  · intro iface name dev hdev
    obtain ⟨devs, hdevs, _, hpairs⟩ := hshows iface
    have hmem := Dict.isSome_get?_iff.mp (Option.isSome_of_eq_some hdev)
    obtain ⟨i, hi, rfl⟩ := ((h.length_devs iface).2 name).mp hmem
    have hplan : (Config.plan config iface)[i]? = some dev.texts := by
      have hget := List.getElem?_eq_getElem (l := Config.plan config iface) (i := i)
        (by rw [length_plan]; exact hi)
      obtain ⟨dev', hdev', htexts⟩ := h.getElem?_plan hget
      obtain rfl := Option.some.inj (hdev.symm.trans hdev')
      rw [hget, htexts]
    obtain ⟨dev', hdev', hkeys⟩ := hpairs i (dev.texts.map utf8) (by
      rw [Plan.contents, List.getElem?_map, hplan]
      rfl)
    refine ⟨dev', devs_eq hdevs ▸ hdev', ?_⟩
    intro key
    rw [hkeys key]
    cases key with
    | name s => rfl
    | num n =>
        cases n with
        | ofNat j =>
            have hj := h.getElem?_texts hdev j
            change ((dev.texts.map utf8)[j]?).bind (canonicalText w HZ) = (dev.get? (.num j)).bind _
            rw [List.getElem?_map, hj]
            cases dev.get? (.num j) <;> rfl
        | negSucc n =>
            have hnone : dev.get? (.num (Int.negSucc n)) = none := by
              rw [Dict.get?_eq_none_iff, (h.length_texts hdev).2]
              intro hpos
              exact absurd hpos.1 (by simp)
            change none = (dev.get? (.num (Int.negSucc n))).bind _
            rw [hnone]
            rfl

end Config.Valid

/-! ### Rounds -/

/-- The configuration of a round, what new memory holds during it, and the order of its listings. -/
structure Round (w : Nat) where
  config : Config
  mem : Nat → Pair w
  order : DirOrder

/-- The loop of `test_random_config_write`, with the configurations read in each turn. -/
def testRandomConfigWrite (py : Python) (HZ : Nat) :
    List (Round w) → Kernel w → Except PyError (List Config × Kernel w)
  | [], k => .ok ([], k)
  | r :: rounds, k => do
      let k ← writeConfig py HZ (.succeeds r.mem) r.config k
      let (cfg, k) ← readConfig py r.order k
      let k ← eraseConfig r.order k
      let (cfgs, k) ← testRandomConfigWrite py HZ rounds k
      return (cfg :: cfgs, k)

theorem testRandomConfigWrite_ok (py : Python) (hw : 32 ≤ w) (h : k.Holds HZ fun _ => [])
    {rounds : List (Round w)} (hvalid : ∀ r ∈ rounds, Config.Valid w HZ r.config) :
    ∃ cfgs k', testRandomConfigWrite py HZ rounds k = .ok (cfgs, k') ∧
      List.Forall₂ (fun r cfg => Config.ReadsBack w HZ r.config cfg) rounds cfgs ∧
      k'.Holds HZ fun _ => [] := by
  induction rounds generalizing k with
  | nil => exact ⟨[], k, rfl, .nil, h⟩
  | cons r rounds ih =>
      rw [List.forall_mem_cons] at hvalid
      obtain ⟨hr, hrest⟩ := hvalid
      have hmax : ∀ iface, (Config.plan r.config iface).length ≤ hweMaxDevices := by
        intro iface
        rw [Config.Valid.length_plan]
        exact (hr.length_devs iface).1
      obtain ⟨k₁, hwrite, hk₁⟩ := writeConfig_ok py r.mem hr.numbered hmax hr.accepted h
      obtain ⟨cfg, hread, hshows⟩ := readConfig_ok py r.order hw hk₁
      obtain ⟨k₂, herase, hk₂⟩ := eraseConfig_ok r.order hk₁
      obtain ⟨cfgs, k', hloop, hall, hk'⟩ := ih hk₂ hrest
      refine ⟨cfg :: cfgs, k', ?_, .cons (hr.readsBack hshows) hall, hk'⟩
      rw [testRandomConfigWrite, hwrite, Except.ok_bind, hread, Except.ok_bind]
      dsimp only
      rw [herase, Except.ok_bind, hloop]
      rfl

/-- **A configuration survives the kernel**, in any number of rounds. From a state without devices every
write is accepted, what is read back is what was written, and erasing leaves no device and no index
taken. -/
theorem config_survives (py : Python) (hw : 32 ≤ w) (hreach : SysReachable HZ k)
    (hempty : ∀ iface, (k.ifaces iface).devList = []) {rounds : List (Round w)}
    (hvalid : ∀ r ∈ rounds, Config.Valid w HZ r.config) :
    ∃ cfgs k', testRandomConfigWrite py HZ rounds k = .ok (cfgs, k') ∧
      List.Forall₂ (fun r cfg => Config.ReadsBack w HZ r.config cfg) rounds cfgs ∧
      ∀ iface, (k'.ifaces iface).devList = [] ∧ (k'.ifaces iface).devIndexes = 0 := by
  obtain ⟨hinv, hsems⟩ := hreach.inv
  have hholds : k.Holds HZ fun _ => [] := by
    refine ⟨hinv, hsems, ?_, ?_⟩
    · intro iface
      rw [hempty iface]
      exact List.Perm.refl []
    · intro iface d hd
      rw [hempty iface] at hd
      exact absurd hd List.not_mem_nil
  obtain ⟨cfgs, k', hrun, hall, hk'⟩ := testRandomConfigWrite_ok py hw hholds hvalid
  refine ⟨cfgs, k', hrun, hall, ?_⟩
  intro iface
  have hnil : (k'.ifaces iface).devList = [] := List.map_eq_nil_iff.mp (hk'.indexes iface).eq_nil
  have htracks := hk'.inv.indexes iface
  rw [hnil] at htracks
  exact ⟨hnil, htracks.eq_zero⟩

/-! ### Two rounds with one device -/

/-- An i2c device with a request and a timer. -/
def sampleDev : DevDict := ((Dict.empty.set (.name "_extern_dev_name".toList) "i2c-0".toList).set
  (.num 0) "0102=aabb\n".toList).set (.num 1) "timer:1m=CC".toList

def sampleConfig : Config := Dict.empty.set .i2c (Dict.empty.set "i2c0".toList sampleDev)

theorem sampleConfig_devs (iface : HweIface) : Config.devs sampleConfig iface =
    if iface = .i2c then Dict.empty.set "i2c0".toList sampleDev else .empty := by
  cases iface <;> rfl

theorem sampleConfig_get? {iface : HweIface} {name : Str} {dev : DevDict}
    (h : (Config.devs sampleConfig iface).get? name = some dev) : iface = .i2c ∧ dev = sampleDev := by
  rw [sampleConfig_devs] at h
  split at h
  · rename_i hiface
    rw [Dict.get?_set] at h
    split at h
    · exact ⟨hiface, (Option.some.inj h).symm⟩
    · simp at h
  · simp at h

theorem sampleDev_get? {m : Int} {text : Str} (h : sampleDev.get? (.num m) = some text) :
    m = 0 ∧ text = "0102=aabb\n".toList ∨ m = 1 ∧ text = "timer:1m=CC".toList := by
  simp only [sampleDev, Dict.get?_set, DevKey.num.injEq, reduceCtorEq, if_false, Dict.get?_empty] at h
  split at h
  · exact Or.inr ⟨by omega, (Option.some.inj h).symm⟩
  · split at h
    · exact Or.inl ⟨by omega, (Option.some.inj h).symm⟩
    · simp at h

theorem sampleConfig_valid : Config.Valid 64 250 sampleConfig := by
  constructor
  · intro iface
    refine ⟨if iface = .i2c then 1 else 0, by split <;> decide, ?_⟩
    intro name
    rw [sampleConfig_devs]
    split
    · have hkeys : (Dict.empty.set "i2c0".toList sampleDev).keys = [devNameStr .i2c 0] := by decide +kernel
      rename_i hiface
      subst hiface
      rw [hkeys, List.mem_singleton]
      constructor
      · rintro rfl
        exact ⟨0, Nat.zero_lt_one, rfl⟩
      · rintro ⟨i, hi, rfl⟩
        rw [Nat.lt_one_iff.mp hi]
    · simp [Dict.keys, Dict.empty]
  · intro iface name dev hdev
    obtain ⟨rfl, rfl⟩ := sampleConfig_get? hdev
    have hkeys : sampleDev.keys = [.name "_extern_dev_name".toList, .num 0, .num 1] := by decide
    refine ⟨2, by decide, ?_⟩
    intro m
    rw [hkeys]
    simp only [List.mem_cons, reduceCtorEq, DevKey.num.injEq, List.not_mem_nil, or_false, false_or]
    omega
  · intro iface name dev m text hdev htext
    obtain ⟨rfl, rfl⟩ := sampleConfig_get? hdev
    rcases sampleDev_get? htext with ⟨rfl, rfl⟩ | ⟨rfl, rfl⟩
    · decide +kernel
    · decide +kernel
  · intro iface name dev m m' text text' q q' hdev htext htext' hne hq hq' hsync hsync'
    obtain ⟨rfl, rfl⟩ := sampleConfig_get? hdev
    have htimer : ∀ q, textPair 64 250 (utf8 "timer:1m=CC".toList) = some q → q.asyncRx = true := by
      decide +kernel
    rcases sampleDev_get? htext with ⟨rfl, rfl⟩ | ⟨rfl, rfl⟩
    · rcases sampleDev_get? htext' with ⟨rfl, rfl⟩ | ⟨rfl, rfl⟩
      · exact absurd rfl hne
      · rw [htimer q' hq'] at hsync'
        exact absurd hsync' (by decide)
    · rw [htimer q hq] at hsync
      exact absurd hsync (by decide)

def sampleRound : Round 64 where
  config := sampleConfig
  mem _ := Pair.zeroed 64
  order := { list := id, perm := fun _ => List.Perm.refl _ }

theorem config_survives_applies : ∃ cfgs k',
    testRandomConfigWrite samplePython 250 [sampleRound, sampleRound] (Kernel.loaded 64) = .ok (cfgs, k') ∧
      cfgs.length = 2 ∧ ∀ iface, (k'.ifaces iface).devList = [] := by
  have hvalid : ∀ r ∈ [sampleRound, sampleRound], Config.Valid 64 250 r.config := by
    intro r hr
    simp only [List.mem_cons, List.not_mem_nil, or_false, or_self] at hr
    exact hr ▸ sampleConfig_valid
  obtain ⟨cfgs, k', hrun, hall, hempty⟩ := @config_survives 64 (Kernel.loaded 64) 250 samplePython
    (by decide) ⟨[], .nil _⟩ (fun _ => rfl) _ hvalid
  exact ⟨cfgs, k', hrun, hall.length_eq.symm, fun iface => (hempty iface).1⟩

end Hwemu
