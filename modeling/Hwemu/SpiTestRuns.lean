import Hwemu.SpiTest
import Hwemu.BenchAnswers
import Hwemu.BenchQueries
import Hwemu.Configured

/-!
# What the test of the buses finds

The test makes the requests of the file and compares the responses, so that it passes on an emulator that was
started with this file, whatever else goes on there, and says of any other what its reads have in common with
the file.
-/

namespace Hwemu

namespace Hwectl

variable {py : Python} {filename k v : Str}

/-! ### The texts of pairs -/

theorem hexChar_digit : ∀ c ∈ hexChars, c ∉ " \t\n\x0b\x0c\r".toList ∧ c ≠ '=' ∧ c ≠ 't' ∧
    hexChars.idxOf c.toLower < 16 ∧
    hexToBin (UInt8.ofNat c.toNat) = some (UInt8.ofNat (hexChars.idxOf c.toLower)) :=
  List.all_iff_forall_prop.mp (by decide +kernel)

theorem byte_of_halves : ∀ hi < 16, ∀ lo < 16,
    UInt8.ofNat (16 * hi + lo) = (UInt8.ofNat hi <<< 4 ||| UInt8.ofNat lo) := by
  decide +kernel

theorem byte_of_hexChars {c d : Char} (hc : c ∈ hexChars) (hd : d ∈ hexChars) :
    UInt8.ofNat (16 * (hexChars.idxOf c.toLower) + hexChars.idxOf d.toLower) =
      ((hexToBin (UInt8.ofNat c.toNat)).getD 0 <<< 4 ||| (hexToBin (UInt8.ofNat d.toNat)).getD 0) := by
  obtain ⟨_, _, _, hhi, hbin⟩ := hexChar_digit c hc
  obtain ⟨_, _, _, hlo, hbin'⟩ := hexChar_digit d hd
  rw [hbin, hbin', Option.getD_some, Option.getD_some]
  exact byte_of_halves _ hhi _ hlo

/-- `bytes.fromhex` reads digits as the module does. -/
theorem bytesFromHex_eq {s : Str} (hhex : isHexStr s = true) (heven : s.length % 2 = 0) :
    bytesFromHex s = some (hexBytes s) := by
  induction s using bytesFromHex.induct with
  | case1 => rfl
  | case2 c _ => exact absurd heven (by simp)
  | case3 c _ => exact absurd heven (by simp)
  | case4 c d s hblank _ => exact absurd hblank (hexChar_digit c (hexChar_of_mem hhex List.mem_cons_self)).1
  | case5 c d s hblank hdigits ih =>
      have hc := hexChar_of_mem hhex (List.mem_cons_self (a := c))
      have hd := hexChar_of_mem hhex (List.mem_cons_of_mem c (List.mem_cons_self (a := d)))
      have hrest : isHexStr s = true :=
        List.all_eq_true.mpr fun e he => List.all_eq_true.mp hhex e (List.mem_cons_of_mem c (List.mem_cons_of_mem d he))
      have hlen : s.length % 2 = 0 := by
        rw [List.length_cons, List.length_cons] at heven
        omega
      rw [bytesFromHex, if_neg hblank, if_pos hdigits, ih hrest hlen, hexBytes, hexBytes,
        utf8_of_ascii (ascii_of_isHexStr hhex), utf8_of_ascii (ascii_of_isHexStr hrest), List.map_cons, List.map_cons,
        fromHex, byte_of_hexChars hc hd]
      rfl
  | case6 c d s hblank hdigits =>
      refine absurd ?_ hdigits
      refine List.all_eq_true.mpr fun e he => List.all_eq_true.mp hhex e ?_
      rw [List.mem_cons, List.mem_singleton] at he
      rw [List.mem_cons, List.mem_cons]
      exact he.imp_right Or.inl

theorem HexOf.bytesFromHex {s : Str} {b : List UInt8} (h : HexOf s b) : bytesFromHex s = some b := by
  rw [bytesFromHex_eq h.hex (by rw [h.length, Nat.mul_mod_right]), h.bytes]

theorem not_mem_of_isHexStr {s : Str} (h : isHexStr s = true) : '=' ∉ s :=
  fun hmem => (hexChar_digit _ (hexChar_of_mem h hmem)).2.1 rfl

theorem splitOn_pair {k v : Str} (hk : '=' ∉ k) (hv : '=' ∉ v) : (k ++ '=' :: v).splitOn '=' = [k, v] := by
  rw [List.splitOn_append_cons_self_of_not_mem hk, List.splitOn_eq_singleton hv]

/-- A request is no timer. -/
theorem not_isTimer_of_isHexStr (h : isHexStr k = true) : ¬IsTimer py k := fun htimer => by
  obtain ⟨k', rfl⟩ := List.head?_eq_some_iff.mp (head_of_isTimer htimer)
  exact absurd rfl (hexChar_digit _ (hexChar_of_mem h List.mem_cons_self)).2.2.1

section

variable {item : Str × Str}

/-- The pair of a request. -/
theorem isAsyncPair_request (hhex : isHexStr item.1 = true) (hvalue : ValueForm item.2) :
    isAsyncPair py (itemText py item) = .ok false := by
  have hlower := @isHexStr_lower py item.1 hhex
  have hnone : timerGroups py (py.lower item.1) = none := by
    rw [timerGroups, if_neg]
    rw [Bool.not_eq_true, startsWith]
    cases hk : py.lower item.1 with
    | nil => rfl
    | cons c k =>
        have hne : 't' ≠ c := fun heq =>
          (hexChar_digit c (hexChar_of_mem hlower (hk ▸ List.mem_cons_self))).2.2.1 heq.symm
        exact Bool.and_eq_false_iff.mpr (Or.inl (beq_false_of_ne hne))
  unfold isAsyncPair itemText
  rw [splitOn_pair (not_mem_of_isHexStr hlower) (not_mem_of_isHexStr hvalue.ok.hexOf.hex)]
  dsimp only
  rw [checkAsyncKey, asyncKeyTime, hnone]
  rfl

/-- The pair of a timer. -/
theorem isAsyncPair_timer (htimer : IsTimer py item.1) (hkey : '=' ∉ item.1) (hvalue : ValueForm item.2) :
    isAsyncPair py (itemText py item) = .ok true := by
  obtain ⟨err, hcheck⟩ := checkAsyncKey_iff.mpr htimer
  unfold isAsyncPair itemText
  rw [lower_of_isTimer htimer, splitOn_pair hkey (not_mem_of_isHexStr hvalue.ok.hexOf.hex)]
  dsimp only
  rw [hcheck]
  rfl

end

/-! ### The names of the devices -/

/-- The device of a number has the name of its section. -/
def Named (cfg : Config) (iface : HweIface) (i : Nat) (sect : Str) : Prop :=
  ∃ devs dev, cfg.get? iface = some devs ∧ devs.get? (devNameStr iface i) = some dev ∧
    dev.get? (.name "_extern_dev_name".toList) = some sect

theorem get?_addTexts_name (dev : DevDict) (i : Nat) (texts : List Str) (name : Str) :
    (addTexts dev i texts).get? (.name name) = dev.get? (.name name) := by
  induction texts generalizing dev i with
  | nil => rfl
  | cons text texts ih => rw [addTexts, ih, Dict.get?_set, if_neg (by simp)]

section

variable {ini : Ini} {st st' : LoadState}

/-- A section that is loaded gets the next number of its interface. -/
theorem Named.loadSection {item : Str × Dict Str Str} (hload : loadSection py filename ini st item = .ok st') :
    ∃ iface, externDevNameToIface item.1 = some iface ∧ st'.2 = Function.update st.2 iface (st.2 iface + 1) ∧
      Named st'.1 iface (st.2 iface) item.1 ∧ ∀ iface' i sect, Named st.1 iface' i sect → i < st.2 iface' →
        Named st'.1 iface' i sect := by
  obtain ⟨cfg, devCounts⟩ := st
  obtain ⟨sect, options⟩ := item
  cases hiface : externDevNameToIface sect with
  | none => exact absurd hload (by simp [Hwectl.loadSection, hiface, error])
  | some iface =>
      by_cases hroom : devCounts iface = hweMaxDevices
      · exact absurd hload (by simp [Hwectl.loadSection, hiface, hroom, error])
      · rw [loadSection_eq hiface hroom] at hload
        cases htexts : loadTexts py filename ini options with
        | error e =>
            rw [htexts] at hload
            exact absurd hload (by simp [Except.map])
        | ok texts =>
            rw [htexts] at hload
            obtain rfl := Except.ok.inj hload
            refine ⟨iface, rfl, rfl, ?_, ?_⟩
            · refine ⟨_, sectionDict sect texts, (Dict.get?_set ..).trans (if_pos rfl),
                (Dict.get?_set ..).trans (if_pos rfl), ?_⟩
              rw [sectionDict, get?_addTexts_name, Dict.get?_set, if_pos rfl]
            · rintro iface' i name ⟨devs, dev, hdevs, hdev, hname⟩ hlt
              by_cases heq : iface' = iface
              · subst heq
                have hkey : iface' ∈ cfg.keys := Dict.isSome_get?_iff.mp (by rw [hdevs]; rfl)
                refine ⟨_, dev, (Dict.get?_set ..).trans (if_pos rfl), ?_, hname⟩
                rw [if_pos hkey, hdevs, Option.getD_some, Dict.get?_set,
                  if_neg fun hsame => absurd (devNameStr_injective hsame) (Nat.ne_of_gt hlt)]
                exact hdev
              · refine ⟨devs, dev, ?_, hdev, hname⟩
                rw [Dict.get?_set, if_neg (Ne.symm heq)]
                split
                · exact hdevs
                · rw [Dict.get?_set, if_neg (Ne.symm heq)]
                  exact hdevs

/-- **The names** of all sections that are loaded. -/
theorem loadSections_named {items : List (Str × Dict Str Str)}
    (hload : items.foldlM (Hwectl.loadSection py filename ini) st = .ok st') :
    (∀ iface i sect, Named st.1 iface i sect → i < st.2 iface → Named st'.1 iface i sect) ∧
      ∀ iface i item, (sectionsOf items iface)[i]? = some item → Named st'.1 iface (st.2 iface + i) item.1 := by
  induction items generalizing st with
  | nil =>
      obtain rfl := Except.ok.inj hload
      exact ⟨fun _ _ _ h _ => h, fun _ _ _ h => absurd h (by simp [sectionsOf])⟩
  | cons item items ih =>
      rw [List.foldlM_cons] at hload
      obtain ⟨st₁, hfirst, hrest⟩ := Except.bind_eq_ok_iff.mp hload
      obtain ⟨iface, hiface, hcounts, hnamed, hkept⟩ := Named.loadSection hfirst
      obtain ⟨hold, hnew⟩ := ih hrest
      have hle : ∀ iface', st.2 iface' ≤ st₁.2 iface' := by
        intro iface'
        by_cases heq : iface' = iface
        · rw [hcounts, heq, Function.update_self]
          exact Nat.le_succ _
        · rw [hcounts, Function.update_of_ne heq]
      refine ⟨fun iface' i sect h hlt => hold iface' i sect (hkept iface' i sect h hlt) (hlt.trans_le (hle iface')), ?_⟩
      intro iface' i item' hitem
      rw [sectionsOf_cons hiface] at hitem
      by_cases heq : iface' = iface
      · subst heq
        rw [if_pos rfl] at hitem
        have hcount : st₁.2 iface' = st.2 iface' + 1 := by rw [hcounts, Function.update_self]
        cases i with
        | zero =>
            obtain rfl := Option.some.inj hitem
            exact hold iface' _ _ hnamed (by omega)
        | succ i =>
            have h := hnew iface' i item' hitem
            rw [hcount] at h
            rwa [Nat.add_assoc, Nat.add_comm 1 i] at h
      · rw [if_neg heq] at hitem
        have h := hnew iface' i item' hitem
        rwa [hcounts, Function.update_of_ne heq] at h

theorem named_of_load {data : List UInt8} {cfg : Config} {sects : List (Str × List (Str × Str))}
    (hini : readIni py data = .ok ini) (his : ini.Is py sects) (hload : loadFromIni py filename (some data) = .ok cfg)
    {iface : HweIface} {i : Nat} {sect : Str × List (Str × Str)} (hsect : (sectsOn iface sects)[i]? = some sect) :
    Named cfg iface i sect.1 := by
  unfold loadFromIni at hload
  simp only [hini, Except.ok_bind] at hload
  obtain ⟨st, hloop, hcfg⟩ := Except.bind_eq_ok_iff.mp hload
  obtain rfl := Except.ok.inj hcfg
  have hget := congrArg (fun l => l[i]?) (sectionsOf_eq his iface)
  rw [List.getElem?_map, List.getElem?_map, show (sects.filter _)[i]? = some sect from hsect] at hget
  obtain ⟨item, hitem, hlowered⟩ := Option.map_eq_some_iff.mp hget
  have hnamed := (loadSections_named hloop).2 iface i item hitem
  rw [Nat.zero_add] at hnamed
  rwa [show item.1 = sect.1 from (Prod.mk.inj hlowered).1] at hnamed

end

/-! ### The answers of a section -/

theorem ValueForm.ne_nil (h : ValueForm v) : iniBytes v ≠ [] := by
  intro hnil
  have hlen := h.ok.hexOf.length
  have hpos := h.ok.pos
  rw [hnil] at hlen
  simp only [List.length_nil] at hlen
  omega

/-- Each request of a section has its own response. -/
theorem sectAnswer_of_mem {items : List (Str × Str)} (hpairwise : items.Pairwise fun item item' =>
      ¬IsTimer py item.1 → ¬IsTimer py item'.1 → iniBytes item.1 ≠ iniBytes item'.1)
    {item : Str × Str} (hitem : item ∈ items) (hhex : isHexStr item.1 = true) :
    sectAnswer items (iniBytes item.1) = some (iniBytes item.2) := by
  unfold sectAnswer
  induction items with
  | nil => exact absurd hitem List.not_mem_nil
  | cons first items ih =>
      obtain ⟨hfirst, hrest⟩ := List.pairwise_cons.mp hpairwise
      rcases List.mem_cons.mp hitem with rfl | hlater
      · rw [List.find?_cons_of_pos (by rw [hhex, Bool.true_and]; exact beq_self_eq_true _)]
        rfl
      · rw [List.find?_cons_of_neg]
        · exact ih hrest hlater
        · intro hboth
          obtain ⟨hfirstHex, heq⟩ := Bool.and_eq_true_iff.mp hboth
          exact hfirst item hlater (not_isTimer_of_isHexStr hfirstHex) (not_isTimer_of_isHexStr hhex) (eq_of_beq heq)

end Hwectl

namespace SpiTest

open Hwectl

variable {w : Nat} {HZ : Nat} {py : Python} {filename : Str} {env : Env w}

theorem pairBytes_itemText {item : Str × Str} (hhex : Hwectl.isHexStr item.1 = true) (hkey : KeyForm py item.1)
    (hvalue : ValueForm item.2) :
    pairBytes (Hwectl.itemText py item) = .ok (iniBytes item.1, iniBytes item.2) := by
  obtain ⟨_, _, hrequest, _⟩ := hkey.lower_ok (not_isQuoted_of_isHexStr hhex)
  have hk := hrequest (not_isTimer_of_isHexStr hhex)
  have hv := hvalue.ok.hexOf
  unfold pairBytes Hwectl.itemText
  rw [splitOn_pair (not_mem_of_isHexStr hk.hex) (not_mem_of_isHexStr hv.hex)]
  dsimp only
  rw [hk.bytesFromHex, hv.bytesFromHex]

/-! ### The links -/

/-- The link of each bus of the file leads to the bus of its number. -/
def Env.Leads (env : Env w) (sects : List (Str × List (Str × Str))) : Prop :=
  ∀ i sect, (sectsOn .spi sects)[i]? = some sect → ∃ bus cs : Nat, bus ≤ intMax ∧ cs ≤ intMax ∧
    env.readlink ("/dev/".toList ++ sect.1) = some (spidevFile bus cs) ∧ env.spidev (spidevFile bus cs) = some i

theorem digits_natStr (n : Nat) : natStr n ≠ [] ∧ ∀ c ∈ natStr n, c.isDigit = true := by
  obtain ⟨ds, hne, hlt, heq, _⟩ := natStr_eq n
  rw [heq]
  refine ⟨fun hnil => hne (List.map_eq_nil_iff.mp hnil), fun c hc => ?_⟩
  obtain ⟨d, hd, rfl⟩ := List.mem_map.mp hc
  exact (digitChar_spec (hlt d hd)).2.1

theorem pyInt_le {n : Nat} (hn : n ≤ intMax) : pyInt py (natStr n) = some (n : Int) := by
  refine pyInt_natStr py ((length_decimal_le (k := 10) (by decide) ?_).trans (by decide))
  unfold intMax at hn
  omega

theorem busNumbers_eq {lnk : Str} {bus cs : Nat} (hbus : bus ≤ intMax) (hcs : cs ≤ intMax)
    (hlink : env.readlink lnk = some (spidevFile bus cs)) :
    busNumbers env py filename lnk = .ok ((bus : Int), (cs : Int)) := by
  have hstr : ∀ n : Nat, intStr (n : Int) = natStr n := fun n => if_neg (Int.not_lt.mpr (Int.natCast_nonneg n))
  have hdot : ∀ n : Nat, '.' ∉ natStr n := fun n hmem => absurd ((digits_natStr n).2 _ hmem) (by decide)
  have hdigit : ∀ n : Nat, env.isdigit (natStr n) = true := fun n =>
    env.isdigit_ascii _ (digits_natStr n).1 (digits_natStr n).2
  have htgt : spidevFile bus cs = "/dev/spidev".toList ++ (natStr bus ++ '.' :: natStr cs) := by
    unfold spidevFile
    rw [hstr bus, hstr cs]
    exact List.append_assoc _ _ _
  have hstarts : startsWith "/dev/spidev".toList (spidevFile bus cs) = true := by
    rw [htgt]
    exact List.isPrefixOf_iff_prefix.mpr (List.prefix_append _ _)
  have hsplit : ((spidevFile bus cs).drop "/dev/spidev".toList.length).splitOn '.' = [natStr bus, natStr cs] := by
    rw [htgt, List.drop_left, List.splitOn_append_cons_self_of_not_mem (hdot bus),
      List.splitOn_eq_singleton (hdot cs)]
  unfold busNumbers
  rw [hlink]
  dsimp only
  rw [hstarts, Bool.not_true, if_neg Bool.false_ne_true, hsplit]
  dsimp only
  rw [hdigit, hdigit, Bool.not_true, Bool.or_self, if_neg Bool.false_ne_true, pyInt_le hbus, pyInt_le hcs]

/-! ### One request -/

section

variable {b : Bench w} {st : State w} {spi : Nat}

theorem toNat_len {n : Nat} (h : n < 2 ^ 32) : (UInt32.ofNat n).toNat = n := by
  rw [UInt32.toNat_ofNat', Nat.mod_eq_of_lt h]

theorem leaves_of_offBus {e : EmuEvent w} (h : e.OffBus) (index : Nat) : e.Leaves .spi index := by
  cases e with
  | op op => exact absurd rfl (h.op op)
  | spiTransfer n t => exact absurd rfl (h.spi n t)
  | i2cMasterXfer n msgs => exact fun heq => absurd heq (by decide)
  | _ => trivial

/-- **A transfer**, and what others do before it. -/
theorem transaction_ok {P : Bench w → Prop} (hothers : ∀ n, ∀ e ∈ env.others n, e.OffBus) (h : st.emu.Shows b) (hb : P b)
    (hP : ∀ e ∈ env.others st.transfers, ∀ b t, P b → b.interact e = some t → P t.2)
    (hdev : ∀ b, P b → ∃ dev, b.devs .spi spi = some dev) (t : SpiTransfer) :
    ∃ b₁ dev emu, P b₁ ∧ b₁.devs .spi spi = some dev ∧
      b₁.interact (.spiTransfer spi t) =
        some (.spi (dev.transfer t).1, b₁.setDev .spi spi (some (dev.transfer t).2)) ∧
      transaction HZ env spi t st =
        .ok ((dev.transfer t).1, { st with emu := emu, transfers := st.transfers + 1 }) ∧
      emu.Shows (b₁.setDev .spi spi (some (dev.transfer t).2)) := by
  obtain ⟨os, emu₁, b₁, hrun, h₁, hb₁⟩ := @Emulator.Shows.execAll w st.emu b HZ _ P h hb (hothers st.transfers) hP
  obtain ⟨dev, hdev⟩ := hdev b₁ hb₁
  obtain ⟨hok, _⟩ := @Emulator.Shows.interact w HZ emu₁ b₁ h₁ (.spiTransfer spi t) (by simp)
  obtain ⟨r, hr, emu₂, hexec, h₂⟩ := hok trivial
  have hcall : b₁.interact (.spiTransfer spi t) =
      some (.spi (dev.transfer t).1, b₁.setDev .spi spi (some (dev.transfer t).2)) := by
    rw [Bench.interact, Bench.call, hdev]
  obtain rfl := Option.some.inj (hr.symm.trans hcall)
  refine ⟨b₁, dev, emu₂, hb₁, hdev, hcall, ?_, h₂⟩
  unfold transaction
  rw [hrun]
  dsimp only
  rw [hexec]

/-- What a request leaves to be read. -/
theorem unread_reply {dev : BenchDev w} {request : List UInt8} {answers : List UInt8 → Option (List UInt8)}
    (hanswers : (dev.answer request).map (·.resp) = answers request) :
    (dev.act (dev.reply request)).held.unread = (answers request).getD [] ∧
      ∀ resp, answers request = some resp → (dev.act (dev.reply request)).held = ⟨some .request, resp, 0⟩ := by
  rw [← hanswers, BenchDev.held_act, BenchDev.reply]
  cases dev.answer request with
  | none => exact ⟨rfl, fun _ hnone => absurd hnone.symm (Option.some_ne_none _)⟩
  | some l =>
      refine ⟨rfl, fun resp hresp => ?_⟩
      obtain rfl := Option.some.inj hresp
      rfl

/-- **What is read** is the response to the request, as much of it as was expected and zeros behind it. Nobody
else may be there when there is no response. -/
theorem spiCheckQuery_reads {P : Bench w → Prop} {answers : List UInt8 → Option (List UInt8)} {bus cs : Int}
    {request expected : List UInt8} (hothers : ∀ n, ∀ e ∈ env.others n, e.OffBus) (h : st.emu.Shows b) (hb : P b)
    (hP : ∀ b e t, P b → b.interact e = some t → P t.2) (hanswers : ∀ b, P b → b.Answers .spi spi answers)
    (hfile : env.spidev (spidevFile bus cs) = some spi)
    (hcase : (∀ n, env.others n = []) ∨ ∃ resp, answers request = some resp ∧ resp ≠ [])
    (hrequest : request.length < 2 ^ 32) (hexpected : expected.length < 2 ^ 32) :
    ∃ emu b', spiCheckQuery HZ env bus cs request expected st =
        .ok (expected == zeroFilled expected.length ((answers request).getD []),
          { emu := emu
            transfers := st.transfers + 2
            printed := st.printed ++ [.query request expected (zeroFilled expected.length ((answers request).getD []))]
            exitcode := st.exitcode }) ∧ emu.Shows b' ∧ P b' := by
  have hpresent : ∀ b, P b → ∃ dev, b.devs .spi spi = some dev := by
    intro b hb
    obtain ⟨dev, hdev, _⟩ := hanswers b hb
    exact ⟨dev, hdev⟩
  -- the request
  obtain ⟨b₁, dev, emu₁, hb₁, hdev, hcall, hwrite, h₁⟩ := @transaction_ok w HZ env b st spi P hothers h hb
    (fun e _ b t hb ht => hP b e t hb ht) hpresent (writing request)
  have hb₂ := hP b₁ _ _ hb₁ hcall
  have htransfer : (dev.transfer (writing request)).2 = dev.act (dev.reply request) := by
    unfold BenchDev.transfer writing
    dsimp only
    rw [toNat_len hrequest, List.take_length]
  obtain ⟨dev', hdev', hdevAnswers⟩ := hanswers b₁ hb₁
  obtain rfl := Option.some.inj (hdev.symm.trans hdev')
  obtain ⟨hunread, hheld⟩ := unread_reply (hdevAnswers request)
  rw [htransfer] at hb₂ h₁
  -- what is to be read stays until it is read
  obtain ⟨Q, hQ, hkeep, hread⟩ : ∃ Q : Bench w → Prop,
      Q (b₁.setDev .spi spi (some (dev.act (dev.reply request)))) ∧
      (∀ e ∈ env.others (st.transfers + 1), ∀ b t, Q b → b.interact e = some t → Q t.2) ∧
      ∀ b, Q b → ∃ dev, b.devs .spi spi = some dev ∧ dev.held.unread = (answers request).getD [] := by
    rcases hcase with halone | ⟨resp, hresp, hne⟩
    · refine ⟨fun b => ∃ dev, b.devs .spi spi = some dev ∧ dev.held.unread = (answers request).getD [], ?_, ?_,
        fun b hb => hb⟩
      · exact ⟨_, Bench.devs_setDev_self .., hunread⟩
      · intro e he
        rw [halone] at he
        exact absurd he List.not_mem_nil
    · refine ⟨fun b => b.Holds .spi spi ⟨some .request, resp, 0⟩, ?_, ?_, ?_⟩
      · exact ⟨_, Bench.devs_setDev_self .., hheld resp hresp⟩
      · exact fun e he b t hb ht => hb.interact ⟨rfl, hne⟩ (leaves_of_offBus (hothers _ e he) spi) ht
      · rintro b ⟨dev, hdev, hdevHeld⟩
        refine ⟨dev, hdev, ?_⟩
        rw [hdevHeld, hresp]
        rfl
  -- the read
  let st₁ : State w := { st with emu := emu₁, transfers := st.transfers + 1 }
  obtain ⟨b₂, dev₂, emu₂, ⟨hb₂', hQ₂⟩, hdev₂, hcall₂, hreading, h₂⟩ := @transaction_ok w HZ env _ st₁ spi
    (fun b => P b ∧ Q b) hothers h₁ ⟨hb₂, hQ⟩
    (fun e he b t hb ht => ⟨hP b e t hb.1 ht, hkeep e he b t hb.2 ht⟩) (fun b hb => hpresent b hb.1)
    (reading expected.length)
  obtain ⟨dev₃, hdev₃, hunread₂⟩ := hread b₂ hQ₂
  obtain rfl := Option.some.inj (hdev₂.symm.trans hdev₃)
  have hrx : (dev₂.transfer (reading expected.length)).1 =
      some (zeroFilled expected.length ((answers request).getD [])) := by
    unfold BenchDev.transfer reading
    dsimp only
    rw [toNat_len hexpected, hunread₂]
  refine ⟨emu₂, _, ?_, h₂, hP b₂ _ _ hb₂' hcall₂⟩
  unfold spiCheckQuery
  rw [hfile]
  dsimp only
  rw [hwrite, Except.ok_bind]
  dsimp only
  rw [hreading, hrx, Except.ok_bind]
  rfl

end

/-! ### All requests -/

/-- What is printed of a line of a section, if it is a request. -/
def heard (answers : List UInt8 → Option (List UInt8)) (name : Str) (item : Str × Str) : List Printed :=
  if Hwectl.isHexStr item.1 then
    [.dev name, .query (iniBytes item.1) (iniBytes item.2)
      (zeroFilled (iniBytes item.2).length ((answers (iniBytes item.1)).getD []))]
  else []

/-- What is printed of the buses of a file. -/
def allHeard (answers : Nat → List UInt8 → Option (List UInt8)) (sects : List (Str × List (Str × Str))) : List Printed :=
  ((sectsOn .spi sects).mapIdx fun i sect => sect.2.flatMap (heard (answers i) sect.1)).flatten

def Printed.passed : Printed → Bool
  | .dev _ => true
  | .query _ expected read => expected == read

/-- The file and what the script finds on the system. Others stay off the buses, and away if there are requests
without a response. -/
structure Ready (py : Python) (env : Env w) (sects : List (Str × List (Str × Str))) (cfg : Config)
    (answers : Nat → List UInt8 → Option (List UInt8)) : Prop where
  configures : Configures py sects
  unquoted : Unquoted sects
  named : ∀ i sect, (sectsOn .spi sects)[i]? = some sect → Named cfg .spi i sect.1
  leads : env.Leads sects
  others : ∀ n, ∀ e ∈ env.others n, e.OffBus
  answered : (∀ n, env.others n = []) ∨ ∀ i sect, (sectsOn .spi sects)[i]? = some sect → ∀ item ∈ sect.2,
    Hwectl.isHexStr item.1 = true → ∃ resp, answers i (iniBytes item.1) = some resp ∧ resp ≠ []

/-- The buses of the file are there, and answer as said. -/
def Tested (sects : List (Str × List (Str × Str))) (answers : Nat → List UInt8 → Option (List UInt8)) (b : Bench w) :
    Prop :=
  ∀ i sect, (sectsOn .spi sects)[i]? = some sect → b.Answers .spi i (answers i)

/-- How far the script has got. -/
structure Progress (sects : List (Str × List (Str × Str))) (answers : Nat → List UInt8 → Option (List UInt8))
    (lines : List Printed) (st : State w) : Prop where
  shows : ∃ b, st.emu.Shows b ∧ Tested sects answers b
  printed : st.printed = lines
  exitcode : st.exitcode = if lines.all Printed.passed then 0 else 1

section

variable {sects : List (Str × List (Str × Str))} {cfg : Config} {answers : Nat → List UInt8 → Option (List UInt8)}
  {lines : List Printed} {st : State w} {i : Nat} {sect : Str × List (Str × Str)} {item : Str × Str}

theorem HexOf.length_lt {s : Str} {b : List UInt8} (h : HexOf s b) (hle : s.length ≤ intMax) : b.length < 2 ^ 32 := by
  have hlen := h.length
  unfold intMax at hle
  omega

/-- **One line** of the file. -/
theorem Ready.onPair (hready : Ready py env sects cfg answers) (hst : Progress sects answers lines st)
    (hsect : (sectsOn .spi sects)[i]? = some sect) (hitem : item ∈ sect.2) (j : Int) :
    ∃ st', onPair HZ env py filename cfg .spi (devNameStr .spi i) j (Hwectl.itemText py item) st = .ok st' ∧
      Progress sects answers (lines ++ heard (answers i) sect.1 item) st' := by
  have hmem : sect ∈ sects := List.mem_of_mem_filter (List.mem_of_getElem? hsect)
  obtain ⟨hkey, heq⟩ := hready.configures.keys sect hmem item hitem
  obtain ⟨hvalue, _⟩ := hready.configures.values sect hmem item hitem
  unfold SpiTest.onPair heard
  rw [if_neg (not_not.mpr rfl)]
  rcases hkey.lower_kind (hready.unquoted sect hmem item hitem) with ⟨hhex, _, _, _⟩ | ⟨hhex, _⟩
  · obtain ⟨devs, dev, hdevs, hdev, hname⟩ := hready.named i sect hsect
    obtain ⟨bus, cs, hbus, hcs, hlink, hfile⟩ := hready.leads i sect hsect
    obtain ⟨b, hshows, htested⟩ := hst.shows
    have hrequest : (iniBytes item.1).length < 2 ^ 32 := by
      obtain ⟨hok, _, hof, _⟩ := hkey.lower_ok (hready.unquoted sect hmem item hitem)
      refine HexOf.length_lt (hof (not_isTimer_of_isHexStr hhex)) ?_
      rcases hok.kind with hreq | ⟨hnot, _⟩
      · exact hreq.le.trans (by decide)
      · rw [isHexStr_lower hhex] at hnot
        exact absurd hnot.symm Bool.false_ne_true
    have hresponse : (iniBytes item.2).length < 2 ^ 32 :=
      HexOf.length_lt hvalue.ok.hexOf (hvalue.ok.le.trans (by decide))
    let st₁ : State w := { st with printed := st.printed ++ [.dev sect.1] }
    obtain ⟨emu, b', hquery, hshows', htested'⟩ := @spiCheckQuery_reads w HZ env b st₁ i (Tested sects answers)
      (answers i) bus cs (iniBytes item.1) (iniBytes item.2) hready.others hshows htested
      (fun b e t hb ht i sect hsect => (hb i sect hsect).interact ht) (fun b hb => hb i sect hsect) hfile
      (hready.answered.imp_right fun hall => hall i sect hsect item hitem hhex) hrequest hresponse
    rw [isAsyncPair_request hhex hvalue, Except.ok_bind, if_neg Bool.false_ne_true, hdevs, Option.bind_some, hdev]
    dsimp only
    rw [hname]
    dsimp only
    rw [busNumbers_eq hbus hcs hlink, Except.ok_bind]
    dsimp only
    rw [pairBytes_itemText hhex hkey hvalue, Except.ok_bind]
    dsimp only
    rw [hquery, Except.ok_bind, if_pos hhex]
    dsimp only
    refine ⟨_, rfl, ⟨b', ?_, htested'⟩, ?_, ?_⟩
    · split
      · exact hshows'
      · exact hshows'
    · split
      · exact (List.append_assoc ..).trans (congrArg (· ++ _) hst.printed)
      · exact (List.append_assoc ..).trans (congrArg (· ++ _) hst.printed)
    · have hall : ∀ read : List UInt8, List.all [.dev sect.1, .query (iniBytes item.1) (iniBytes item.2) read]
          Printed.passed = (iniBytes item.2 == read) := by
        intro read
        rw [List.all_cons, List.all_cons, List.all_nil, Bool.and_true]
        exact Bool.true_and _
      rw [List.all_append, hall]
      split
      · rename_i hok
        rw [hok, Bool.and_true]
        exact hst.exitcode
      · rename_i hfail
        rw [Bool.eq_false_of_not_eq_true hfail, Bool.and_false, if_neg Bool.false_ne_true]
  · have htimer : IsTimer py item.1 := by
      cases hkey with
      | hex pos ok => exact absurd (hhex.symm.trans ok.hex) Bool.false_ne_true
      | quoted t heq pos le =>
          have hplain := hready.unquoted sect hmem item hitem
          rw [heq, isQuoted_quoted] at hplain
          exact absurd hplain.symm Bool.false_ne_true
      | timer ok => exact ok
    rw [isAsyncPair_timer htimer heq hvalue, Except.ok_bind, if_pos rfl, if_neg (by rw [hhex]; exact Bool.false_ne_true),
      List.append_nil]
    exact ⟨st, rfl, hst⟩

/-- **One section** of the file. -/
theorem Ready.visitDev (hready : Ready py env sects cfg answers) (hst : Progress sects answers lines st)
    (hsect : (sectsOn .spi sects)[i]? = some sect) :
    ∃ st', Hwemu.visitDev (fun _ _ s => .ok s) (SpiTest.onPair HZ env py filename cfg) (textsOf py sects) .spi st i =
        .ok st' ∧ Progress sects answers (lines ++ sect.2.flatMap (heard (answers i) sect.1)) st' := by
  have htexts : (textsOf py sects).texts .spi i = sect.2.map (Hwectl.itemText py) := by
    have hget : (textsOf py sects .spi)[i]? = some (sect.2.map (Hwectl.itemText py)) :=
      (List.getElem?_map ..).trans (congrArg _ hsect)
    rw [Plan.texts, hget, Option.getD_some]
  unfold Hwemu.visitDev
  rw [Except.ok_bind, htexts, List.length_map]
  let I : Nat → State w → Prop := fun j st =>
    Progress sects answers (lines ++ (sect.2.take j).flatMap (heard (answers i) sect.1)) st
  have hstep : ∀ j < sect.2.length, ∀ st, I j st → ∃ st', SpiTest.onPair HZ env py filename cfg .spi
      (devNameStr .spi i) j ((textsOf py sects).text .spi i j) st = .ok st' ∧ I (j + 1) st' := by
    intro j hj st hst
    have hitem : sect.2[j]? = some sect.2[j] := List.getElem?_eq_getElem hj
    have htext : (textsOf py sects).text .spi i j = Hwectl.itemText py sect.2[j] := by
      rw [Plan.text, htexts, List.getElem?_map, hitem]
      rfl
    obtain ⟨st', hrun, hst'⟩ := hready.onPair hst hsect (List.getElem_mem hj) j
    refine ⟨st', htext ▸ hrun, ?_⟩
    rw [List.append_assoc] at hst'
    change Progress sects answers (lines ++ (sect.2.take (j + 1)).flatMap _) st'
    rw [List.take_add_one, hitem, Option.toList_some, List.flatMap_append, List.flatMap_singleton]
    exact hst'
  have hfirst : I 0 st := by
    change Progress sects answers (lines ++ []) st
    rwa [List.append_nil]
  obtain ⟨st', hrun, hlast⟩ := Except.foldlM_range_ok hstep hfirst
  have htake : sect.2.take sect.2.length = sect.2 := List.take_length
  exact ⟨st', hrun, htake ▸ hlast⟩

/-- **The whole file.** -/
theorem Ready.traverse (hready : Ready py env sects cfg answers) (hnumbered : Config.Numbered cfg (textsOf py sects))
    (hst : Progress sects answers [] st) :
    ∃ st', traverseConfig py (fun _ _ s => .ok s) (SpiTest.onPair HZ env py filename cfg) cfg st = .ok st' ∧
      Progress sects answers (allHeard answers sects) st' := by
  have hlen : ∀ iface, (textsOf py sects iface).length = (sectsOn iface sects).length := fun iface => List.length_map _
  have hmax : ∀ iface, (textsOf py sects iface).length ≤ hweMaxDevices := fun iface =>
    (hlen iface).trans_le (hready.configures.count iface)
  rw [traverseConfig_eq py hnumbered hmax, Except.foldlM_of_ne (x := .spi) cfg.nodup_keys]
  · rw [hlen .spi]
    let I : Nat → State w → Prop := fun i st => Progress sects answers
      (((sectsOn .spi sects).take i).mapIdx fun i sect => sect.2.flatMap (heard (answers i) sect.1)).flatten st
    have hstep : ∀ i < (sectsOn .spi sects).length, ∀ st, I i st → ∃ st', Hwemu.visitDev (fun _ _ s => .ok s)
        (SpiTest.onPair HZ env py filename cfg) (textsOf py sects) .spi st i = .ok st' ∧ I (i + 1) st' := by
      intro i hi st hst
      have hsect : (sectsOn .spi sects)[i]? = some (sectsOn .spi sects)[i] := List.getElem?_eq_getElem hi
      obtain ⟨st', hrun, hst'⟩ := hready.visitDev hst hsect
      refine ⟨st', hrun, ?_⟩
      change Progress sects answers (((sectsOn .spi sects).take (i + 1)).mapIdx _).flatten st'
      rw [List.take_add_one, hsect, Option.toList_some, List.mapIdx_concat, List.flatten_append,
        List.length_take, Nat.min_eq_left hi.le, List.flatten_singleton]
      exact hst'
    obtain ⟨st', hrun, hlast⟩ := Except.foldlM_range_ok (I := I) hstep hst
    have htake : (sectsOn .spi sects).take (sectsOn .spi sects).length = sectsOn .spi sects := List.take_length
    refine ⟨st', hrun, ?_⟩
    change Progress sects answers (((sectsOn .spi sects).take _).mapIdx _).flatten st' at hlast
    rw [htake] at hlast
    exact hlast
  · intro hnot s
    rw [hnumbered.absent .spi (Dict.get?_eq_none_iff.mpr hnot)]
    rfl
  · intro iface hne s
    refine Except.foldlM_fixed fun i _ => ?_
    unfold Hwemu.visitDev
    rw [Except.ok_bind]
    exact Except.foldlM_fixed fun j _ => if_pos hne

end

/-! ### Two buses -/

/-- A file of two buses and an adapter; the first request of the first bus has the response `value`. -/
def twoBuses (value : Str) : List IniLine :=
  [.heading "spi-0".toList, .entry "0A".toList value, .entry "0b0C".toList "aaBB".toList,
    .heading "i2c-0".toList, .entry "01".toList "02".toList,
    .heading "spi-1".toList, .entry "0A".toList "\"tick\"".toList, .entry "timer:2s".toList "cc".toList]

/-- The text of the file. -/
def busesText (value : Str) : Str :=
  "[spi-0]\n0A=".toList ++ value ++ ("\n0b0C=aaBB\n[i2c-0]\n01=02\n" ++ "[spi-1]\n0A=\"tick\"\ntimer:2s=cc\n").toList

/-- The response that the file of the test expects, and one that is longer. -/
def sampleValues : List Str := ["\"x\"".toList, "\"xy\"".toList]

theorem twoBuses_ok : ∀ value ∈ sampleValues,
    List.Forall₂ IniLine.Written (pyLines (universalNewlines (busesText value))) (twoBuses value) ∧
      Configures samplePython (IniLine.sections (twoBuses value)) ∧ WrittenOnce (IniLine.sections (twoBuses value)) ∧
      Unquoted (IniLine.sections (twoBuses value)) ∧ ∀ sect ∈ IniLine.sections (twoBuses value), SectFits sect := by
  decide +kernel

/-- An emulator that was configured with the file. -/
theorem exists_twoBuses {value : Str} (hvalue : value ∈ sampleValues) :
    ∃ (emu : Emulator 64) (b : Bench 64), Configured samplePython (IniLine.sections (twoBuses value)) emu b := by
  obtain ⟨hlines, hconfigures, honce, hplain, hfits⟩ := twoBuses_ok value hvalue
  obtain ⟨cfg, t, _, _, _, hrun, haccepted, hconfigured⟩ := @exists_configured 64 250 samplePython _ _ _
    (decodeUtf8_utf8 (busesText value)) hlines rfl hconfigures honce hplain hfits "test.ini".toList
    (fun _ => Pair.zeroed 64) .empty
  obtain ⟨b, _, hshows⟩ := (Emulator.Shows.loaded 64 .empty).run (fun e he => (haccepted e he).1) hrun
  exact ⟨t.emu, b, hconfigured b hshows⟩

/-- The clock of the kernel goes on. -/
def oneTick : List (EmuEvent 64) := [.tick 1000 (fun _ => true) fun _ _ _ => ⟨0, true, 0⟩]

theorem oneTick_offBus : ∀ e ∈ oneTick, e.OffBus := by
  intro e he
  rw [List.mem_singleton.mp he]
  exact ⟨by simp, by simp, fun b _ index dev _ l _ => rfl⟩

/-- A system where the links of the buses lead to the first two buses of the emulator. -/
def linkedEnv (others : Nat → List (EmuEvent 64)) : Env 64 where
  readlink lnk :=
    if lnk = "/dev/spi-0".toList then some (spidevFile 3 0)
    else if lnk = "/dev/spi-1".toList then some (spidevFile 4 0) else none
  isdigit s := !s.isEmpty && s.all Char.isDigit
  spidev file := if file = spidevFile 3 0 then some 0 else if file = spidevFile 4 0 then some 1 else none
  others := others
  isdigit_ascii s hne hall := by
    rw [List.all_eq_true.mpr hall, Bool.and_true, Bool.not_eq_true', List.isEmpty_eq_false_iff]
    exact hne

theorem linkedEnv_leads (others : Nat → List (EmuEvent 64)) (value : Str) :
    (linkedEnv others).Leads (IniLine.sections (twoBuses value)) := by
  let env := linkedEnv fun _ => []
  have hlinks : env.readlink "/dev/spi-0".toList = some (spidevFile 3 0) ∧
      env.readlink "/dev/spi-1".toList = some (spidevFile 4 0) ∧
      env.spidev (spidevFile 3 0) = some 0 ∧ env.spidev (spidevFile 4 0) = some 1 := by
    decide +kernel
  obtain ⟨hlink₀, hlink₁, hbus₀, hbus₁⟩ := hlinks
  intro i sect hsect
  rcases i with _ | _ | i
  · obtain rfl := Option.some.inj hsect
    exact ⟨3, 0, by decide, by decide, hlink₀, hbus₀⟩
  · obtain rfl := Option.some.inj hsect
    exact ⟨4, 0, by decide, by decide, hlink₁, hbus₁⟩
  · exact absurd hsect.symm (Option.some_ne_none _)

/-! ### The script -/

/-- What is printed of a section when all is well. -/
def asked (sect : Str × List (Str × Str)) : List Printed :=
  sect.2.flatMap fun item =>
    if Hwectl.isHexStr item.1 then [.dev sect.1, .query (iniBytes item.1) (iniBytes item.2) (iniBytes item.2)] else []

theorem zeroFilled_self (resp : List UInt8) : zeroFilled resp.length resp = resp := by
  rw [zeroFilled, List.take_length, Nat.sub_self]
  exact List.append_nil resp

/-- The responses of the file are heard. -/
theorem allHeard_eq {sects : List (Str × List (Str × Str))} {answers : Nat → List UInt8 → Option (List UInt8)}
    (hanswers : ∀ i sect, (sectsOn .spi sects)[i]? = some sect → ∀ item ∈ sect.2, Hwectl.isHexStr item.1 = true →
      answers i (iniBytes item.1) = some (iniBytes item.2)) :
    allHeard answers sects = (sectsOn .spi sects).flatMap asked := by
  have hmap : (sectsOn .spi sects).mapIdx (fun i sect => sect.2.flatMap (heard (answers i) sect.1)) =
      (sectsOn .spi sects).map asked := by
    apply List.ext_getElem?
    intro i
    rw [List.getElem?_mapIdx, List.getElem?_map]
    cases hsect : (sectsOn .spi sects)[i]? with
    | none => rfl
    | some sect =>
        refine congrArg some (List.flatMap_congr fun item hitem => ?_)
        unfold heard
        split
        · rename_i hhex
          rw [hanswers i sect hsect item hitem hhex, Option.getD_some, zeroFilled_self]
        · rfl
  rw [allHeard, hmap, List.flatMap_def]

theorem all_passed_asked (sects : List (Str × List (Str × Str))) : (sects.flatMap asked).all Printed.passed = true := by
  refine List.all_eq_true.mpr fun line hline => ?_
  obtain ⟨sect, _, hline⟩ := List.mem_flatMap.mp hline
  obtain ⟨item, _, hline⟩ := List.mem_flatMap.mp hline
  split at hline
  · rw [List.mem_cons, List.mem_singleton] at hline
    rcases hline with rfl | rfl
    · rfl
    · exact beq_self_eq_true _
  · exact absurd hline List.not_mem_nil

/-- All is well when each response is the one expected, as far as it is read. -/
theorem all_passed_iff {sects : List (Str × List (Str × Str))} {answers : Nat → List UInt8 → Option (List UInt8)} :
    (allHeard answers sects).all Printed.passed = true ↔ ∀ i sect, (sectsOn .spi sects)[i]? = some sect →
      ∀ item ∈ sect.2, Hwectl.isHexStr item.1 = true →
        iniBytes item.2 = zeroFilled (iniBytes item.2).length ((answers i (iniBytes item.1)).getD []) := by
  rw [List.all_eq_true]
  constructor
  · intro hall i sect hsect item hitem hhex
    obtain ⟨hi, hget⟩ := List.getElem?_eq_some_iff.mp hsect
    let line : Printed := .query (iniBytes item.1) (iniBytes item.2)
      (zeroFilled (iniBytes item.2).length ((answers i (iniBytes item.1)).getD []))
    have hheard : line ∈ heard (answers i) sect.1 item := by
      unfold heard
      rw [if_pos hhex]
      exact List.mem_cons_of_mem _ (List.mem_singleton_self line)
    have hline : line ∈ allHeard answers sects := by
      refine List.mem_flatten.mpr ⟨_, List.mem_mapIdx.mpr ⟨i, hi, rfl⟩, List.mem_flatMap.mpr ⟨item, ?_, ?_⟩⟩
      · rw [hget]
        exact hitem
      · rw [hget]
        exact hheard
    exact eq_of_beq (hall line hline)
  · intro hall line hline
    obtain ⟨lines, hlines, hline⟩ := List.mem_flatten.mp hline
    obtain ⟨i, hi, rfl⟩ := List.mem_mapIdx.mp hlines
    obtain ⟨item, hitem, hline⟩ := List.mem_flatMap.mp hline
    unfold heard at hline
    split at hline
    · rename_i hhex
      rw [List.mem_cons, List.mem_singleton] at hline
      rcases hline with rfl | rfl
      · rfl
      · exact beq_iff_eq.mpr (hall i _ (List.getElem?_eq_getElem hi) item hitem hhex)
    · exact absurd hline List.not_mem_nil

section

variable {data : List UInt8} {text : Str} {ls : List IniLine} {emu : Emulator w} {b : Bench w}
  (hdata : decodeUtf8 data = .ok text)
  (hlines : List.Forall₂ IniLine.Written (pyLines (universalNewlines text)) ls) (hfirst : IniLine.entries ls = [])
  (h : Configures py (IniLine.sections ls)) (honce : WrittenOnce (IniLine.sections ls))
  (hplain : Unquoted (IniLine.sections ls)) (hleads : env.Leads (IniLine.sections ls))

include hdata hlines hfirst h honce hplain hleads

/-- What the script prints on a file, and how it exits. -/
theorem main_heard {answers : Nat → List UInt8 → Option (List UInt8)} (hshows : emu.Shows b)
    (htested : Tested (IniLine.sections ls) answers b) (hothers : ∀ n, ∀ e ∈ env.others n, e.OffBus)
    (hanswered : (∀ n, env.others n = []) ∨ ∀ i sect, (sectsOn .spi (IniLine.sections ls))[i]? = some sect →
      ∀ item ∈ sect.2, Hwectl.isHexStr item.1 = true → ∃ resp, answers i (iniBytes item.1) = some resp ∧ resp ≠ [])
    (filename : Str) :
    ∃ st, main HZ env py filename (some data) emu = .ok st ∧
      Progress (IniLine.sections ls) answers (allHeard answers (IniLine.sections ls)) st := by
  obtain ⟨hloads, hnumbered⟩ := loadFromIni_lines hdata hlines hfirst h filename
  obtain ⟨cfg, hload⟩ := hloads.mpr ⟨honce, hplain⟩
  obtain ⟨ini, hini, _⟩ := Except.bind_eq_ok_iff.mp hload
  have his := (readIni_lines hdata hlines (plain_of_configures hfirst h) hfirst).2 ini hini
  have hready : Ready py env (IniLine.sections ls) cfg answers :=
    ⟨h, hplain, fun i sect hsect => named_of_load hini his hload hsect, hleads, hothers, hanswered⟩
  let st₀ : State w := { emu := emu, transfers := 0, printed := [], exitcode := 0 }
  have hstart : Progress (IniLine.sections ls) answers [] st₀ := ⟨⟨b, hshows, htested⟩, rfl, rfl⟩
  obtain ⟨st, hrun, hst⟩ := hready.traverse (hnumbered cfg hload) hstart
  refine ⟨st, ?_, hst⟩
  unfold main
  rw [hload, Except.ok_bind]
  exact hrun

/-- **The test passes** on an emulator that was configured with the file of the test, whatever others do there
off the buses, and has then made each request of the file and read its response. -/
theorem spi_test_passes (hconfigured : Configured py (IniLine.sections ls) emu b)
    (hothers : ∀ n, ∀ e ∈ env.others n, e.OffBus) (filename : Str) :
    ∃ st, main HZ env py filename (some data) emu = .ok st ∧ st.exitcode = 0 ∧
      st.printed = (sectsOn .spi (IniLine.sections ls)).flatMap asked := by
  let answers : Nat → List UInt8 → Option (List UInt8) := fun i request =>
    (sectsOn .spi (IniLine.sections ls))[i]?.bind fun sect => sectAnswer sect.2 request
  have hsectAnswers : ∀ i sect, (sectsOn .spi (IniLine.sections ls))[i]? = some sect →
      answers i = sectAnswer sect.2 := by
    intro i sect hsect
    funext request
    exact congrArg (Option.bind · _) hsect
  have hof : ∀ i sect, (sectsOn .spi (IniLine.sections ls))[i]? = some sect → ∀ item ∈ sect.2,
      Hwectl.isHexStr item.1 = true → answers i (iniBytes item.1) = some (iniBytes item.2) := by
    intro i sect hsect item hitem hhex
    have hmem : sect ∈ IniLine.sections ls := List.mem_of_mem_filter (List.mem_of_getElem? hsect)
    rw [hsectAnswers i sect hsect]
    exact sectAnswer_of_mem (h.requests sect hmem) hitem hhex
  have htested : Tested (IniLine.sections ls) answers b := by
    intro i sect hsect
    rw [hsectAnswers i sect hsect]
    exact hconfigured.answers .spi i sect hsect
  obtain ⟨st, hrun, hst⟩ := @main_heard w HZ py env data text ls emu b hdata hlines hfirst h honce hplain hleads answers
    hconfigured.shows htested hothers
    (Or.inr fun i sect hsect item hitem hhex => ⟨_, hof i sect hsect item hitem hhex, (h.values sect
      (List.mem_of_mem_filter (List.mem_of_getElem? hsect)) item hitem).1.ne_nil⟩) filename
  have hall : allHeard answers (IniLine.sections ls) = (sectsOn .spi (IniLine.sections ls)).flatMap asked :=
    allHeard_eq hof
  refine ⟨st, hrun, ?_, hst.printed.trans hall⟩
  rw [hst.exitcode, hall, all_passed_asked, if_pos rfl]

/-- **The verdict** of a test that is alone on the system is about what its reads get: a response that goes on
behind the expected one passes, and so does one that ends before zeros that are expected. -/
theorem spi_test_verdict {answers : Nat → List UInt8 → Option (List UInt8)} (hshows : emu.Shows b)
    (htested : Tested (IniLine.sections ls) answers b) (halone : ∀ n, env.others n = []) (filename : Str) :
    ∃ st, main HZ env py filename (some data) emu = .ok st ∧
      (st.exitcode = 0 ↔ ∀ i sect, (sectsOn .spi (IniLine.sections ls))[i]? = some sect → ∀ item ∈ sect.2,
        Hwectl.isHexStr item.1 = true →
          iniBytes item.2 = zeroFilled (iniBytes item.2).length ((answers i (iniBytes item.1)).getD [])) := by
  have hothers : ∀ n, ∀ e ∈ env.others n, e.OffBus := by
    intro n e he
    rw [halone] at he
    exact absurd he List.not_mem_nil
  obtain ⟨st, hrun, hst⟩ := @main_heard w HZ py env data text ls emu b hdata hlines hfirst h honce hplain hleads answers
    hshows htested hothers (Or.inl halone) filename
  refine ⟨st, hrun, ?_⟩
  have hexit : st.exitcode = 0 ↔ (allHeard answers (IniLine.sections ls)).all Printed.passed = true := by
    rw [hst.exitcode]
    split
    · rename_i hall
      exact iff_of_true rfl hall
    · rename_i hnot
      exact iff_of_false Nat.one_ne_zero hnot
  rw [hexit]
  exact all_passed_iff

end

/-- The buses that answer as in the file pass their test while the timers run. -/
theorem spi_test_passes_applies : ∃ (emu : Emulator 64) (st : State 64),
    main 250 (linkedEnv fun _ => oneTick) samplePython "test.ini".toList (some (utf8 (busesText "\"x\"".toList))) emu =
      .ok st ∧ st.exitcode = 0 ∧ st.printed = [.dev "spi-0".toList, .query [0x0a] [0x78] [0x78],
        .dev "spi-0".toList, .query [0x0b, 0x0c] [0xaa, 0xbb] [0xaa, 0xbb],
        .dev "spi-1".toList, .query [0x0a] (bytes "tick") (bytes "tick")] := by
  obtain ⟨hlines, hconfigures, honce, hplain, _⟩ := twoBuses_ok "\"x\"".toList (by decide)
  obtain ⟨emu, b, hconfigured⟩ := exists_twoBuses (show "\"x\"".toList ∈ sampleValues by decide)
  obtain ⟨st, hmain, hexit, hprinted⟩ := @spi_test_passes 64 250 samplePython _ _ _ _ emu b
    (decodeUtf8_utf8 (busesText "\"x\"".toList)) hlines rfl hconfigures honce hplain (linkedEnv_leads _ _)
    hconfigured (fun _ => oneTick_offBus) "test.ini".toList
  refine ⟨emu, st, hmain, hexit, hprinted.trans ?_⟩
  decide +kernel

/-- The buses of which the first answers the byte `0a` with `xy` pass the test of the other file. -/
theorem spi_test_verdict_applies : ∃ (emu : Emulator 64) (st : State 64),
    main 250 (linkedEnv fun _ => []) samplePython "test.ini".toList (some (utf8 (busesText "\"x\"".toList))) emu =
      .ok st ∧ st.exitcode = 0 := by
  obtain ⟨hlines, hconfigures, honce, hplain, _⟩ := twoBuses_ok "\"x\"".toList (by decide)
  obtain ⟨emu, b, hconfigured⟩ := exists_twoBuses (show "\"xy\"".toList ∈ sampleValues by decide)
  let sects := sectsOn .spi (IniLine.sections (twoBuses "\"xy\"".toList))
  have htested : Tested (IniLine.sections (twoBuses "\"x\"".toList))
      (fun i request => sects[i]?.bind fun sect => sectAnswer sect.2 request) b := by
    intro i sect hsect
    rcases i with _ | _ | i
    · exact hconfigured.answers .spi 0 _ rfl
    · exact hconfigured.answers .spi 1 _ rfl
    · exact absurd hsect.symm (Option.some_ne_none _)
  obtain ⟨st, hmain, hverdict⟩ := @spi_test_verdict 64 250 samplePython _ _ _ _ emu b
    (decodeUtf8_utf8 (busesText "\"x\"".toList)) hlines rfl hconfigures honce hplain (linkedEnv_leads _ _) _
    hconfigured.shows htested (fun _ => rfl) "test.ini".toList
  refine ⟨emu, st, hmain, hverdict.mpr ?_⟩
  intro i sect hsect
  rcases i with _ | _ | i
  · obtain rfl := Option.some.inj hsect
    decide +kernel
  · obtain rfl := Option.some.inj hsect
    decide +kernel
  · exact absurd hsect.symm (Option.some_ne_none _)

end SpiTest

end Hwemu
