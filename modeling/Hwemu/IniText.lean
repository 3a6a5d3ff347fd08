import Hwemu.IniFile

/-!
# What a file is read as

The lines of a file are headings, keys with their values, and lines that say nothing. Such a file is read
as its sections, unless a section stands in it twice, or a key twice in a section.
-/

namespace Hwemu

variable {py : Python} {line : Str} {lines : List Str} {r r' : IniReader}

/-! ### Lines -/

inductive IniLine where
  | skip
  | heading (name : Str)
  | entry (key value : Str)

namespace IniLine

/-- How a line is written, blanks behind it and the newline aside: a heading or a key is not indented. -/
def Written (line : Str) : IniLine → Prop
  | skip => strip line = [] ∨ startsWith ['#'] (strip line) = true ∨ startsWith [';'] (strip line) = true
  | heading name => line.takeWhile isPySpace = [] ∧ strip line = '[' :: (name ++ [']'])
  | entry key value => line.takeWhile isPySpace = [] ∧ strip line = key ++ '=' :: value

instance (line : Str) : (l : IniLine) → Decidable (Written line l)
  | skip => inferInstanceAs (Decidable (strip line = [] ∨ startsWith ['#'] (strip line) = true ∨
      startsWith [';'] (strip line) = true))
  | heading name => inferInstanceAs (Decidable (line.takeWhile isPySpace = [] ∧ strip line = '[' :: (name ++ [']'])))
  | entry key value => inferInstanceAs (Decidable (line.takeWhile isPySpace = [] ∧ strip line = key ++ '=' :: value))

/-- The line cannot be taken for another one. -/
def Plain : IniLine → Prop
  | skip => True
  | heading name => name ≠ [] ∧ name ≠ defaultSect
  | entry key value => '=' ∉ key ∧ rstrip key = key ∧ strip value = value ∧
      ∃ c, key.head? = some c ∧ c ∉ ['#', ';', '[']

/-- The keys and values up to the next heading. -/
def entries : List IniLine → List (Str × Str)
  | [] => []
  | skip :: ls => entries ls
  | heading _ :: _ => []
  | entry key value :: ls => (key, value) :: entries ls

/-- The sections with their keys and values. -/
def sections : List IniLine → List (Str × List (Str × Str))
  | [] => []
  | heading name :: ls => (name, entries ls) :: sections ls
  | skip :: ls => sections ls
  | entry _ _ :: ls => sections ls

end IniLine

/-- No section stands twice in the file, and no key twice in a section. -/
structure IniDistinct (py : Python) (sects : List (Str × List (Str × Str))) : Prop where
  names : (sects.map Prod.fst).Nodup
  keys : ∀ sect ∈ sects, (sect.2.map fun item => py.lower item.1).Nodup

theorem sectHeader_heading {name : Str} (h : name ≠ []) : sectHeader ('[' :: (name ++ [']'])) = some name := by
  rw [sectHeader, List.reverse_append, List.reverse_singleton, List.singleton_append,
    List.dropWhile_cons_of_neg (by decide)]
  cases hrev : name.reverse with
  | nil => exact absurd (List.reverse_eq_nil_iff.mp hrev) h
  | cons c header =>
      dsimp only
      rw [← hrev, List.reverse_reverse]

theorem optionLine_entry {key value : Str} (h : '=' ∉ key) :
    optionLine (key ++ '=' :: value) = some (rstrip key, value.dropWhile isPySpace) := by
  have hkey : ∀ c ∈ key, decide (c ≠ '=') = true := fun c hc => decide_eq_true fun heq => h (heq ▸ hc)
  rw [optionLine, List.dropWhile_append_of_pos hkey, List.dropWhile_cons_of_neg (by decide),
    List.takeWhile_append_of_pos hkey, List.takeWhile_cons_of_neg (by decide), List.append_nil]

theorem startsWith_cons {c c' : Char} {s : Str} : startsWith [c] (c' :: s) = true ↔ c = c' := by
  rw [startsWith, List.isPrefixOf_iff_prefix, List.cons_prefix_cons]
  exact and_iff_left List.nil_prefix

/-- An empty line at the end of a value does not show. -/
theorem joinLines_append_nil (values : List Str) : joinLines (values ++ [[]]) = joinLines values := by
  rcases List.eq_nil_or_concat values with rfl | ⟨init, last, rfl⟩
  · rfl
  · have hspace : isPySpace '\n' = true := by decide
    have happend : ∀ l : List Str, ['\n'].intercalate (l ++ [last] ++ [[]]) = ['\n'].intercalate (l ++ [last]) ++ ['\n'] := by
      intro l
      induction l with
      | nil => simp [List.intercalate]
      | cons a l ih =>
          cases l with
          | nil => simp [List.intercalate]
          | cons b l => simpa [List.intercalate] using ih
    rw [joinLines, joinLines, List.concat_eq_append, happend, rstrip, List.rdropWhile_concat_pos _ _ _ hspace]
    rfl

/-- A value without blanks around it is read as it is. -/
theorem joinLines_strip {value : Str} (h : strip value = value) : joinLines [strip (value.dropWhile isPySpace)] = value := by
  have hrstrip : rstrip value = value := by
    rw [← h, strip]
    exact List.rdropWhile_idempotent _ _
  rw [strip, List.dropWhile_idempotent]
  change rstrip (['\n'].intercalate [strip value]) = value
  rw [List.intercalate_singleton, h, hrstrip]

/-! ### One line -/

/-- The keys of a section in lower case, with their values. -/
def loweredItems (py : Python) (sect : Str × List (Str × Str)) : Str × List (Str × Str) :=
  (sect.1, sect.2.map fun item => (py.lower item.1, item.2))

/-- What the reader holds of a section, its values as they will be joined. -/
def joinedItems (sect : Str × Dict Str (List Str)) : Str × List (Str × Str) :=
  (sect.1, sect.2.items.map fun item => (item.1, joinLines item.2))

/-- The reader has read these sections; the last is the current one, if there is any. -/
structure IniReader.Holds (py : Python) (r : IniReader) (sects : List (Str × List (Str × Str))) : Prop where
  items : r.sections.items.map joinedItems = sects.map (loweredItems py)
  sectname : r.sectname = sects.getLast?.map Prod.fst
  named : ∀ sect ∈ sects, sect.1 ≠ defaultSect
  defaults : r.defaults = .empty
  indentLevel : r.indentLevel = 0
  bad : r.bad = false

namespace IniReader.Holds

variable {sects : List (Str × List (Str × Str))} {name : Str} {items : List (Str × Str)}

theorem keys (h : r.Holds py sects) : r.sections.keys = sects.map Prod.fst := by
  have hnames := congrArg (List.map Prod.fst) h.items
  rwa [List.map_map, List.map_map] at hnames

/-- The current section is the last one of the dictionary. -/
theorem current (h : r.Holds py (sects ++ [(name, items)])) :
    ∃ (front : List (Str × Dict Str (List Str))) (options : Dict Str (List Str)),
      r.sections.items = front ++ [(name, options)] ∧ front.map joinedItems = sects.map (loweredItems py) ∧
      options.items.map (fun item => (item.1, joinLines item.2)) = items.map (fun item => (py.lower item.1, item.2)) ∧
      r.sectname = some name ∧ r.cursect = some options := by
  have hitems := h.items
  rw [List.map_append, List.map_singleton] at hitems
  obtain ⟨front, last, hsplit, hfront, hlast⟩ := List.map_eq_append_iff.mp hitems
  obtain ⟨⟨name', options⟩, rfl, hjoined⟩ := List.map_eq_singleton_iff.mp hlast
  obtain ⟨rfl, hoptions⟩ := Prod.mk.inj hjoined
  have hsectname : r.sectname = some name' := by
    rw [h.sectname, List.getLast?_concat]
    rfl
  refine ⟨front, options, hsplit, hfront, hoptions, hsectname, ?_⟩
  have hnamed : name' ≠ defaultSect := h.named (name', items) (List.mem_append_right _ (List.mem_singleton_self _))
  have hmem : (name', options) ∈ r.sections.items := by
    rw [hsplit]
    exact List.mem_append_right _ (List.mem_singleton_self _)
  rw [IniReader.cursect, hsectname, Option.bind_some, if_neg hnamed]
  exact Dict.get?_eq_some_iff.mpr hmem

/-- Writing to the current section. -/
theorem setCursect (h : r.Holds py (sects ++ [(name, items)])) {options : Dict Str (List Str)}
    {items' : List (Str × Str)} (optname : Str)
    (hoptions : options.items.map (fun item => (item.1, joinLines item.2)) =
      items'.map fun item => (py.lower item.1, item.2)) :
    (({ r with optname := optname } : IniReader).setCursect name options).Holds py (sects ++ [(name, items')]) := by
  obtain ⟨front, old, hsplit, hfront, _, hsectname, _⟩ := h.current
  have hnamed : ∀ sect ∈ sects ++ [(name, items')], sect.1 ≠ defaultSect := by
    intro sect hsect
    rcases List.mem_append.mp hsect with hold | hlast
    · exact h.named sect (List.mem_append_left _ hold)
    · rw [List.mem_singleton.mp hlast]
      exact h.named (name, items) (List.mem_append_right _ (List.mem_singleton_self _))
  have hname : name ≠ defaultSect := hnamed (name, items') (List.mem_append_right _ (List.mem_singleton_self _))
  have hkey : name ∈ r.sections.keys := by
    rw [Dict.keys, hsplit, List.map_append, List.mem_append]
    exact Or.inr (List.mem_singleton_self _)
  have hnodup := r.sections.nodup
  rw [hsplit, List.map_append, List.nodup_append] at hnodup
  have hother : ∀ sect ∈ front, sect.1 ≠ name := fun sect hsect =>
    hnodup.2.2 sect.1 (List.mem_map_of_mem hsect) name (List.mem_singleton_self _)
  have hset : (r.sections.set name options).items = front ++ [(name, options)] := by
    rw [Dict.items_set_of_mem hkey, hsplit, List.map_append, List.map_singleton, if_pos rfl]
    congr 1
    exact (List.map_congr_left fun sect hsect => if_neg (hother sect hsect)).trans (List.map_id front)
  unfold IniReader.setCursect
  rw [if_neg hname]
  refine ⟨?_, ?_, hnamed, h.defaults, h.indentLevel, h.bad⟩
  · change (r.sections.set name options).items.map joinedItems = _
    rw [hset, List.map_append, List.map_append, hfront]
    congr 1
    exact congrArg (fun l => [(name, l)]) hoptions
  · rw [List.getLast?_concat]
    exact hsectname

theorem appendLine (h : r.Holds py sects) : (r.appendLine []).Holds py sects := by
  rcases List.eq_nil_or_concat sects with rfl | ⟨init, ⟨name, items⟩, rfl⟩
  · have hnone : r.sectname = none := h.sectname
    unfold IniReader.appendLine
    simp only [hnone]
    exact h
  · rw [List.concat_eq_append] at h ⊢
    obtain ⟨_, options, _, _, hoptions, hsectname, hcursect⟩ := h.current
    unfold IniReader.appendLine
    simp only [hsectname, hcursect]
    split
    · exact h
    · split
      · rename_i values hvalues
        refine h.setCursect r.optname ?_
        rw [Dict.map_items_set (f := fun item => (item.1, joinLines item.2)) (x := values ++ [[]]) hvalues
          (Prod.ext rfl (joinLines_append_nil values))]
        exact hoptions
      · exact h

theorem skip (h : r.Holds py sects) (hline : IniLine.skip.Written line) :
    ∃ r', r.readLine py line = .ok r' ∧ r'.Holds py sects := by
  unfold IniReader.readLine
  dsimp only
  split
  · exact ⟨r, rfl, h⟩
  · rename_i hcomment
    rw [Bool.or_eq_true] at hcomment
    rw [if_pos (hline.resolve_right hcomment)]
    exact ⟨_, rfl, h.appendLine⟩

/-- A line that is not indented is a heading or a key. -/
theorem readLine_eq (h : r.Holds py sects) {c : Char} {s : Str} (hindent : line.takeWhile isPySpace = [])
    (hstrip : strip line = c :: s) (hc : c ≠ '#' ∧ c ≠ ';') : r.readLine py line = r.readHeading py (c :: s) := by
  have hsame : ({ r with indentLevel := 0 } : IniReader) = r := by
    rw [← h.indentLevel]
  unfold IniReader.readLine
  rw [hstrip, hindent]
  dsimp only [List.length_nil]
  rw [if_neg, if_neg (List.cons_ne_nil c s), if_neg fun hdeeper => Nat.not_lt_zero _ hdeeper.2.2, hsame]
  rw [Bool.or_eq_true, startsWith_cons, startsWith_cons]
  exact not_or.mpr ⟨hc.1.symm, hc.2.symm⟩

theorem heading (h : r.Holds py sects) (hline : (IniLine.heading name).Written line)
    (hplain : (IniLine.heading name).Plain) :
    if name ∈ sects.map Prod.fst then ∃ e, r.readLine py line = .error e
    else ∃ r', r.readLine py line = .ok r' ∧ r'.Holds py (sects ++ [(name, [])]) := by
  obtain ⟨hindent, hstrip⟩ := hline
  obtain ⟨hne, hnamed⟩ := hplain
  rw [h.readLine_eq hindent hstrip (by decide)]
  unfold IniReader.readHeading
  rw [sectHeader_heading hne]
  dsimp only
  rw [h.keys, if_neg hnamed]
  split
  · exact ⟨_, rfl⟩
  · rename_i hnew
    refine ⟨_, rfl, ?_, ?_, ?_, h.defaults, h.indentLevel, h.bad⟩
    · have hfresh : name ∉ r.sections.keys := h.keys ▸ hnew
      change (r.sections.set name .empty).items.map joinedItems = _
      rw [Dict.items_set_of_notMem hfresh, List.map_append, List.map_append, h.items]
      rfl
    · rw [List.getLast?_concat]
      rfl
    · intro sect hsect
      rcases List.mem_append.mp hsect with hold | hlast
      · exact h.named sect hold
      · rw [List.mem_singleton.mp hlast]
        exact hnamed

theorem entry (h : r.Holds py (sects ++ [(name, items)])) {key value : Str}
    (hline : (IniLine.entry key value).Written line) (hplain : (IniLine.entry key value).Plain) :
    if py.lower key ∈ items.map (fun item => py.lower item.1) then ∃ e, r.readLine py line = .error e
    else ∃ r', r.readLine py line = .ok r' ∧ r'.Holds py (sects ++ [(name, items ++ [(key, value)])]) := by
  obtain ⟨hindent, hstrip⟩ := hline
  obtain ⟨heq, hkey, hvalue, c, hhead, hc⟩ := hplain
  obtain ⟨s, rfl⟩ := List.head?_eq_some_iff.mp hhead
  simp only [List.mem_cons, List.not_mem_nil, or_false, not_or] at hc
  obtain ⟨_, options, _, _, hoptions, hsectname, hcursect⟩ := h.current
  have hkeys : options.keys = items.map fun item => py.lower item.1 := by
    have hnames := congrArg (List.map Prod.fst) hoptions
    rwa [List.map_map, List.map_map] at hnames
  have hnoHeader : sectHeader (c :: (s ++ '=' :: value)) = none := by
    unfold sectHeader
    split
    · rename_i heq'
      exact absurd (List.cons.inj heq').1 hc.2.2
    · rfl
  rw [List.cons_append] at hstrip
  rw [h.readLine_eq hindent hstrip ⟨hc.1, hc.2.1⟩]
  unfold IniReader.readHeading
  rw [hnoHeader]
  dsimp only
  simp only [hsectname, hcursect]
  rw [← List.cons_append, optionLine_entry heq]
  dsimp only
  rw [hkey, hkey, hkeys]
  split
  · exact ⟨_, rfl⟩
  · rename_i hnew
    have hfresh : py.lower (c :: s) ∉ options.keys := hkeys ▸ hnew
    have hbad : (r.bad || decide (c :: s = [])) = r.bad := by
      rw [decide_eq_false (List.cons_ne_nil c s), Bool.or_false]
    have hwritten : (options.set (py.lower (c :: s)) [strip (value.dropWhile isPySpace)]).items.map
        (fun item => (item.1, joinLines item.2)) = (items ++ [(c :: s, value)]).map fun item =>
          (py.lower item.1, item.2) := by
      rw [Dict.items_set_of_notMem hfresh, List.map_append, List.map_append, hoptions, List.map_singleton,
        List.map_singleton, joinLines_strip hvalue]
    have hholds := h.setCursect (py.lower (c :: s)) hwritten
    rw [hsectname] at hholds
    rw [hbad]
    exact ⟨_, rfl, hholds⟩

theorem distinct (h : r.Holds py sects) : IniDistinct py sects := by
  constructor
  · rw [← h.keys]
    exact r.sections.nodup_keys
  · intro sect hsect
    have hmem : loweredItems py sect ∈ r.sections.items.map joinedItems := by
      rw [h.items]
      exact List.mem_map_of_mem hsect
    obtain ⟨⟨name, options⟩, _, hjoined⟩ := List.mem_map.mp hmem
    have hkeys := congrArg (List.map Prod.fst) (Prod.mk.inj hjoined).2
    rw [List.map_map, List.map_map] at hkeys
    exact hkeys ▸ options.nodup_keys

end IniReader.Holds

/-! ### All lines -/

open IniLine in
/-- **The lines from the current section on.** -/
theorem readLines_current {ls : List IniLine} (hlines : List.Forall₂ Written lines ls) (hplain : ∀ l ∈ ls, l.Plain)
    {sects : List (Str × List (Str × Str))} {name : Str} {items : List (Str × Str)}
    (h : r.Holds py (sects ++ [(name, items)])) :
    (∃ r', lines.foldlM (IniReader.readLine py) r = .ok r' ∧
        r'.Holds py (sects ++ (name, items ++ entries ls) :: sections ls)) ∨
      (∃ e, lines.foldlM (IniReader.readLine py) r = .error e) ∧
        ¬IniDistinct py (sects ++ (name, items ++ entries ls) :: sections ls) := by
  induction hlines generalizing r sects name items with
  | nil =>
      refine Or.inl ⟨r, rfl, ?_⟩
      rw [entries, sections, List.append_nil]
      exact h
  | @cons line l lines ls hline hlines ih =>
      rw [List.forall_mem_cons] at hplain
      have hfails : (∃ e, r.readLine py line = .error e) → ∃ e, (line :: lines).foldlM (IniReader.readLine py) r = .error e := by
        rintro ⟨e, herror⟩
        refine ⟨e, ?_⟩
        rw [List.foldlM_cons, herror]
        rfl
      cases l with
      | skip =>
          obtain ⟨r₁, hread, hholds⟩ := h.skip hline
          rw [List.foldlM_cons, hread]
          exact ih hplain.2 hholds
      | heading name' =>
          have hall : sects ++ (name, items ++ entries (.heading name' :: ls)) :: sections (.heading name' :: ls) =
              (sects ++ [(name, items)]) ++ (name', [] ++ entries ls) :: sections ls := by
            rw [entries, sections, List.append_nil, List.nil_append, List.append_assoc, List.singleton_append]
          rw [hall]
          have hstep := h.heading hline hplain.1
          split at hstep
          · rename_i hagain
            refine Or.inr ⟨hfails hstep, fun hdistinct => ?_⟩
            have hnames := hdistinct.names
            rw [List.map_append, List.map_cons] at hnames
            exact (List.nodup_append.mp hnames).2.2 name' hagain name' List.mem_cons_self rfl
          · obtain ⟨r₁, hread, hholds⟩ := hstep
            rw [List.foldlM_cons, hread]
            exact ih hplain.2 hholds
      | entry key value =>
          have hall : sects ++ (name, items ++ entries (.entry key value :: ls)) :: sections (.entry key value :: ls) =
              sects ++ (name, (items ++ [(key, value)]) ++ entries ls) :: sections ls := by
            rw [entries, sections, List.append_assoc, List.singleton_append]
          rw [hall]
          have hstep := h.entry hline hplain.1
          split at hstep
          · rename_i hagain
            refine Or.inr ⟨hfails hstep, fun hdistinct => ?_⟩
            have hkeys := hdistinct.keys _ (List.mem_append_right _ List.mem_cons_self)
            rw [List.append_assoc, List.map_append] at hkeys
            exact (List.nodup_append.mp hkeys).2.2 _ hagain _ List.mem_cons_self rfl
          · obtain ⟨r₁, hread, hholds⟩ := hstep
            rw [List.foldlM_cons, hread]
            exact ih hplain.2 hholds

open IniLine in
/-- **The lines of a file**, of which none is a key before the first heading. -/
theorem readLines_all {ls : List IniLine} (hlines : List.Forall₂ Written lines ls) (hplain : ∀ l ∈ ls, l.Plain)
    (hfirst : entries ls = []) (h : r.Holds py []) :
    (∃ r', lines.foldlM (IniReader.readLine py) r = .ok r' ∧ r'.Holds py (sections ls)) ∨
      (∃ e, lines.foldlM (IniReader.readLine py) r = .error e) ∧ ¬IniDistinct py (sections ls) := by
  induction hlines generalizing r with
  | nil => exact Or.inl ⟨r, rfl, h⟩
  | @cons line l lines ls hline hlines ih =>
      rw [List.forall_mem_cons] at hplain
      cases l with
      | skip =>
          obtain ⟨r₁, hread, hholds⟩ := h.skip hline
          rw [List.foldlM_cons, hread]
          exact ih hplain.2 hfirst hholds
      | heading name =>
          have hstep := h.heading hline hplain.1
          rw [List.map_nil, if_neg List.not_mem_nil] at hstep
          obtain ⟨r₁, hread, hholds⟩ := hstep
          rw [List.foldlM_cons, hread]
          exact readLines_current hlines hplain.2 hholds
      | entry key value => exact absurd hfirst (List.cons_ne_nil _ _)

/-- What was read are these sections, with the keys in lower case. -/
structure Ini.Is (py : Python) (ini : Ini) (sects : List (Str × List (Str × Str))) : Prop where
  sections : ini.sections.items.map (fun item => (item.1, item.2.items)) = sects.map (loweredItems py)
  defaults : ini.defaults = .empty

/-- **What a file is read as**, if it is read. -/
theorem readIni_lines {data : List UInt8} {text : Str} {ls : List IniLine} (hdata : decodeUtf8 data = .ok text)
    (hlines : List.Forall₂ IniLine.Written (pyLines (universalNewlines text)) ls) (hplain : ∀ l ∈ ls, l.Plain)
    (hfirst : IniLine.entries ls = []) :
    ((∃ ini, readIni py data = .ok ini) ↔ IniDistinct py (IniLine.sections ls)) ∧
      ∀ ini, readIni py data = .ok ini → ini.Is py (IniLine.sections ls) := by
  have hstart : IniReader.start.Holds py [] := ⟨rfl, rfl, fun _ hsect => absurd hsect List.not_mem_nil, rfl, rfl, rfl⟩
  unfold readIni
  rw [hdata, Except.ok_bind]
  rcases readLines_all hlines hplain hfirst hstart with ⟨r', hread, hholds⟩ | ⟨⟨e, herror⟩, hdistinct⟩
  · rw [hread, Except.ok_bind, IniReader.finish, hholds.bad, if_neg Bool.false_ne_true]
    refine ⟨iff_of_true ⟨_, rfl⟩ hholds.distinct, fun ini hini => ?_⟩
    obtain rfl := Except.ok.inj hini
    constructor
    · rw [← hholds.items]
      exact List.map_map
    · change r'.defaults.mapValues joinLines = _
      rw [hholds.defaults]
      rfl
  · have hfails : ∀ ini, ((pyLines (universalNewlines text)).foldlM (IniReader.readLine py) .start >>= IniReader.finish) ≠
        .ok ini := by
      intro ini hread
      rw [herror] at hread
      cases hread
    exact ⟨iff_of_false (fun ⟨ini, hread⟩ => hfails ini hread) hdistinct, fun ini hread => absurd hread (hfails ini)⟩

/-- Lines of which nothing but the sections is asked. -/
theorem IniLine.plain_of_sections {ls : List IniLine} (hfirst : ∀ item ∈ entries ls, (entry item.1 item.2).Plain)
    (h : ∀ sect ∈ sections ls, (heading sect.1).Plain ∧ ∀ item ∈ sect.2, (entry item.1 item.2).Plain) :
    ∀ l ∈ ls, l.Plain := by
  induction ls with
  | nil => exact fun l hl => absurd hl List.not_mem_nil
  | cons l ls ih =>
      rw [List.forall_mem_cons]
      cases l with
      | skip => exact ⟨trivial, ih hfirst h⟩
      | heading name =>
          rw [sections, List.forall_mem_cons] at h
          exact ⟨h.1.1, ih h.1.2 h.2⟩
      | entry key value =>
          rw [entries, List.forall_mem_cons] at hfirst
          exact ⟨hfirst.1, ih hfirst.2 h⟩

/-! ### Writing lines -/

namespace IniLine

def text : IniLine → Str
  | skip => []
  | heading name => '[' :: (name ++ [']'])
  | entry key value => key ++ '=' :: value

/-- The file of these lines. -/
def fileText (ls : List IniLine) : Str := ls.flatMap fun l => l.text ++ ['\n']

theorem pyLines_append {s : Str} (h : '\n' ∉ s) (rest : Str) :
    pyLines (s ++ '\n' :: rest) = (s ++ ['\n']) :: pyLines rest := by
  induction s with
  | nil => rw [List.nil_append, pyLines, if_pos rfl, List.nil_append]
  | cons c s ih =>
      obtain ⟨hc, hs⟩ := not_or.mp (List.mem_cons.not.mp h)
      rw [List.cons_append, pyLines, if_neg (Ne.symm hc), ih hs]
      rfl

theorem ne_of_not_isPySpace {c : Char} (h : isPySpace c = false) : c ≠ '\n' ∧ c ≠ '\r' := by
  constructor
  · rintro rfl
    exact absurd h (by decide)
  · rintro rfl
    exact absurd h (by decide)

/-- A file that is written line by line has these lines. -/
theorem pyLines_fileText {ls : List IniLine} (h : ∀ l ∈ ls, ∀ c ∈ l.text, isPySpace c = false) :
    pyLines (universalNewlines (fileText ls)) = ls.map fun l => l.text ++ ['\n'] := by
  have hreturn : ∀ c ∈ fileText ls, c ≠ '\r' := by
    intro c hc
    obtain ⟨l, hl, hmem⟩ := List.mem_flatMap.mp hc
    rcases List.mem_append.mp hmem with htext | hnewline
    · exact (ne_of_not_isPySpace (h l hl c htext)).2
    · rw [List.mem_singleton.mp hnewline]
      decide
  rw [universalNewlines_eq_self hreturn]
  clear hreturn
  induction ls with
  | nil => rfl
  | cons l ls ih =>
      rw [List.forall_mem_cons] at h
      have hnewline : '\n' ∉ l.text := fun hmem => (ne_of_not_isPySpace (h.1 _ hmem)).1 rfl
      rw [fileText, List.flatMap_cons, List.append_assoc, List.singleton_append, pyLines_append hnewline, List.map_cons]
      exact congrArg _ (ih h.2)

/-- A line without blanks is read as it is written. -/
theorem written_text {l : IniLine} (h : ∀ c ∈ l.text, isPySpace c = false) : l.Written (l.text ++ ['\n']) := by
  have hsolid : l.text ≠ [] → (l.text ++ ['\n']).takeWhile isPySpace = [] ∧ strip (l.text ++ ['\n']) = l.text := by
    intro hne
    obtain ⟨c, s, hcons⟩ := List.exists_cons_of_ne_nil hne
    have hfirst : ¬(isPySpace c = true) := by
      rw [h c (hcons ▸ List.mem_cons_self)]
      exact Bool.false_ne_true
    have hstrip : strip l.text = l.text := strip_eq_self h
    rw [hcons] at hstrip ⊢
    rw [strip, List.dropWhile_cons_of_neg hfirst] at hstrip
    rw [List.cons_append, List.takeWhile_cons_of_neg hfirst, strip, List.dropWhile_cons_of_neg hfirst]
    refine ⟨rfl, ?_⟩
    rw [← List.cons_append, rstrip, List.rdropWhile_concat_pos _ _ _ (by decide)]
    exact hstrip
  cases l with
  | skip => exact Or.inl (by decide)
  | heading name => exact hsolid (List.cons_ne_nil _ _)
  | entry key value => exact hsolid (List.append_ne_nil_of_right_ne_nil _ (List.cons_ne_nil _ _))

theorem written_fileText {ls : List IniLine} (h : ∀ l ∈ ls, ∀ c ∈ l.text, isPySpace c = false) :
    List.Forall₂ Written (pyLines (universalNewlines (fileText ls))) ls := by
  rw [pyLines_fileText h, List.forall₂_map_left_iff, List.forall₂_same]
  exact fun l hl => written_text (h l hl)

end IniLine

end Hwemu
