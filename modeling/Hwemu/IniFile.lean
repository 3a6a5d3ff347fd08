import Hwemu.ConfigParser

/-!
# What is read of a file

The keys of any file that is read are in lower case and not empty, and no key stands twice among the
options of a section.
-/

namespace Hwemu

variable {py : Python} {data : List UInt8} {ini : Ini}

/-! ### Keys -/

/-- A key is in lower case, and it is not empty unless that is going to be an error. -/
def IniKey (bad : Bool) (k : Str) : Prop := (∀ c ∈ k, c.isUpper = false) ∧ (k = [] → bad = true)

namespace IniReader

variable {r r' : IniReader} {options : Dict Str (List Str)} {sectname : Str}

structure Keys (r : IniReader) : Prop where
  sections : ∀ sectname options, r.sections.get? sectname = some options → ∀ k ∈ options.keys, IniKey r.bad k
  defaults : ∀ k ∈ r.defaults.keys, IniKey r.bad k

theorem Keys.cursect (h : r.Keys) (hcursect : r.cursect = some options) : ∀ k ∈ options.keys, IniKey r.bad k := by
  obtain ⟨sectname, _, hoptions⟩ := Option.bind_eq_some_iff.mp hcursect
  split at hoptions
  · rw [← Option.some.inj hoptions]
    exact h.defaults
  · exact h.sections sectname options hoptions

theorem Keys.setCursect (h : r.Keys) (hoptions : ∀ k ∈ options.keys, IniKey r.bad k) :
    (r.setCursect sectname options).Keys := by
  unfold IniReader.setCursect
  split
  · exact ⟨h.sections, hoptions⟩
  · refine ⟨?_, h.defaults⟩
    intro name options' hget
    rw [Dict.get?_set] at hget
    split at hget
    · rw [← Option.some.inj hget]
      exact hoptions
    · exact h.sections name options' hget

theorem Keys.appendLine (h : r.Keys) (line : Str) : (r.appendLine line).Keys := by
  unfold IniReader.appendLine
  split
  · rename_i cursect _ hcursect
    split
    · exact h
    · split
      · rename_i lines hlines
        have hkeys := h.cursect hcursect
        exact h.setCursect (Dict.forall_mem_keys_set hkeys
          (hkeys _ (Dict.isSome_get?_iff.mp (Option.isSome_of_eq_some hlines))))
      · exact h
  · exact h

theorem Keys.readHeading (h : r.Keys) {value : Str} (hread : r.readHeading py value = .ok r') : r'.Keys := by
  unfold IniReader.readHeading at hread
  split at hread
  · split at hread
    · simp at hread
    · split at hread
      · rw [← Except.ok.inj hread]
        exact ⟨h.sections, h.defaults⟩
      · rw [← Except.ok.inj hread]
        refine ⟨?_, h.defaults⟩
        intro name options hget
        rw [Dict.get?_set] at hget
        split at hget
        · rw [← Option.some.inj hget]
          exact fun k hk => absurd hk List.not_mem_nil
        · exact h.sections name options hget
  · split at hread
    · rename_i cursect _ hcursect
      split at hread
      · rw [← Except.ok.inj hread]
        have hbad : ∀ k, IniKey r.bad k → IniKey true k := fun k hk => ⟨hk.1, fun _ => rfl⟩
        exact ⟨fun name options hget k hk => hbad k (h.sections name options hget k hk),
          fun k hk => hbad k (h.defaults k hk)⟩
      · rename_i option optval hline
        dsimp only at hread
        split at hread
        · simp at hread
        · rw [← Except.ok.inj hread]
          have hbad : ∀ k, IniKey r.bad k → IniKey (r.bad || option = []) k := fun k hk =>
            ⟨hk.1, fun hnil => by rw [hk.2 hnil, Bool.true_or]⟩
          have hkeys : ({ r with
              optname := py.lower (rstrip option), bad := r.bad || option = [] } : IniReader).Keys :=
            ⟨fun name options hget k hk => hbad k (h.sections name options hget k hk),
              fun k hk => hbad k (h.defaults k hk)⟩
          refine hkeys.setCursect (Dict.forall_mem_keys_set (fun k hk => hbad k (h.cursect hcursect k hk)) ?_)
          refine ⟨py.lower_isUpper _, fun hnil => ?_⟩
          -- the option was stripped before
          have hstrip : rstrip option = option := by
            unfold optionLine at hline
            split at hline
            · obtain ⟨rfl, _⟩ := Prod.mk.inj (Option.some.inj hline)
              exact List.rdropWhile_idempotent _ _
            · simp at hline
          have hempty := py.lower_eq_nil _ hnil
          rw [hstrip] at hempty
          simp [hempty]
    · simp at hread

theorem Keys.readLine (h : r.Keys) {line : Str} (hread : r.readLine py line = .ok r') : r'.Keys := by
  unfold IniReader.readLine at hread
  dsimp only at hread
  split at hread
  · rw [← Except.ok.inj hread]
    exact h
  · split at hread
    · rw [← Except.ok.inj hread]
      exact h.appendLine []
    · split at hread
      · rw [← Except.ok.inj hread]
        exact h.appendLine _
      · exact Keys.readHeading (r := { r with indentLevel := (line.takeWhile isPySpace).length })
          ⟨h.sections, h.defaults⟩ hread

theorem Keys.readLines (h : r.Keys) {lines : List Str}
    (hread : lines.foldlM (IniReader.readLine py) r = .ok r') : r'.Keys := by
  induction lines generalizing r with
  | nil =>
      rw [← Except.ok.inj hread]
      exact h
  | cons line lines ih =>
      rw [List.foldlM_cons, Except.bind_eq_ok_iff] at hread
      obtain ⟨r₁, hfirst, hrest⟩ := hread
      exact ih (h.readLine hfirst) hrest

end IniReader

/-- **The keys of a section**, in any file that is read. -/
theorem readIni_keys (hread : readIni py data = .ok ini) : ∀ item ∈ ini.sections.items,
    ∀ k ∈ ini.options item.2, (∀ c ∈ k, c.isUpper = false) ∧ k ≠ [] := by
  unfold readIni at hread
  obtain ⟨text, _, hread⟩ := Except.bind_eq_ok_iff.mp hread
  obtain ⟨r, hlines, hfinish⟩ := Except.bind_eq_ok_iff.mp hread
  have hstart : IniReader.start.Keys :=
    ⟨fun _ _ hget => by simp [IniReader.start] at hget, fun _ hk => absurd hk List.not_mem_nil⟩
  have hkeys := hstart.readLines hlines
  unfold IniReader.finish at hfinish
  split at hfinish
  · simp at hfinish
  · rename_i hgood
    obtain rfl := Except.ok.inj hfinish
    have hkey : ∀ k, IniKey r.bad k → (∀ c ∈ k, c.isUpper = false) ∧ k ≠ [] :=
      fun k hk => ⟨hk.1, fun hnil => hgood (hk.2 hnil)⟩
    rintro ⟨sect, options⟩ hitem k hk
    rcases List.mem_append.mp hk with hk | hk
    · have hget := Dict.get?_eq_some_iff.mpr hitem
      rw [Dict.get?_mapValues] at hget
      obtain ⟨options', hoptions, rfl⟩ := Option.map_eq_some_iff.mp hget
      rw [Dict.keys_mapValues] at hk
      exact hkey k (hkeys.sections sect options' hoptions k hk)
    · have hdefault := (List.mem_filter.mp hk).1
      rw [Dict.keys_mapValues] at hdefault
      exact hkey k (hkeys.defaults k hdefault)

theorem Ini.nodup_options (ini : Ini) (options : Dict Str Str) : (ini.options options).Nodup := by
  refine List.nodup_append.mpr ⟨options.nodup_keys, ini.defaults.nodup_keys.filter _, ?_⟩
  rintro k hk k' hk' rfl
  have hnot := (List.mem_filter.mp hk').2
  rw [decide_eq_true_eq] at hnot
  exact hnot hk

end Hwemu
