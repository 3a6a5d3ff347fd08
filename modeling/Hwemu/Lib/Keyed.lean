import Mathlib.Data.List.Nodup
import Mathlib.Logic.Function.Basic

/-!
# Lists of records with keys of their own

A record is looked up, changed and taken out by its key, and the other records stay as they are.
-/

namespace Keyed

variable {α κ : Type*} [DecidableEq κ] {key : α → κ} {l pre post : List α} {a : α}

omit [DecidableEq κ] in
/-- A record and the other ones. -/
theorem split (hnodup : (l.map key).Nodup) (ha : a ∈ l) : ∃ pre post, l = pre ++ a :: post ∧
    (∀ b ∈ pre, key b ≠ key a) ∧ ∀ b ∈ post, key b ≠ key a := by
  obtain ⟨pre, post, rfl⟩ := List.append_of_mem ha
  simp only [List.map_append, List.map_cons, List.nodup_append, List.nodup_cons, List.mem_cons] at hnodup
  refine ⟨pre, post, rfl, ?_, ?_⟩
  · intro b hb
    exact hnodup.2.2 (key b) (List.mem_map_of_mem hb) (key a) (Or.inl rfl)
  · intro b hb heq
    exact hnodup.2.1.1 (heq ▸ List.mem_map_of_mem hb)

theorem map_of_ne {x : κ} {f : α → α} (h : ∀ b ∈ l, key b ≠ x) :
    (l.map fun b => if key b = x then f b else b) = l := by
  refine (List.map_congr_left ?_).trans (List.map_id l)
  intro b hb
  exact if_neg (h b hb)

theorem filter_of_ne {x : κ} (h : ∀ b ∈ l, key b ≠ x) : (l.filter fun b => key b ≠ x) = l :=
  List.filter_eq_self.mpr fun b hb => decide_eq_true (h b hb)

/-- Taking out a record that was changed is taking out the record. -/
theorem filter_map_ne {x : κ} {f : α → α} (hf : ∀ b, key (f b) = key b) :
    ((l.map fun b => if key b = x then f b else b).filter fun b => key b ≠ x) = l.filter fun b => key b ≠ x := by
  induction l with
  | nil => rfl
  | cons b l ih =>
      rw [List.map_cons, List.filter_cons, List.filter_cons, ih]
      by_cases hb : key b = x
      · simp [hb, hf]
      · simp [hb]

theorem map_split (hpre : ∀ b ∈ pre, key b ≠ key a) (hpost : ∀ b ∈ post, key b ≠ key a) (f : α → α) :
    ((pre ++ a :: post).map fun b => if key b = key a then f b else b) = pre ++ f a :: post := by
  rw [List.map_append, List.map_cons, map_of_ne hpre, map_of_ne hpost, if_pos rfl]

theorem filter_split (hpre : ∀ b ∈ pre, key b ≠ key a) (hpost : ∀ b ∈ post, key b ≠ key a) :
    ((pre ++ a :: post).filter fun b => key b ≠ key a) = pre ++ post := by
  rw [List.filter_append, List.filter_cons_of_neg (by simp), filter_of_ne hpre, filter_of_ne hpost]

theorem filter_head (hnodup : ((a :: l).map key).Nodup) : ((a :: l).filter fun b => key b ≠ key a) = l := by
  rw [List.filter_cons_of_neg (by simp)]
  exact filter_of_ne fun b hb heq => (List.nodup_cons.mp hnodup).1 (heq ▸ List.mem_map_of_mem hb)

/-- A list of records with keys of their own is a record with the list of the others. -/
theorem perm_cons_filter_ne (hnodup : (l.map key).Nodup) (ha : a ∈ l) :
    (a :: l.filter fun b => key b ≠ key a).Perm l := by
  obtain ⟨pre, post, rfl, hpre, hpost⟩ := split hnodup ha
  rw [filter_split hpre hpost]
  exact List.perm_middle.symm

/-- The one record with a key is found. -/
theorem find?_eq_some (hnodup : (l.map key).Nodup) (ha : a ∈ l) : l.find? (fun b => key b == key a) = some a := by
  cases hfind : l.find? (fun b => key b == key a) with
  | none => exact absurd (List.find?_eq_none.mp hfind a ha) (by simp)
  | some b =>
      have hkey : key b = key a := by simpa using List.find?_some hfind
      rw [List.inj_on_of_nodup_map hnodup (List.mem_of_find?_eq_some hfind) ha hkey]

/-! ### Arrays of slots -/

variable {β : Type*} {slots : List κ} {f : κ → Option β} {i : κ} {b : β}

/-- A free slot that is filled. -/
theorem filterMap_fill (hnodup : slots.Nodup) (hi : i ∈ slots) (hfree : f i = none) (b : β) :
    (slots.filterMap (Function.update f i (some b))).Perm (b :: slots.filterMap f) := by
  obtain ⟨pre, post, rfl⟩ := List.append_of_mem hi
  obtain ⟨_, hpost, hpre⟩ := List.nodup_append.mp hnodup
  have hsame : ∀ l : List κ, i ∉ l → l.filterMap (Function.update f i (some b)) = l.filterMap f := by
    intro l hl
    apply List.filterMap_congr
    intro j hj
    exact Function.update_of_ne (ne_of_mem_of_not_mem hj hl) _ _
  have hnotPre : i ∉ pre := fun hmem => hpre i hmem i List.mem_cons_self rfl
  rw [List.filterMap_append, List.filterMap_append, hsame pre hnotPre,
    List.filterMap_cons_some (Function.update_self ..), hsame post (List.nodup_cons.mp hpost).1,
    List.filterMap_cons_none hfree]
  exact List.perm_middle

/-- A slot that is emptied. -/
theorem filterMap_empty (hnodup : slots.Nodup) (hi : i ∈ slots) (hfull : f i = some b) :
    (b :: slots.filterMap (Function.update f i none)).Perm (slots.filterMap f) := by
  have hfill := filterMap_fill hnodup hi (Function.update_self i none f) b
  rw [Function.update_idem, ← hfull, Function.update_eq_self] at hfill
  exact hfill.symm

end Keyed
