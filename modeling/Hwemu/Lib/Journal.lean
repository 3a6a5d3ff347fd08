import Mathlib.Data.List.Basic

/-!
# Journals of a keyed collection

A journal lists, oldest first, what happened to a collection of entries filed under keys: an entry
was added under a key, the entry under a key was deleted, everything was cleared, or nothing
happened. An entry is live when it was added and has not been deleted or cleared since.
-/

variable {κ ε : Type*}

inductive JournalEvent (κ ε : Type*) where
  | added (key : κ) (entry : ε)
  | deleted (key : κ)
  | cleared
  | nothing

/-- The entry was added under the key and neither deleted by that key nor cleared since. -/
def Live (journal : List (JournalEvent κ ε)) (key : κ) (entry : ε) : Prop :=
  ∃ before after, journal = before ++ .added key entry :: after ∧
    .deleted key ∉ after ∧ .cleared ∉ after

namespace Live

variable {journal : List (JournalEvent κ ε)} {event : JournalEvent κ ε} {key key' : κ}
  {entry entry' : ε}

@[simp]
theorem not_nil : ¬Live ([] : List (JournalEvent κ ε)) key entry := by
  rintro ⟨before, after, heq, _⟩
  simp at heq

theorem concat_iff : Live (journal ++ [event]) key entry ↔
    event = .added key entry ∨ (Live journal key entry ∧ event ≠ .deleted key ∧ event ≠ .cleared) := by
  constructor
  · rintro ⟨before, after, heq, hdeleted, hcleared⟩
    rcases List.eq_nil_or_concat after with rfl | ⟨after, last, rfl⟩
    · have hlast := (List.append_inj' heq rfl).2
      exact Or.inl (by simpa using hlast)
    · rw [List.concat_eq_append] at *
      have hsplit : journal ++ [event] = (before ++ .added key entry :: after) ++ [last] := by
        simpa using heq
      obtain ⟨rfl, hlast⟩ := List.append_inj' hsplit rfl
      obtain rfl : event = last := by simpa using hlast
      simp only [List.mem_append, List.mem_singleton, not_or] at hdeleted hcleared
      exact Or.inr ⟨⟨before, after, rfl, hdeleted.1, hcleared.1⟩, Ne.symm hdeleted.2, Ne.symm hcleared.2⟩
  · rintro (rfl | ⟨⟨before, after, rfl, hdeleted, hcleared⟩, hne, hne'⟩)
    · exact ⟨journal, [], rfl, by simp, by simp⟩
    · refine ⟨before, after ++ [event], by simp, ?_, ?_⟩
      · simp only [List.mem_append, List.mem_singleton, not_or]
        exact ⟨hdeleted, Ne.symm hne⟩
      · simp only [List.mem_append, List.mem_singleton, not_or]
        exact ⟨hcleared, Ne.symm hne'⟩

theorem concat_added_iff : Live (journal ++ [.added key' entry']) key entry ↔
    (key' = key ∧ entry' = entry) ∨ Live journal key entry := by
  simp [concat_iff]

theorem concat_deleted_iff :
    Live (journal ++ [.deleted key']) key entry ↔ Live journal key entry ∧ key' ≠ key := by
  simp [concat_iff]

theorem not_concat_cleared : ¬Live (journal ++ [.cleared]) key entry := by
  simp [concat_iff]

theorem concat_nothing_iff : Live (journal ++ [.nothing]) key entry ↔ Live journal key entry := by
  simp [concat_iff]

/-- Where nothing was deleted or cleared, every entry added is live. -/
theorem of_added_iff (h : ∀ event ∈ journal, ∃ key entry, event = .added key entry) :
    Live journal key entry ↔ .added key entry ∈ journal := by
  constructor
  · rintro ⟨before, after, rfl, _⟩
    simp
  · intro hmem
    obtain ⟨before, after, rfl⟩ := List.append_of_mem hmem
    refine ⟨before, after, rfl, ?_, ?_⟩
    · intro hdeleted
      obtain ⟨_, _, heq⟩ := h (.deleted key) (by simp [hdeleted])
      simp at heq
    · intro hcleared
      obtain ⟨_, _, heq⟩ := h .cleared (by simp [hcleared])
      simp at heq

end Live
