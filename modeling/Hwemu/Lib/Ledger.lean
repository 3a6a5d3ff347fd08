import Mathlib.Order.Interval.Multiset
import Mathlib.Order.Interval.Finset.Nat

/-!
# The ledger of an allocator

Blocks of memory are numbered in the order in which they are handed out. A ledger says which of them
are in use and which were given back. A step is balanced when every block that was in use, given back
or handed out on the way is in use or given back afterwards, but for the blocks `lost`, and what was given
back stays so.
-/

structure Ledger where
  next : ℕ
  owned : Multiset ℕ
  freed : Multiset ℕ

namespace Ledger

def total (l : Ledger) : Multiset ℕ := l.owned + l.freed

/-- No block is in use twice, given back twice, or both in use and given back. -/
structure Sound (l : Ledger) : Prop where
  nodup : l.total.Nodup
  lt : ∀ a ∈ l.total, a < l.next

structure Balanced (lost : Multiset ℕ) (l l' : Ledger) : Prop where
  next : l.next ≤ l'.next
  total : l'.total + lost = l.total + Multiset.Ico l.next l'.next
  kept : l.freed ≤ l'.freed

variable {l l' l'' : Ledger} {lost lost' : Multiset ℕ} {a : ℕ}

theorem Ico_succ (n : ℕ) : Multiset.Ico n (n + 1) = {n} := by
  simp [Multiset.Ico, Nat.Ico_succ_singleton]

theorem Ico_succ_succ (n : ℕ) : Multiset.Ico n (n + 2) = {n} + {n + 1} := by
  rw [← Multiset.Ico_add_Ico_eq_Ico (Nat.le_add_right n 1) (Nat.le_add_right (n + 1) 1), Ico_succ,
    Ico_succ]

theorem Balanced.refl (l : Ledger) : Balanced 0 l l := by
  refine ⟨le_rfl, ?_, le_rfl⟩
  rw [Multiset.Ico_self]

theorem Balanced.trans (h : Balanced lost l l') (h' : Balanced lost' l' l'') :
    Balanced (lost + lost') l l'' := by
  refine ⟨h.next.trans h'.next, ?_, h.kept.trans h'.kept⟩
  calc l''.total + (lost + lost') = l''.total + lost' + lost := by
        rw [add_comm lost, add_assoc]
    _ = l'.total + lost + Multiset.Ico l'.next l''.next := by
        rw [h'.total, add_right_comm]
    _ = l.total + (Multiset.Ico l.next l'.next + Multiset.Ico l'.next l''.next) := by
        rw [h.total, add_assoc]
    _ = l.total + Multiset.Ico l.next l''.next := by
        rw [Multiset.Ico_add_Ico_eq_Ico h.next h'.next]

/-- A step that gives back what it takes out of use. -/
theorem Balanced.of_released {s : Multiset ℕ} (hnext : l'.next = l.next) (howned : s + l'.owned = l.owned)
    (hfreed : l'.freed = s + l.freed) : Balanced 0 l l' := by
  refine ⟨hnext.ge, ?_, ?_⟩
  · calc l'.total + 0 = l'.owned + (s + l.freed) := by
          rw [add_zero, Ledger.total, hfreed]
      _ = l.total := by
          rw [Ledger.total, ← howned, add_left_comm, add_assoc]
      _ = l.total + Multiset.Ico l.next l'.next := by
          rw [hnext, Multiset.Ico_self, add_zero]
  · rw [hfreed]
    exact Multiset.le_add_left l.freed s

/-- A step that uses or gives back whatever is handed out on the way. -/
theorem Balanced.of_acquired {s : Multiset ℕ} (hnext : l.next ≤ l'.next) (howned : l'.owned = s + l.owned)
    (hused : s ≤ Multiset.Ico l.next l'.next)
    (hfreed : l'.freed + s = l.freed + Multiset.Ico l.next l'.next) : Balanced 0 l l' := by
  refine ⟨hnext, ?_, ?_⟩
  · calc l'.total + 0 = l.owned + (l'.freed + s) := by
          rw [add_zero, Ledger.total, howned, add_comm s, add_assoc, add_comm s]
      _ = l.total + Multiset.Ico l.next l'.next := by
          rw [hfreed, Ledger.total, add_assoc]
  · refine le_of_add_le_add_right (a := s) ?_
    rw [hfreed]
    exact add_le_add_right hused l.freed

/-- Giving back a block that was lost. -/
theorem Balanced.free (h : Balanced (a ::ₘ lost) l l') :
    Balanced lost l { l' with freed := a ::ₘ l'.freed } := by
  refine ⟨h.next, ?_, h.kept.trans (Multiset.le_cons_self l'.freed a)⟩
  calc l'.owned + a ::ₘ l'.freed + lost = l'.total + a ::ₘ lost := by
        rw [Ledger.total, Multiset.add_cons, Multiset.add_cons, Multiset.cons_add]
    _ = l.total + Multiset.Ico l.next l'.next := h.total

theorem Balanced.alloc (l : Ledger) : Balanced {l.next} l { l with next := l.next + 1 } := by
  refine ⟨Nat.le_succ _, ?_, le_rfl⟩
  rw [Ico_succ]
  rfl

/-- What is in use elsewhere takes no part in a step. -/
theorem Balanced.frame (h : Balanced lost l l') (s : Multiset ℕ) :
    Balanced lost { l with owned := l.owned + s } { l' with owned := l'.owned + s } := by
  refine ⟨h.next, ?_, h.kept⟩
  calc l'.owned + s + l'.freed + lost = l'.total + lost + s := by
        rw [Ledger.total, add_right_comm l'.owned, add_right_comm]
    _ = l.total + s + Multiset.Ico l.next l'.next := by
        rw [h.total, add_right_comm]
    _ = l.owned + s + l.freed + Multiset.Ico l.next l'.next := by
        rw [Ledger.total, add_right_comm l.owned]

/-- A step that leaves what is in use gives back what was handed out on the way. -/
theorem Balanced.freed_eq (h : Balanced 0 l l') (howned : l'.owned = l.owned) :
    l'.freed = l.freed + Multiset.Ico l.next l'.next := by
  have htotal := h.total
  rw [add_zero, Ledger.total, Ledger.total, howned, add_assoc] at htotal
  exact add_left_cancel htotal

/-- Everything before and after a balanced step is a block of its own. -/
theorem Balanced.nodup (h : Balanced lost l l') (hsound : l.Sound) : (l'.total + lost).Nodup := by
  rw [h.total]
  refine Multiset.nodup_add.mpr ⟨hsound.nodup, Multiset.nodup_Ico, ?_⟩
  apply Multiset.disjoint_left.mpr
  intro a ha hnew
  have hlow := (Multiset.mem_Ico.mp hnew).1
  have hlt := hsound.lt a ha
  omega

/-- **A balanced step keeps the ledger sound.** -/
theorem Balanced.sound (h : Balanced lost l l') (hsound : l.Sound) : l'.Sound := by
  refine ⟨(Multiset.nodup_add.mp (h.nodup hsound)).1, ?_⟩
  intro a ha
  have hmem : a ∈ l.total + Multiset.Ico l.next l'.next := by
    rw [← h.total]
    exact Multiset.mem_add.mpr (Or.inl ha)
  rcases Multiset.mem_add.mp hmem with hold | hnew
  · exact lt_of_lt_of_le (hsound.lt a hold) h.next
  · exact (Multiset.mem_Ico.mp hnew).2

/-- What becomes of a block handed out on the way. -/
theorem Balanced.handed_out (h : Balanced lost l l') (hlow : l.next ≤ a) (hlt : a < l'.next) :
    a ∈ l'.owned ∨ a ∈ l'.freed ∨ a ∈ lost := by
  have hmem : a ∈ l'.total + lost := by
    rw [h.total]
    exact Multiset.mem_add.mpr (Or.inr (Multiset.mem_Ico.mpr ⟨hlow, hlt⟩))
  rcases Multiset.mem_add.mp hmem with htotal | hlost
  · rcases Multiset.mem_add.mp htotal with howned | hfreed
    · exact Or.inl howned
    · exact Or.inr (Or.inl hfreed)
  · exact Or.inr (Or.inr hlost)

/-- A lost block is neither in use nor given back. -/
theorem Balanced.lost_notMem (h : Balanced lost l l') (hsound : l.Sound) (ha : a ∈ lost) :
    a ∉ l'.owned ∧ a ∉ l'.freed := by
  have hdisjoint := Multiset.disjoint_right.mp (Multiset.nodup_add.mp (h.nodup hsound)).2.2 ha
  constructor
  · exact fun howned => hdisjoint (Multiset.mem_add.mpr (Or.inl howned))
  · exact fun hfreed => hdisjoint (Multiset.mem_add.mpr (Or.inr hfreed))

end Ledger
