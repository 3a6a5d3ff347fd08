import Mathlib.Data.List.Nodup
import Mathlib.Logic.Function.Basic

/-!
# Registers and what was last stored in them

A log lists, oldest first, the values stored under addresses. What a register holds is the value of
the last entry for its address, or what it held at first when there is none.
-/

namespace Registers

variable {α β : Type*} [DecidableEq α]

/-- The registers after the entries of a log. -/
def store (held : α → β) (log : List (α × β)) : α → β :=
  log.foldl (fun held entry => Function.update held entry.1 entry.2) held

/-- What the registers hold when all of them held `init` at first. -/
def lastStored (init : β) (log : List (α × β)) : α → β := store (fun _ => init) log

variable {held : α → β} {init : β} {log log' : List (α × β)} {a : α} {b : β}

theorem store_cons (held : α → β) (entry : α × β) (log : List (α × β)) :
    store held (entry :: log) = store (Function.update held entry.1 entry.2) log := rfl

theorem store_append (held : α → β) (log log' : List (α × β)) :
    store held (log ++ log') = store (store held log) log' :=
  List.foldl_append

/-- Entries for other addresses are not noticed. -/
theorem store_of_notMem (held : α → β) (h : a ∉ log.map (·.1)) : store held log a = held a := by
  induction log generalizing held with
  | nil => rfl
  | cons entry log ih =>
      rw [List.map_cons, List.mem_cons, not_or] at h
      rw [store_cons, ih _ h.2, Function.update_of_ne h.1]

/-- **The last entry** for an address is what its register holds. -/
theorem store_of_last (held : α → β) {before after : List (α × β)}
    (hlog : log = before ++ (a, b) :: after) (hlast : a ∉ after.map (·.1)) : store held log a = b := by
  rw [hlog, store_append, store_cons, store_of_notMem _ hlast, Function.update_self]

/-- Entries for addresses that differ are all still there. -/
theorem store_of_mem (held : α → β) (hnodup : (log.map (·.1)).Nodup) (hmem : (a, b) ∈ log) :
    store held log a = b := by
  obtain ⟨before, after, rfl⟩ := List.append_of_mem hmem
  apply store_of_last held rfl
  rw [List.map_append, List.map_cons] at hnodup
  exact (List.nodup_cons.mp (List.nodup_append.mp hnodup).2.1).1

theorem lastStored_append (init : β) (log log' : List (α × β)) :
    lastStored init (log ++ log') = store (lastStored init log) log' :=
  store_append _ log log'

/-- **Consecutive registers**, `n` of them from `base` on. -/
theorem store_range (held : ℕ → β) (base n : ℕ) (f : ℕ → β) (a : ℕ) :
    store held ((List.range n).map fun i => (base + i, f i)) a =
      if base ≤ a ∧ a < base + n then f (a - base) else held a := by
  split
  · rename_i hin
    have hnodup : (((List.range n).map fun i => (base + i, f i)).map (·.1)).Nodup := by
      rw [List.map_map]
      exact List.Nodup.map (fun i j hij => Nat.add_left_cancel hij) List.nodup_range
    apply store_of_mem held hnodup
    refine List.mem_map.mpr ⟨a - base, List.mem_range.mpr (by omega), ?_⟩
    rw [Nat.add_sub_cancel' hin.1]
  · rename_i hout
    apply store_of_notMem
    rw [List.map_map, List.mem_map]
    rintro ⟨i, hi, rfl⟩
    have hlt := List.mem_range.mp hi
    apply hout
    constructor
    · exact Nat.le_add_right base i
    · exact Nat.add_lt_add_left hlt base

end Registers
