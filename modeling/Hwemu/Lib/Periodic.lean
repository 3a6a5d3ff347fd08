import Mathlib.Algebra.Order.Ring.Nat
import Mathlib.Data.List.Basic
import Mathlib.Data.List.Chain
import Mathlib.Data.List.Induction

/-!
# Catching up with a periodic schedule

A job is due first at `start` and then every `period`. It is looked at now and then, at increasing
times, and run at most once each time, so a backlog is worked off one run per look. The due times
are those of the schedule and not those of the runs.
-/

namespace Periodic

/-- How often the job has run after it was looked at, at each of the times. -/
def count (start period : ℕ) : List ℕ → ℕ :=
  List.foldl (fun n t => if start + n * period ≤ t then n + 1 else n) 0

variable {start period : ℕ} {ts : List ℕ} {t : ℕ}

@[simp]
theorem count_nil : count start period [] = 0 := rfl

theorem count_concat (start period : ℕ) (ts : List ℕ) (t : ℕ) :
    count start period (ts ++ [t]) =
      if start + count start period ts * period ≤ t then count start period ts + 1
      else count start period ts := by
  unfold count
  rw [List.foldl_concat]

/-- A job due by the first time has been run. -/
theorem count_pos (h : ts.head? = some start) : 0 < count start period ts := by
  induction ts using List.reverseRecOn with
  | nil => simp at h
  | append_singleton ts t ih =>
      rw [count_concat]
      cases ts with
      | nil =>
          obtain rfl : t = start := Option.some.inj h
          rw [count_nil, if_pos (by omega)]
          exact Nat.succ_pos 0
      | cons s ts =>
          have hbefore := ih h
          split
          · exact Nat.succ_pos _
          · exact hbefore

/-- The last run was due when it was made. -/
theorem last_due (h : ∀ s ∈ ts, s ≤ t) {n : ℕ} (hn : count start period ts = n + 1) :
    start + n * period ≤ t := by
  induction ts using List.reverseRecOn with
  | nil => exact absurd hn (Nat.succ_ne_zero n).symm
  | append_singleton ts s ih =>
      rw [count_concat] at hn
      split at hn
      · rename_i hdue
        obtain rfl := Nat.succ.inj hn
        exact le_trans hdue (h s (by simp))
      · exact ih (fun u hu => h u (List.mem_append_left _ hu)) hn

/-- **At most one run for each period begun.** -/
theorem count_le (hperiod : 0 < period) (h : ∀ s ∈ ts, s ≤ t) :
    count start period ts ≤ 1 + (t - start) / period := by
  cases hcount : count start period ts with
  | zero => exact Nat.zero_le _
  | succ n =>
      have hdue := last_due h hcount
      have hle : n ≤ (t - start) / period := by
        rw [Nat.le_div_iff_mul_le hperiod]
        omega
      omega

/-- Times no further apart than the period leave no backlog. -/
theorem caught_up (hperiod : 0 < period) (hstart : (ts ++ [t]).head? = some start)
    (hchain : (ts ++ [t]).IsChain fun s t => t ≤ s + period) :
    t < start + count start period (ts ++ [t]) * period := by
  induction ts using List.reverseRecOn generalizing t with
  | nil =>
      obtain rfl : t = start := Option.some.inj hstart
      rw [count_concat, count_nil, if_pos (by omega)]
      omega
  | append_singleton ts s ih =>
      have hhead : (ts ++ [s]).head? = some start := by
        rw [← hstart]
        cases ts with
        | nil => rfl
        | cons => rfl
      have hparts := List.isChain_append.mp hchain
      have hgap : t ≤ s + period := hparts.2.2 s (by simp) t (by simp)
      have hbefore := ih hhead hparts.1
      rw [count_concat]
      split
      · rw [Nat.succ_mul]
        omega
      · omega

/-- **Exactly one run for each period begun**, when no two times are further apart than the period. -/
theorem count_eq (hperiod : 0 < period) (hstart : (ts ++ [t]).head? = some start)
    (hle : ∀ s ∈ ts ++ [t], s ≤ t)
    (hchain : (ts ++ [t]).IsChain fun s t => t ≤ s + period) :
    count start period (ts ++ [t]) = 1 + (t - start) / period := by
  apply le_antisymm (count_le hperiod hle)
  have hlate := caught_up hperiod hstart hchain
  have hbegun : start ≤ t := hle start (List.mem_of_mem_head? hstart)
  have hlt : (t - start) / period < count start period (ts ++ [t]) := by
    rw [Nat.div_lt_iff_lt_mul hperiod]
    omega
  omega

end Periodic
