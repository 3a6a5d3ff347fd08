import Mathlib.Logic.Function.Basic
import Mathlib.Tactic.Common

/-!
# Threads and binary semaphores

Threads share a state, each has a state of its own, and in each step one of them moves. An assertion
for every thread survives a step if the thread that moves keeps its own and does not interfere with
those of the others. A binary semaphore that is only ever taken when its count is not zero, and
released by its holder, has at most one holder.
-/

/-- What the threads share, and the state of each. -/
structure Threads (ι σ τ : Type*) where
  shared : σ
  thread : ι → τ

namespace Threads

variable {ι σ τ : Type*} [DecidableEq ι]

/-- One thread moves: it leaves the shared state and its own as in `out`. -/
def move (i : ι) (out : σ × τ) (s : Threads ι σ τ) : Threads ι σ τ :=
  ⟨out.1, Function.update s.thread i out.2⟩

variable {s : Threads ι σ τ} {i j : ι} {out : σ × τ}

@[simp]
theorem shared_move : (s.move i out).shared = out.1 := rfl

@[simp]
theorem thread_move_self : (s.move i out).thread i = out.2 := Function.update_self ..

theorem thread_move_of_ne (hne : j ≠ i) : (s.move i out).thread j = s.thread j :=
  Function.update_of_ne hne ..

/-- **Non-interference.** The thread that moves keeps its assertion and those of the others. -/
theorem forall_move {A : ι → σ → τ → Prop} (hself : A i out.1 out.2)
    (hother : ∀ j, j ≠ i → A j out.1 (s.thread j)) :
    ∀ j, A j (s.move i out).shared ((s.move i out).thread j) := by
  intro j
  by_cases hj : j = i
  · subst hj
    rw [thread_move_self]
    exact hself
  · rw [thread_move_of_ne hj]
    exact hother j hj

end Threads

/-! ### Semaphores -/

section Semaphores

variable {ι κ : Type*}

/-- Each semaphore has at most one holder, and a count that says so. A thread holds one at a time. -/
structure Exclusive (count : κ → ℕ) (held : ι → Option κ) : Prop where
  unique : ∀ i j c, held i = some c → held j = some c → i = j
  taken : ∀ i c, held i = some c → count c = 0
  le_one : ∀ c, count c ≤ 1

theorem Exclusive.init {count : κ → ℕ} {held : ι → Option κ} (hcount : ∀ c, count c = 1)
    (hheld : ∀ i, held i = none) : Exclusive count held := by
  refine ⟨?_, ?_, fun c => Nat.le_of_eq (hcount c)⟩
  · intro i j c hi
    rw [hheld i] at hi
    exact absurd hi (by simp)
  · intro i c hi
    rw [hheld i] at hi
    exact absurd hi (by simp)

variable [DecidableEq ι] [DecidableEq κ]

/-- What a step of a thread does to the semaphores: nothing, or it takes or releases one. -/
inductive SemStep (count : κ → ℕ) : Option κ → (κ → ℕ) → Option κ → Prop
  | rest (held : Option κ) : SemStep count held count held
  | down (c : κ) : count c ≠ 0 → SemStep count none (Function.update count c (count c - 1)) (some c)
  | up (c : κ) : SemStep count (some c) (Function.update count c (count c + 1)) none

namespace Exclusive

variable {count count' : κ → ℕ} {held : ι → Option κ} {i : ι} {c : κ}

theorem down (h : Exclusive count held) (hcount : count c ≠ 0) :
    Exclusive (Function.update count c (count c - 1)) (Function.update held i (some c)) := by
  have hfree : ∀ j, held j ≠ some c := fun j hj => hcount (h.taken j c hj)
  have hle := h.le_one c
  refine ⟨?_, ?_, ?_⟩
  · intro j l e hj hl
    by_cases hji : j = i
    · by_cases hli : l = i
      · rw [hji, hli]
      · subst hji
        rw [Function.update_self] at hj
        rw [Function.update_of_ne hli, ← hj] at hl
        exact absurd hl (hfree l)
    · rw [Function.update_of_ne hji] at hj
      by_cases hli : l = i
      · subst hli
        rw [Function.update_self] at hl
        rw [← hl] at hj
        exact absurd hj (hfree j)
      · rw [Function.update_of_ne hli] at hl
        exact h.unique j l e hj hl
  · intro j e hj
    by_cases he : e = c
    · subst he
      rw [Function.update_self]
      omega
    · rw [Function.update_of_ne he]
      by_cases hji : j = i
      · subst hji
        rw [Function.update_self] at hj
        exact absurd (Option.some.inj hj).symm he
      · rw [Function.update_of_ne hji] at hj
        exact h.taken j e hj
  · intro e
    by_cases he : e = c
    · subst he
      rw [Function.update_self]
      omega
    · rw [Function.update_of_ne he]
      exact h.le_one e

theorem up (h : Exclusive count held) (hheld : held i = some c) :
    Exclusive (Function.update count c (count c + 1)) (Function.update held i none) := by
  have hzero := h.taken i c hheld
  -- whoever holds a semaphore afterwards is another thread, which held it before
  have hstill : ∀ j e, Function.update held i none j = some e → j ≠ i ∧ held j = some e := by
    intro j e hj
    by_cases hji : j = i
    · subst hji
      rw [Function.update_self] at hj
      exact absurd hj (by simp)
    · rw [Function.update_of_ne hji] at hj
      exact ⟨hji, hj⟩
  refine ⟨?_, ?_, ?_⟩
  · intro j l e hj hl
    exact h.unique j l e (hstill j e hj).2 (hstill l e hl).2
  · intro j e hj
    obtain ⟨hji, hj⟩ := hstill j e hj
    have he : e ≠ c := by
      rintro rfl
      exact hji (h.unique j i e hj hheld)
    rw [Function.update_of_ne he]
    exact h.taken j e hj
  · intro e
    by_cases he : e = c
    · subst he
      rw [Function.update_self]
      omega
    · rw [Function.update_of_ne he]
      exact h.le_one e

theorem step (h : Exclusive count held) {l : Option κ} (hstep : SemStep count (held i) count' l) :
    Exclusive count' (Function.update held i l) := by
  generalize hheld : held i = l₀ at hstep
  cases hstep with
  | rest =>
      rw [← hheld, Function.update_eq_self]
      exact h
  | down c hcount => exact h.down hcount
  | up c => exact h.up hheld

/-- **Mutual exclusion** survives the move of a thread. -/
theorem move {σ τ : Type*} {s : Threads ι σ τ} {out : σ × τ} {holds : τ → Option κ}
    (h : Exclusive count fun j => holds (s.thread j))
    (hstep : SemStep count (holds (s.thread i)) count' (holds out.2)) :
    Exclusive count' fun j => holds ((s.move i out).thread j) := by
  have hheld : (fun j => holds ((s.move i out).thread j)) =
      Function.update (fun j => holds (s.thread j)) i (holds out.2) := by
    funext j
    by_cases hj : j = i
    · subst hj
      rw [Threads.thread_move_self, Function.update_self]
    · rw [Threads.thread_move_of_ne hj, Function.update_of_ne hj]
  rw [hheld]
  exact h.step hstep

end Exclusive

end Semaphores
