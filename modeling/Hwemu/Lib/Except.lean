import Mathlib.Data.List.Range

/-!
# Computations that may fail

The bind rule of `Except`, in the form in which a successful run is taken apart step by step.
-/

namespace Except

universe u v

variable {ε : Type u} {α β : Type v}

theorem bind_eq_ok_iff {x : Except ε α} {f : α → Except ε β} {b : β} :
    x >>= f = .ok b ↔ ∃ a, x = .ok a ∧ f a = .ok b := by
  cases x with
  | error e => simp [bind, Except.bind]
  | ok a => simp [bind, Except.bind]

theorem bind_of_eq_ok {x : Except ε α} {a : α} (h : x = .ok a) (f : α → Except ε β) :
    x >>= f = f a := by
  rw [h]
  rfl

@[simp]
theorem ok_bind (a : α) (f : α → Except ε β) : (Except.ok a : Except ε α) >>= f = f a := rfl

@[simp]
theorem error_bind (e : ε) (f : α → Except ε β) :
    (Except.error e : Except ε α) >>= f = .error e := rfl

@[simp]
theorem pure_eq_ok (a : α) : (pure a : Except ε α) = .ok a := rfl

theorem eq_ok_of_toOption {x : Except ε α} {a : α} (h : x.toOption = some a) : x = .ok a := by
  cases x with
  | error e => exact absurd h.symm (Option.some_ne_none a)
  | ok b => exact congrArg ok (Option.some.inj h)

theorem exists_ok_of_isSome {x : Except ε α} (h : x.toOption.isSome) : ∃ a, x = .ok a := by
  obtain ⟨a, ha⟩ := Option.isSome_iff_exists.mp h
  exact ⟨a, eq_ok_of_toOption ha⟩

/-! ### Loops -/

/-- A list of results, one for each element. -/
theorem mapM_eq_ok_iff {γ : Type*} {f : γ → Except ε α} {l : List γ} {l' : List α} :
    l.mapM f = .ok l' ↔ List.Forall₂ (fun a b => f a = .ok b) l l' := by
  induction l generalizing l' with
  | nil =>
      rw [List.mapM_nil, List.forall₂_nil_left_iff, pure_eq_ok, ok.injEq, eq_comm]
  | cons a l ih =>
      rw [List.mapM_cons, bind_eq_ok_iff, List.forall₂_cons_left_iff]
      refine exists_congr fun b => ?_
      rw [bind_eq_ok_iff]
      constructor
      · rintro ⟨hb, bs, hbs, heq⟩
        exact ⟨bs, hb, ih.mp hbs, (ok.inj heq).symm⟩
      · rintro ⟨bs, hb, hbs, rfl⟩
        exact ⟨hb, bs, ih.mpr hbs, rfl⟩

/-- Bodies that agree on the elements of the list make the same loop. -/
theorem foldlM_congr {γ : Type*} {σ : Type v} {f g : σ → γ → Except ε σ} {l : List γ}
    (h : ∀ x ∈ l, ∀ s, f s x = g s x) (s : σ) : l.foldlM f s = l.foldlM g s := by
  induction l generalizing s with
  | nil => rfl
  | cons x l ih =>
      rw [List.foldlM_cons, List.foldlM_cons, h x List.mem_cons_self]
      congr 1
      funext s'
      exact ih (fun y hy => h y (List.mem_cons_of_mem x hy)) s'

/-- A loop whose body cannot fail. -/
theorem foldlM_ok {γ : Type*} {σ : Type v} {f : σ → γ → Except ε σ} {g : σ → γ → σ} {l : List γ}
    (h : ∀ s, ∀ x ∈ l, f s x = .ok (g s x)) (s : σ) : l.foldlM f s = .ok (l.foldl g s) := by
  induction l generalizing s with
  | nil => rfl
  | cons x l ih =>
      rw [List.foldlM_cons, h s x List.mem_cons_self, ok_bind, List.foldl_cons]
      exact ih (fun s y hy => h s y (List.mem_cons_of_mem x hy)) (g s x)

/-- A loop that leaves the state alone. -/
theorem foldlM_fixed {γ : Type*} {σ : Type v} {f : σ → γ → Except ε σ} {l : List γ} {s : σ}
    (h : ∀ x ∈ l, f s x = .ok s) : l.foldlM f s = .ok s := by
  induction l with
  | nil => rfl
  | cons x l ih =>
      rw [List.foldlM_cons, h x List.mem_cons_self, ok_bind]
      exact ih fun y hy => h y (List.mem_cons_of_mem x hy)

/-- A loop that has something to do for one element only. -/
theorem foldlM_of_ne {γ : Type*} {σ : Type v} {f : σ → γ → Except ε σ} {l : List γ} {x : γ} (hnodup : l.Nodup)
    (hx : x ∉ l → ∀ s, f s x = .ok s) (hne : ∀ y, y ≠ x → ∀ s, f s y = .ok s) (s : σ) : l.foldlM f s = f s x := by
  induction l generalizing s with
  | nil => exact (hx List.not_mem_nil s).symm
  | cons y l ih =>
      obtain ⟨hy, hl⟩ := List.nodup_cons.mp hnodup
      rw [List.foldlM_cons]
      by_cases heq : y = x
      · subst heq
        have hrest : ∀ s, l.foldlM f s = .ok s := fun s =>
          foldlM_fixed fun z hz => hne z (fun hzy => hy (hzy ▸ hz)) s
        cases f s y with
        | error e => rfl
        | ok s' => exact hrest s'
      · rw [hne y heq s, ok_bind]
        refine ih hl (fun hnot => hx fun hmem => ?_) s
        exact hnot ((List.mem_cons.mp hmem).resolve_left (Ne.symm heq))

theorem foldlM_total {γ : Type*} {σ : Type v} {f : σ → γ → Except ε σ} {l : List γ} (h : ∀ s x, ∃ s', f s x = .ok s')
    (s : σ) : ∃ s', l.foldlM f s = .ok s' := by
  choose g hg using h
  exact ⟨_, foldlM_ok (fun s x _ => hg s x) s⟩

section

variable {σ : Type v} {f : σ → ℕ → Except ε σ} {I : ℕ → σ → Prop} {n : ℕ} {s s' : σ}

/-- **The counting loop.** A loop whose body succeeds and moves the invariant on succeeds. -/
theorem foldlM_range_ok (hstep : ∀ i < n, ∀ s, I i s → ∃ s', f s i = .ok s' ∧ I (i + 1) s') (hs : I 0 s) :
    ∃ s', (List.range n).foldlM f s = .ok s' ∧ I n s' := by
  induction n with
  | zero => exact ⟨s, rfl, hs⟩
  | succ n ih =>
      obtain ⟨t, hrun, ht⟩ := ih fun i hi => hstep i (Nat.lt_succ_of_lt hi)
      obtain ⟨s', hlast, hs'⟩ := hstep n (Nat.lt_succ_self n) t ht
      refine ⟨s', ?_, hs'⟩
      rw [List.range_succ, List.foldlM_append, hrun, ok_bind, List.foldlM_cons, hlast, ok_bind,
        List.foldlM_nil, pure_eq_ok]

/-- A loop that succeeded has moved the invariant on if its body does so whenever it succeeds. -/
theorem foldlM_range_inv (hstep : ∀ i < n, ∀ s s', I i s → f s i = .ok s' → I (i + 1) s')
    (hrun : (List.range n).foldlM f s = .ok s') (hs : I 0 s) : I n s' := by
  induction n generalizing s' with
  | zero =>
      obtain rfl : s = s' := Except.ok.inj hrun
      exact hs
  | succ n ih =>
      rw [List.range_succ, List.foldlM_append, bind_eq_ok_iff] at hrun
      obtain ⟨t, hfirst, hlast⟩ := hrun
      have ht := ih (fun i hi => hstep i (Nat.lt_succ_of_lt hi)) hfirst
      rw [List.foldlM_cons, bind_eq_ok_iff] at hlast
      obtain ⟨t', hbody, hnil⟩ := hlast
      obtain rfl : t' = s' := Except.ok.inj hnil
      exact hstep n (Nat.lt_succ_self n) t t' ht hbody

end

end Except
