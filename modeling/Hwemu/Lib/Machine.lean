import Hwemu.Lib.Except
import Hwemu.Lib.Run

/-!
# Machines that may fail

A machine takes an input in a state and answers with an output and its next state, or fails. Two
states cannot be told apart when they are related by a relation that every input keeps and under
which the machine answers the same. Where a message changes the part of the state it is for and leaves the
others alone, a part sees nothing of a list of messages but those that are for it, in their order.
-/

universe u v

/-- Results that are related, or the same failure. -/
inductive Except.Rel {ε : Type u} {α β : Type v} (P : α → β → Prop) : Except ε α → Except ε β → Prop
  | ok {a : α} {b : β} (h : P a b) : Rel P (.ok a) (.ok b)
  | error (e : ε) : Rel P (.error e) (.error e)

theorem Except.Rel.bind {ε : Type u} {α β α' β' : Type v} {P : α → β → Prop} {Q : α' → β' → Prop}
    {x : Except ε α} {y : Except ε β} (h : Rel P x y) {f : α → Except ε α'} {g : β → Except ε β'}
    (hfg : ∀ a b, P a b → Rel Q (f a) (g b)) : Rel Q (x >>= f) (y >>= g) := by
  cases h with
  | ok hab => exact hfg _ _ hab
  | error e => exact .error e

theorem Except.Rel.mono {ε : Type u} {α β : Type v} {P Q : α → β → Prop} {x : Except ε α} {y : Except ε β}
    (h : Rel P x y) (hsub : ∀ a b, P a b → Q a b) : Rel Q x y := by
  cases h with
  | ok hab => exact .ok (hsub _ _ hab)
  | error e => exact .error e

theorem Except.Rel.map_eq {ε : Type u} {α β γ : Type v} {P : α → β → Prop} {x : Except ε α}
    {y : Except ε β} (h : Rel P x y) {f : α → γ} {g : β → γ} (hfg : ∀ a b, P a b → f a = g b) :
    x.map f = y.map g := by
  cases h with
  | ok hab => exact congrArg Except.ok (hfg _ _ hab)
  | error e => rfl

/-- **Two loops.** Where one round of a loop has its counterpart in another, so has the loop. -/
theorem Except.foldlM_sim {ε : Type u} {σ τ : Type v} {α : Type*} {R : σ → τ → Prop} {f : σ → α → Except ε σ}
    {g : τ → α → Except ε τ} (hf : ∀ s s' x t, R s t → f s x = .ok s' → ∃ t', g t x = .ok t' ∧ R s' t')
    {l : List α} {s s' : σ} {t : τ} (h : R s t) (hloop : l.foldlM f s = .ok s') :
    ∃ t', l.foldlM g t = .ok t' ∧ R s' t' := by
  induction l generalizing s t with
  | nil =>
      obtain rfl := Except.ok.inj hloop
      exact ⟨t, rfl, h⟩
  | cons x l ih =>
      rw [List.foldlM_cons] at hloop
      obtain ⟨s₁, hfirst, hrest⟩ := Except.bind_eq_ok_iff.mp hloop
      obtain ⟨t₁, hg, h₁⟩ := hf s s₁ x t h hfirst
      obtain ⟨t', hlater, h'⟩ := ih h₁ hrest
      exact ⟨t', (List.foldlM_cons ..).trans ((Except.bind_of_eq_ok hg _).trans hlater), h'⟩

namespace Machine

variable {ε : Type u} {ι : Type*} {ο σ : Type v} {exec : ι → σ → Except ε (ο × σ)} {R : σ → σ → Prop}

/-- The machine fed with one input after the other. -/
def execAll (exec : ι → σ → Except ε (ο × σ)) : List ι → σ → Except ε (List ο × σ)
  | [], s => .ok ([], s)
  | i :: is, s => do
      let (o, s) ← exec i s
      let (os, s) ← execAll exec is s
      return (o :: os, s)

/-- A machine that does not fail makes a run of its steps. -/
theorem run_execAll {is : List ι} {os : List ο} {s s' : σ} (h : execAll exec is s = .ok (os, s')) :
    Run (fun s e s' => exec e.1 s = .ok (e.2, s')) s (is.zip os) s' := by
  induction is generalizing s os with
  | nil =>
      obtain ⟨rfl, rfl⟩ := Prod.mk.inj (Except.ok.inj h)
      exact .nil s
  | cons i is ih =>
      obtain ⟨⟨o, t⟩, hfirst, hrest⟩ := Except.bind_eq_ok_iff.mp h
      obtain ⟨⟨os, t'⟩, hlater, heq⟩ := Except.bind_eq_ok_iff.mp hrest
      obtain ⟨rfl, rfl⟩ := Prod.mk.inj (Except.ok.inj heq)
      exact .cons hfirst (ih hlater)

/-- What is seen of the machine. -/
def outputs (exec : ι → σ → Except ε (ο × σ)) (is : List ι) (s : σ) : Except ε (List ο) :=
  (execAll exec is s).map Prod.fst

/-- The same output, and states that are related. -/
def Same {ο : Type*} (R : σ → σ → Prop) (a b : ο × σ) : Prop := a.1 = b.1 ∧ R a.2 b.2

theorem execAll_same (hstep : ∀ i s t, R s t → Except.Rel (Same R) (exec i s) (exec i t))
    (is : List ι) {s t : σ} (h : R s t) : Except.Rel (Same R) (execAll exec is s) (execAll exec is t) := by
  induction is generalizing s t with
  | nil => exact .ok ⟨rfl, h⟩
  | cons i is ih =>
      refine (hstep i s t h).bind ?_
      rintro ⟨o, s₁⟩ ⟨_, t₁⟩ ⟨rfl, h₁⟩
      refine (ih h₁).bind ?_
      rintro ⟨os, s₂⟩ ⟨_, t₂⟩ ⟨rfl, h₂⟩
      exact .ok ⟨rfl, h₂⟩

/-- **Refinement.** Two machines whose steps answer the same in related states answer the same on every
list of inputs. -/
theorem execAll_rel {σ' : Type v} {exec' : ι → σ' → Except ε (ο × σ')} {Q : σ → σ' → Prop}
    (hstep : ∀ i s t, Q s t → Except.Rel (fun a b => a.1 = b.1 ∧ Q a.2 b.2) (exec i s) (exec' i t))
    (is : List ι) {s : σ} {t : σ'} (h : Q s t) :
    Except.Rel (fun a b => a.1 = b.1 ∧ Q a.2 b.2) (execAll exec is s) (execAll exec' is t) := by
  induction is generalizing s t with
  | nil => exact .ok ⟨rfl, h⟩
  | cons i is ih =>
      refine (hstep i s t h).bind ?_
      rintro ⟨o, s₁⟩ ⟨_, t₁⟩ ⟨rfl, h₁⟩
      refine (ih h₁).bind ?_
      rintro ⟨os, s₂⟩ ⟨_, t₂⟩ ⟨rfl, h₂⟩
      exact .ok ⟨rfl, h₂⟩

/-- **States that cannot be told apart.** -/
theorem outputs_eq (hstep : ∀ i s t, R s t → Except.Rel (Same R) (exec i s) (exec i t))
    (is : List ι) {s t : σ} (h : R s t) : outputs exec is s = outputs exec is t :=
  (execAll_same hstep is h).map_eq fun _ _ hsame => hsame.1

end Machine

/-! ### Messages to a part of the state -/

namespace Routed

variable {σ μ β : Type*} {step : σ → μ → σ} {view : σ → β} {isFor : μ → Bool} {update : β → μ → β}

/-- The messages that are for the part `view` change it by `update`. -/
structure Part (step : σ → μ → σ) (view : σ → β) (isFor : μ → Bool) (update : β → μ → β) : Prop where
  hit : ∀ s x, isFor x = true → view (step s x) = update (view s) x
  miss : ∀ s x, isFor x = false → view (step s x) = view s

/-- **What a part sees** of a list of messages. -/
theorem Part.foldl (h : Part step view isFor update) (xs : List μ) (s : σ) :
    view (xs.foldl step s) = (xs.filter isFor).foldl update (view s) := by
  induction xs generalizing s with
  | nil => rfl
  | cons x xs ih =>
      rw [List.foldl_cons, ih]
      cases hx : isFor x with
      | true => rw [List.filter_cons_of_pos hx, List.foldl_cons, h.hit s x hx]
      | false => rw [List.filter_cons_of_neg (by simp [hx]), h.miss s x hx]

end Routed
