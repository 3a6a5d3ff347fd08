import Mathlib.Logic.Basic

/-!
# Labelled runs of a transition system

A transition system is a relation `step s e s'`: in state `s` the labelled step `e` may lead to
`s'`. A label carries the input of the step and whatever the step lets be observed. `Run` is a
finite run, and the rules below are the ones every run proof of the development goes through: an
invariant kept by each step is kept by each run, also when only some steps are allowed.
-/

variable {σ ε : Type*} {step : σ → ε → σ → Prop}

/-- `Run step s es s'`: the labels `es`, in order, lead from `s` to `s'`. -/
inductive Run (step : σ → ε → σ → Prop) : σ → List ε → σ → Prop
  | nil (s : σ) : Run step s [] s
  | cons {s s' s'' : σ} {e : ε} {es : List ε} :
      step s e s' → Run step s' es s'' → Run step s (e :: es) s''

namespace Run

variable {s s' s'' : σ} {e : ε} {es es' : List ε}

@[simp]
theorem nil_iff : Run step s [] s' ↔ s' = s := by
  constructor
  · rintro ⟨⟩
    rfl
  · rintro rfl
    exact .nil _

theorem cons_iff : Run step s (e :: es) s'' ↔ ∃ s', step s e s' ∧ Run step s' es s'' := by
  constructor
  · rintro (_ | ⟨hstep, hrun⟩)
    exact ⟨_, hstep, hrun⟩
  · rintro ⟨_, hstep, hrun⟩
    exact .cons hstep hrun

theorem single (hstep : step s e s') : Run step s [e] s' := .cons hstep (.nil s')

theorem append (h : Run step s es s') (h' : Run step s' es' s'') :
    Run step s (es ++ es') s'' := by
  induction h with
  | nil => exact h'
  | cons hstep _ ih => exact .cons hstep (ih h')

theorem append_iff :
    Run step s (es ++ es') s'' ↔ ∃ s', Run step s es s' ∧ Run step s' es' s'' := by
  constructor
  · intro h
    induction es generalizing s with
    | nil => exact ⟨s, .nil s, h⟩
    | cons e es ih =>
        obtain ⟨t, hstep, hrest⟩ := cons_iff.mp h
        obtain ⟨u, hleft, hright⟩ := ih hrest
        exact ⟨u, .cons hstep hleft, hright⟩
  · rintro ⟨_, hleft, hright⟩
    exact hleft.append hright

theorem snoc_iff : Run step s (es ++ [e]) s'' ↔ ∃ s', Run step s es s' ∧ step s' e s'' := by
  rw [append_iff]
  constructor
  · rintro ⟨t, hleft, hright⟩
    obtain ⟨u, hstep, hnil⟩ := cons_iff.mp hright
    obtain rfl := nil_iff.mp hnil
    exact ⟨t, hleft, hstep⟩
  · rintro ⟨t, hleft, hstep⟩
    exact ⟨t, hleft, single hstep⟩

/-- **The run rule.** What every step keeps, every run keeps. -/
theorem invariant {I : σ → Prop} (hstep : ∀ s e s', I s → step s e s' → I s')
    (h : Run step s es s') (hs : I s) : I s' := by
  induction h with
  | nil => exact hs
  | cons hfirst _ ih => exact ih (hstep _ _ _ hs hfirst)

/-- The run rule for what depends on the labels so far, with what is true of each label when it comes. -/
theorem history {I : List ε → σ → Prop} {P : List ε → ε → Prop}
    (hstep : ∀ past s e s', I past s → step s e s' → I (past ++ [e]) s' ∧ P past e) {past : List ε}
    (h : Run step s es s') (hs : I past s) :
    I (past ++ es) s' ∧ ∀ pre e post, es = pre ++ e :: post → P (past ++ pre) e := by
  induction h generalizing past with
  | nil s =>
      rw [List.append_nil]
      exact ⟨hs, fun pre e post heq => absurd heq.symm (by simp)⟩
  | @cons s t s'' e₀ es hfirst _ ih =>
      obtain ⟨ht, he⟩ := hstep past s e₀ t hs hfirst
      obtain ⟨hend, hlater⟩ := ih ht
      rw [List.append_assoc, List.singleton_append] at hend
      refine ⟨hend, fun pre e post heq => ?_⟩
      cases pre with
      | nil =>
          obtain ⟨rfl, rfl⟩ := List.cons.inj heq
          rw [List.append_nil]
          exact he
      | cons e₁ pre =>
          obtain ⟨rfl, htail⟩ := List.cons.inj heq
          have hp := hlater pre e post htail
          rwa [List.append_assoc, List.singleton_append] at hp

/-- A system whose steps can be computed runs as the fold over its labels says. -/
theorem of_foldlM {next : σ → ε → Option σ} (h : es.foldlM next s = some s') :
    Run (fun s e s' => next s e = some s') s es s' := by
  induction es generalizing s with
  | nil =>
      obtain rfl : s = s' := Option.some.inj h
      exact .nil s
  | cons e es ih =>
      rw [List.foldlM_cons] at h
      obtain ⟨t, hfirst, hrest⟩ := Option.bind_eq_some_iff.mp h
      exact .cons hfirst (ih hrest)

/-- A run of a restricted system is a run of the system. -/
theorem mono {step' : σ → ε → σ → Prop} (hsub : ∀ s e s', step s e s' → step' s e s')
    (h : Run step s es s') : Run step' s es s' := by
  induction h with
  | nil => exact .nil _
  | cons hfirst _ ih => exact .cons (hsub _ _ _ hfirst) ih

/-- A run computed by a function that stops where a condition fails. -/
theorem of_foldlM_guard {next : σ → ε → Option σ} {D : σ → ε → Prop} [∀ s e, Decidable (D s e)]
    (h : es.foldlM (fun s e => if D s e then next s e else none) s = some s') :
    Run (fun s e s' => next s e = some s' ∧ D s e) s es s' :=
  (of_foldlM h).mono fun _ _ _ hstep => (Option.ite_none_right_eq_some.mp hstep).symm

/-- A run whose labels all have a property that, with an invariant, puts each step in another system. -/
theorem restrict {step' : σ → ε → σ → Prop} {I : σ → Prop} {P : ε → Prop}
    (hstep : ∀ s e s', I s → P e → step s e s' → step' s e s' ∧ I s')
    (h : Run step s es s') (hes : ∀ e ∈ es, P e) (hs : I s) : Run step' s es s' := by
  induction h with
  | nil => exact .nil _
  | cons hfirst _ ih =>
      obtain ⟨hfirst', hs'⟩ := hstep _ _ _ hs (hes _ List.mem_cons_self) hfirst
      exact .cons hfirst' (ih (fun e he => hes e (List.mem_cons_of_mem _ he)) hs')

/-- **Exact conditions.** Where an invariant lasts as long as the steps meet a condition and means that a
state is good, and a step that does not meet it leads to a bad state, just the runs whose steps all meet
the condition stay in good states. -/
theorem good_iff_careful {next : σ → ε → Option σ} {J G : σ → Prop} {C : σ → ε → Prop}
    (hkeep : ∀ s e s', J s → next s e = some s' → C s e → J s') (hgood : ∀ s, J s → G s)
    (hbad : ∀ s e s', J s → next s e = some s' → ¬C s e → ¬G s')
    (h : Run (fun s e s' => next s e = some s') s es s') (hs : J s) :
    (∀ es' t, es' <+: es → Run (fun s e s' => next s e = some s') s es' t → G t) ↔
      Run (fun s e s' => next s e = some s' ∧ C s e) s es s' := by
  induction h with
  | nil s =>
      constructor
      · exact fun _ => .nil s
      · intro _ es' t hprefix hrun
        obtain rfl := List.prefix_nil.mp hprefix
        obtain rfl := nil_iff.mp hrun
        exact hgood t hs
  | cons hfirst hrest ih =>
      rename_i s t s'' e es
      constructor
      · intro hall
        have ht : G t := hall [e] t (List.prefix_append [e] es) (single hfirst)
        have hc : C s e := Classical.byContradiction fun hc => hbad s e t hs hfirst hc ht
        refine .cons ⟨hfirst, hc⟩ ((ih (hkeep s e t hs hfirst hc)).mp ?_)
        intro es' u hprefix hrun
        exact hall (e :: es') u ((List.prefix_cons_inj e).mpr hprefix) (.cons hfirst hrun)
      · intro hcareful es' u hprefix hrun
        obtain ⟨t', ⟨hfirst', hc⟩, hrest'⟩ := cons_iff.mp hcareful
        obtain rfl : t = t' := Option.some.inj (hfirst.symm.trans hfirst')
        rcases List.prefix_cons_iff.mp hprefix with rfl | ⟨es'', rfl, htail⟩
        · obtain rfl := nil_iff.mp hrun
          exact hgood u hs
        · obtain ⟨v, hv, hrun⟩ := cons_iff.mp hrun
          obtain rfl : t = v := Option.some.inj (hfirst.symm.trans hv)
          exact (ih (hkeep s e t hs hfirst hc)).mpr hrest' es'' u htail hrun

/-- The same where the condition on a step says whether it leads from a good state to a good state. -/
theorem all_good_iff {next : σ → ε → Option σ} {I G : σ → Prop} {C : σ → ε → Prop}
    (hstep : ∀ s e s', I s → next s e = some s' → I s')
    (hgood : ∀ s e s', I s → G s → next s e = some s' → (G s' ↔ C s e))
    (h : Run (fun s e s' => next s e = some s') s es s') (hs : I s) (hg : G s) :
    (∀ es' t, es' <+: es → Run (fun s e s' => next s e = some s') s es' t → G t) ↔
      Run (fun s e s' => next s e = some s' ∧ C s e) s es s' := by
  refine @good_iff_careful σ ε s s' es next (fun s => I s ∧ G s) G C ?_ ?_ ?_ h ⟨hs, hg⟩
  · intro s e s' hinv hfirst hc
    exact ⟨hstep s e s' hinv.1 hfirst, (hgood s e s' hinv.1 hinv.2 hfirst).mpr hc⟩
  · exact fun s hinv => hinv.2
  · intro s e s' hinv hfirst hc hs'
    exact hc ((hgood s e s' hinv.1 hinv.2 hfirst).mp hs')

/-- **Exact conditions on steps.** Where an invariant lasts as long as the steps keep to `D`, and under it a step
is good just when it meets a condition, the steps of a run that keeps to `D` are all good just when they all meet
the condition. -/
theorem steps_good_iff {next : σ → ε → Option σ} {I : σ → Prop} {D G C : σ → ε → Prop}
    (hkeep : ∀ s e s', I s → next s e = some s' → D s e → I s')
    (hiff : ∀ s e s', I s → next s e = some s' → D s e → (G s e ↔ C s e))
    (h : Run (fun s e s' => next s e = some s' ∧ D s e) s es s') (hs : I s) :
    (∀ es' e t, es' ++ [e] <+: es → Run (fun s e s' => next s e = some s') s es' t → G t e) ↔
      Run (fun s e s' => next s e = some s' ∧ C s e) s es s' := by
  induction h with
  | nil s =>
      constructor
      · exact fun _ => .nil s
      · intro _ es' e t hprefix
        exact absurd (List.prefix_nil.mp hprefix) (List.append_ne_nil_of_right_ne_nil es' (List.cons_ne_nil e []))
  | cons hstep hrest ih =>
      rename_i s t s'' e es
      obtain ⟨hfirst, hd⟩ := hstep
      have hrest_iff := ih (hkeep s e t hs hfirst hd)
      constructor
      · intro hall
        have hg : G s e := hall [] e s (List.prefix_append [e] es) (.nil s)
        refine .cons ⟨hfirst, (hiff s e t hs hfirst hd).mp hg⟩ (hrest_iff.mp fun es' e' u hprefix hrun => ?_)
        exact hall (e :: es') e' u ((List.prefix_cons_inj e).mpr hprefix) (.cons hfirst hrun)
      · intro hcareful es' e' u hprefix hrun
        obtain ⟨t', ⟨hfirst', hc⟩, hrest'⟩ := cons_iff.mp hcareful
        obtain rfl : t = t' := Option.some.inj (hfirst.symm.trans hfirst')
        cases es' with
        | nil =>
            obtain rfl := nil_iff.mp hrun
            obtain ⟨rfl, _⟩ := List.cons_prefix_cons.mp hprefix
            exact (hiff u e' t hs hfirst hd).mpr hc
        | cons e₁ es' =>
            obtain ⟨rfl, htail⟩ := List.cons_prefix_cons.mp hprefix
            obtain ⟨v, hv, hrun⟩ := cons_iff.mp hrun
            obtain rfl : t = v := Option.some.inj (hfirst.symm.trans hv)
            exact hrest_iff.mpr hrest' es' e' u htail hrun

end Run
