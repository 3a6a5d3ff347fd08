import Hwemu.Lib.Except

/-!
# Stages brought up in order

Stages are brought up one after another. When one of them fails, those before it are taken down again, the
last one first.
-/

namespace Staged

variable {ε σ υ : Type*}

def down (cleanup : υ → σ → Except ε σ) (stages : List υ) (s : σ) : Except ε σ :=
  stages.foldlM (fun s u => cleanup u s) s

/-- `done` are the stages that are up, the last one first. A result other than 0 is an error. -/
def up (init : υ → σ → Except ε (Int × σ)) (cleanup : υ → σ → Except ε σ) :
    List υ → List υ → σ → Except ε (Int × σ)
  | _, [], s => .ok (0, s)
  | done, u :: todo, s => do
      let (err, s) ← init u s
      if err ≠ 0 then
        let s ← down cleanup done s
        return (err, s)
      else up init cleanup (u :: done) todo s

variable {init : υ → σ → Except ε (Int × σ)} {cleanup : υ → σ → Except ε σ} {Held : List υ → σ → Prop}
  {all done todo : List υ} {s : σ}

theorem down_nil : down cleanup [] s = .ok s := rfl

theorem down_cons (u : υ) : down cleanup (u :: done) s = cleanup u s >>= down cleanup done := by
  rw [down, List.foldlM_cons]
  rfl

/-- What taking down one stage gives back, taking down all stages gives back. -/
theorem down_held (hdown : ∀ done u todo s, done.reverse ++ u :: todo = all → todo ≠ [] → Held (u :: done) s →
      ∃ s', cleanup u s = .ok s' ∧ Held done s')
    (hall : done.reverse ++ todo = all) (htodo : todo ≠ []) (h : Held done s) :
    ∃ s', down cleanup done s = .ok s' ∧ Held [] s' := by
  induction done generalizing todo s with
  | nil => exact ⟨s, down_nil, h⟩
  | cons u done ih =>
      rw [List.reverse_cons, List.append_assoc, List.singleton_append] at hall
      obtain ⟨s₁, hclean, h₁⟩ := hdown done u todo s hall htodo h
      obtain ⟨s', hrest, h'⟩ := ih hall (List.cons_ne_nil u todo) h₁
      refine ⟨s', ?_, h'⟩
      rw [down_cons, hclean]
      exact hrest

/-- Stages that do not fail are all up. -/
theorem up_ok (hinit : ∀ done u todo s, done.reverse ++ u :: todo = all → Held done s →
      ∃ s', init u s = .ok (0, s') ∧ Held (u :: done) s')
    (hall : done.reverse ++ todo = all) (h : Held done s) :
    ∃ s', up init cleanup done todo s = .ok (0, s') ∧ Held all.reverse s' := by
  induction todo generalizing done s with
  | nil =>
      refine ⟨s, rfl, ?_⟩
      rw [← hall, List.append_nil, List.reverse_reverse]
      exact h
  | cons u todo ih =>
      obtain ⟨s₁, hfirst, h₁⟩ := hinit done u todo s hall h
      have hall' : (u :: done).reverse ++ todo = all := by
        rw [List.reverse_cons, List.append_assoc]
        exact hall
      obtain ⟨s', hrest, hend⟩ := ih hall' h₁
      refine ⟨s', ?_, hend⟩
      rw [up, hfirst]
      exact hrest

/-- **Rollback.** Either all stages are up, or none is. -/
theorem up_held (hinit : ∀ done u todo s, done.reverse ++ u :: todo = all → Held done s →
      ∃ err s', init u s = .ok (err, s') ∧ (err = 0 → Held (u :: done) s') ∧ (err ≠ 0 → Held done s'))
    (hdown : ∀ done u todo s, done.reverse ++ u :: todo = all → todo ≠ [] → Held (u :: done) s →
      ∃ s', cleanup u s = .ok s' ∧ Held done s')
    (hall : done.reverse ++ todo = all) (h : Held done s) :
    ∃ err s', up init cleanup done todo s = .ok (err, s') ∧ (err = 0 → Held all.reverse s') ∧
      (err ≠ 0 → Held [] s') := by
  induction todo generalizing done s with
  | nil =>
      refine ⟨0, s, rfl, fun _ => ?_, fun herr => absurd rfl herr⟩
      rw [← hall, List.append_nil, List.reverse_reverse]
      exact h
  | cons u todo ih =>
      obtain ⟨err, s₁, hfirst, hok, hfail⟩ := hinit done u todo s hall h
      by_cases herr : err = 0
      · have hall' : (u :: done).reverse ++ todo = all := by
          rw [List.reverse_cons, List.append_assoc]
          exact hall
        obtain ⟨err', s', hrest, hend⟩ := ih hall' (hok herr)
        refine ⟨err', s', ?_, hend⟩
        rw [up, hfirst, Except.ok_bind]
        dsimp only
        rw [if_neg (not_not.mpr herr)]
        exact hrest
      · obtain ⟨s', hback, h'⟩ := down_held hdown hall (List.cons_ne_nil u todo) (hfail herr)
        refine ⟨err, s', ?_, fun hzero => absurd hzero herr, fun _ => h'⟩
        rw [up, hfirst, Except.ok_bind]
        dsimp only
        rw [if_pos herr, hback]
        rfl

end Staged
