import Mathlib.Algebra.Order.Group.Multiset

/-!
# Objects that somebody else keeps for us

Objects are acquired and have to be released once. The registry counts what is held, and it notes each
release of an object that was not.
-/

structure Registry (α : Type*) where
  live : Multiset α
  stray : Multiset α

namespace Registry

variable {α : Type*} {r : Registry α} {s t : Multiset α} {a : α}

def empty : Registry α := { live := 0, stray := 0 }

def acquire (a : α) (r : Registry α) : Registry α := { r with live := a ::ₘ r.live }

def release [DecidableEq α] (a : α) (r : Registry α) : Registry α :=
  if a ∈ r.live then { r with live := r.live.erase a } else { r with stray := a ::ₘ r.stray }

/-- Just the objects `s` are held, and every other one that was acquired has been released once. -/
structure Holds (r : Registry α) (s : Multiset α) : Prop where
  live : r.live = s
  stray : r.stray = 0

namespace Holds

theorem empty : (Registry.empty : Registry α).Holds 0 := ⟨rfl, rfl⟩

theorem acquire (h : r.Holds s) (a : α) : (r.acquire a).Holds (a ::ₘ s) :=
  ⟨congrArg (a ::ₘ ·) h.live, h.stray⟩

theorem release [DecidableEq α] (h : r.Holds (a ::ₘ s)) : (r.release a).Holds s := by
  have hmem : a ∈ r.live := by
    rw [h.live]
    exact Multiset.mem_cons_self a s
  unfold Registry.release
  rw [if_pos hmem]
  refine ⟨?_, h.stray⟩
  rw [h.live]
  exact Multiset.erase_cons_head a s

/-- What is held is known. -/
theorem unique (hs : r.Holds s) (ht : r.Holds t) : s = t := hs.live.symm.trans ht.live

end Holds

/-- Whoever holds `s`, and whatever else, holds `s'` and the same else afterwards. -/
def Trades (s s' : Multiset α) (r r' : Registry α) : Prop := ∀ t, r.Holds (s + t) → r'.Holds (s' + t)

namespace Trades

variable {r' r'' : Registry α} {s' s'' : Multiset α}

theorem refl (s : Multiset α) (r : Registry α) : Trades s s r r := fun _ h => h

theorem trans (h : Trades s s' r r') (h' : Trades s' s'' r' r'') : Trades s s'' r r'' :=
  fun t ht => h' t (h t ht)

theorem cast {t t' : Multiset α} (h : Trades s s' r r') (hs : s = t) (hs' : s' = t') : Trades t t' r r' :=
  hs ▸ hs' ▸ h

/-- What is traded may be a part of what is held. -/
theorem frame (h : Trades s s' r r') (u : Multiset α) : Trades (s + u) (s' + u) r r' := by
  intro t ht
  rw [add_assoc] at ht ⊢
  exact h (u + t) ht

theorem acquire (a : α) (s : Multiset α) (r : Registry α) : Trades s (a ::ₘ s) r (r.acquire a) := by
  intro t ht
  rw [Multiset.cons_add]
  exact ht.acquire a

theorem release [DecidableEq α] (a : α) (s : Multiset α) (r : Registry α) :
    Trades (a ::ₘ s) s r (r.release a) := by
  intro t ht
  rw [Multiset.cons_add] at ht
  exact ht.release

end Trades

end Registry
