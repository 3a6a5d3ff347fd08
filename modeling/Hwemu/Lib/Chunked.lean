import Hwemu.Lib.Run
import Mathlib.Data.List.Basic

/-!
# One message at a time, read in chunks

A buffer holds the message loaded last. Readers take it in chunks of any size, until it is used up or
thrown away or another message is loaded. What happens to the buffer is a run of actions; the law of
such runs is that of a queue: what was delivered and what is left make up what was there before.
-/

namespace Chunked

variable {ι α : Type*}

inductive Act (ι α : Type*) where
  | load (source : ι) (data : List α)
  | discard
  | deliver (chunk : List α)
  | fail
  deriving DecidableEq

/-- The message loaded last, where it came from, and how much of it has been delivered. -/
structure Held (ι α : Type*) where
  source : Option ι
  data : List α
  read : ℕ

namespace Held

def empty : Held ι α := ⟨none, [], 0⟩

def unread (h : Held ι α) : List α := h.data.drop h.read

end Held

namespace Act

def apply : Act ι α → Held ι α → Held ι α
  | load source data, _ => ⟨some source, data, 0⟩
  | discard, _ => .empty
  | deliver chunk, h => { h with read := h.read + chunk.length }
  | fail, h => h

/-- A chunk is a piece of what is left, and a reader only fails when nothing is. -/
def Lawful : Act ι α → Held ι α → Prop
  | deliver chunk, h => h.unread ≠ [] ∧ chunk <+: h.unread
  | fail, h => h.unread = []
  | _, _ => True

/-- The message held stays the same one. -/
def Keeps : Act ι α → Prop
  | load _ _ => False
  | discard => False
  | _ => True

def delivered : Act ι α → List α
  | deliver chunk => chunk
  | _ => []

end Act

def Step (h : Held ι α) (a : Act ι α) (h' : Held ι α) : Prop := a.Lawful h ∧ h' = a.apply h

/-- What is held after the actions, from an empty buffer on. -/
def held (acts : List (Act ι α)) : Held ι α := acts.foldl (fun h a => a.apply h) .empty

/-- The bytes delivered by the actions, in order. -/
def delivered (acts : List (Act ι α)) : List α := acts.flatMap Act.delivered

variable {h h' : Held ι α} {a : Act ι α} {acts pre mid post : List (Act ι α)}

theorem held_append (acts acts' : List (Act ι α)) :
    held (acts ++ acts') = acts'.foldl (fun h a => a.apply h) (held acts) :=
  List.foldl_append

theorem held_concat (acts : List (Act ι α)) (a : Act ι α) : held (acts ++ [a]) = a.apply (held acts) := by
  rw [held_append]
  rfl

theorem Run.eq_foldl (hrun : Run Step h acts h') : h' = acts.foldl (fun h a => a.apply h) h := by
  induction hrun with
  | nil => rfl
  | cons hstep _ ih => rw [ih, hstep.2, List.foldl_cons]

/-- A chunk and what is left after it make up what was left before. -/
theorem Step.conserves (hstep : Step h a h') (hkeep : a.Keeps) : a.delivered ++ h'.unread = h.unread := by
  obtain ⟨hlawful, rfl⟩ := hstep
  cases a with
  | load source data => exact hkeep.elim
  | discard => exact hkeep.elim
  | fail => rfl
  | deliver chunk =>
      obtain ⟨_, rest, hrest⟩ := hlawful
      change chunk ++ h.data.drop (h.read + chunk.length) = h.unread
      have hdrop : h.data.drop (h.read + chunk.length) = h.unread.drop chunk.length := by
        rw [Held.unread, List.drop_drop]
      rw [hdrop, ← hrest, List.drop_left]

/-- **Conservation.** -/
theorem Run.conserves (hrun : Run Step h acts h') (hkeep : ∀ a ∈ acts, a.Keeps) :
    delivered acts ++ h'.unread = h.unread := by
  induction hrun with
  | nil => rfl
  | cons hstep _ ih =>
      have hfirst := hstep.conserves (hkeep _ List.mem_cons_self)
      have hrest := ih fun a ha => hkeep a (List.mem_cons_of_mem _ ha)
      rw [← hfirst, ← hrest, ← List.append_assoc]
      rfl

/-- **Between two loads or discards** the chunks make up a prefix of the message loaded last. -/
theorem Run.delivered_prefix {source : ι} {data : List α}
    (hrun : Run Step h (pre ++ .load source data :: (mid ++ post)) h') (hkeep : ∀ a ∈ mid, a.Keeps) :
    delivered mid <+: data := by
  obtain ⟨h₁, _, hrest⟩ := Run.append_iff.mp hrun
  obtain ⟨h₂, hload, hrest⟩ := Run.cons_iff.mp hrest
  obtain ⟨h₃, hmid, _⟩ := Run.append_iff.mp hrest
  have hsum := Run.conserves hmid hkeep
  rw [hload.2] at hsum
  exact ⟨_, hsum⟩

/-- After a discard nothing is delivered. -/
theorem Run.delivered_nil (hrun : Run Step h (pre ++ .discard :: (mid ++ post)) h')
    (hkeep : ∀ a ∈ mid, a.Keeps) : delivered mid = [] := by
  obtain ⟨h₁, _, hrest⟩ := Run.append_iff.mp hrun
  obtain ⟨h₂, hdiscard, hrest⟩ := Run.cons_iff.mp hrest
  obtain ⟨h₃, hmid, _⟩ := Run.append_iff.mp hrest
  have hsum := Run.conserves hmid hkeep
  rw [hdiscard.2] at hsum
  exact (List.append_eq_nil_iff.mp hsum).1

/-- An action of a run from an empty buffer is lawful where it stands. -/
theorem Run.lawful (hrun : Run Step Held.empty (pre ++ a :: post) h') : a.Lawful (held pre) := by
  obtain ⟨h₁, hbefore, hrest⟩ := Run.append_iff.mp hrun
  obtain ⟨h₂, hstep, _⟩ := Run.cons_iff.mp hrest
  rw [Run.eq_foldl hbefore] at hstep
  exact hstep.1

end Chunked
