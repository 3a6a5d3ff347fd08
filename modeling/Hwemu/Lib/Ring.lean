import Mathlib.Data.List.Chain
import Mathlib.Data.List.Nodup
import Mathlib.Logic.Function.Basic

/-!
# Circular doubly linked lists

Cells with a pointer forward and a pointer back. A list is a ring of cells: from its head over its
entries and back to the head, and the same way back. Any number of rings without a common cell stand
side by side; putting a cell into one of them, or taking one out, leaves the others as they are.
-/

universe u

structure Links (α : Type u) where
  next : α → α
  prev : α → α

namespace Links

variable {α : Type u} [DecidableEq α] {m m' : Links α} {head a b c e new : α} {cells pre mid post l r : List α}

def setNext (a b : α) (m : Links α) : Links α := { m with next := Function.update m.next a b }

def setPrev (a b : α) (m : Links α) : Links α := { m with prev := Function.update m.prev a b }

/-- `new` put between `a` and `b`. -/
def insert (new a b : α) (m : Links α) : Links α :=
  (((m.setPrev b new).setNext new b).setPrev new a).setNext a new

/-- `a` and `b` made neighbours. -/
def join (a b : α) (m : Links α) : Links α := (m.setPrev b a).setNext a b

/-- A ring without entries. -/
def init (head : α) (m : Links α) : Links α := (m.setNext head head).setPrev head head

/-- `b` stands directly behind `a`. -/
def Joined (m : Links α) (a b : α) : Prop := m.next a = b ∧ m.prev b = a

theorem next_insert (m : Links α) :
    (m.insert new a b).next c = if c = a then new else if c = new then b else m.next c := by
  simp only [insert, setNext, setPrev, Function.update_apply]

theorem prev_insert (m : Links α) :
    (m.insert new a b).prev c = if c = new then a else if c = b then new else m.prev c := by
  simp only [insert, setNext, setPrev, Function.update_apply]

theorem next_join (m : Links α) : (m.join a b).next c = if c = a then b else m.next c :=
  Function.update_apply ..

theorem prev_join (m : Links α) : (m.join a b).prev c = if c = b then a else m.prev c :=
  Function.update_apply ..

omit [DecidableEq α] in
/-- A chain depends on the forward pointers of all its cells but the last, and on the backward pointers
of all but the first. -/
theorem isChain_congr (h : l.IsChain m.Joined) (hnext : ∀ c ∈ l.dropLast, m'.next c = m.next c)
    (hprev : ∀ c ∈ l.tail, m'.prev c = m.prev c) : l.IsChain m'.Joined := by
  induction l with
  | nil => exact .nil
  | cons a l ih =>
      cases l with
      | nil => exact .singleton a
      | cons b l =>
          obtain ⟨hab, hrest⟩ := List.isChain_cons_cons.mp h
          refine List.isChain_cons_cons.mpr ⟨⟨?_, ?_⟩, ih hrest ?_ ?_⟩
          · rw [hnext a List.mem_cons_self]
            exact hab.1
          · rw [hprev b List.mem_cons_self]
            exact hab.2
          · exact fun c hc => hnext c (List.mem_cons_of_mem a hc)
          · exact fun c hc => hprev c (List.mem_cons_of_mem b hc)

/-! ### One ring -/

structure IsRing (m : Links α) (head : α) (cells : List α) : Prop where
  joined : (head :: (cells ++ [head])).IsChain m.Joined
  nodup : (head :: cells).Nodup

namespace IsRing

section

omit [DecidableEq α]

/-- The entries `mid` stand between the cells `a` and `b`. -/
theorem cut (h : m.IsRing head (pre ++ mid ++ post)) (hl : head :: pre = l ++ [a])
    (hr : post ++ [head] = b :: r) : (l ++ a :: (mid ++ b :: r)).IsChain m.Joined := by
  have hall : head :: (pre ++ mid ++ post ++ [head]) = l ++ a :: (mid ++ b :: r) := by
    calc
      head :: (pre ++ mid ++ post ++ [head]) = (head :: pre) ++ (mid ++ (post ++ [head])) := by simp
      _ = l ++ a :: (mid ++ b :: r) := by simp [hl, hr]
  exact hall ▸ h.joined

theorem exists_last (head : α) (pre : List α) : ∃ l a, head :: pre = l ++ [a] :=
  ⟨_, _, (List.dropLast_append_getLast (List.cons_ne_nil head pre)).symm⟩

theorem exists_first (head : α) (post : List α) : ∃ b r, post ++ [head] = b :: r :=
  List.exists_cons_of_ne_nil (List.append_ne_nil_of_right_ne_nil post (List.cons_ne_nil head []))

theorem first_eq (hr : post ++ [head] = b :: r) : b = post.headD head := by
  cases post with
  | nil => exact (List.cons.inj hr).1.symm
  | cons c post => exact (List.cons.inj hr).1.symm

theorem next_head (h : m.IsRing head cells) : m.next head = cells.headD head := by
  obtain ⟨b, r, hr⟩ := exists_first head cells
  have hring : m.IsRing head ([] ++ [] ++ cells) := h
  have hchain := hring.cut (l := []) rfl hr
  rw [(List.isChain_cons_cons.mp hchain).1.1, first_eq hr]

theorem next_cell (h : m.IsRing head (pre ++ e :: post)) : m.next e = post.headD head := by
  obtain ⟨l, a, hl⟩ := exists_last head pre
  obtain ⟨b, r, hr⟩ := exists_first head post
  have hsplit : pre ++ e :: post = pre ++ [e] ++ post := List.append_cons pre e post
  rw [hsplit] at h
  have hchain := (List.isChain_append_cons_cons.mp (h.cut hl hr)).2.2
  rw [(List.isChain_cons_cons.mp hchain).1.1, first_eq hr]

theorem congr (h : m.IsRing head cells)
    (hsame : ∀ c ∈ head :: cells, m'.next c = m.next c ∧ m'.prev c = m.prev c) : m'.IsRing head cells := by
  refine ⟨isChain_congr h.joined (fun c hc => (hsame c ?_).1) (fun c hc => (hsame c ?_).2), h.nodup⟩
  · rwa [← List.cons_append, List.dropLast_concat] at hc
  · rcases List.mem_append.mp hc with hc | hc
    · exact List.mem_cons_of_mem head hc
    · rw [List.mem_singleton.mp hc]
      exact List.mem_cons_self

/-- What stands before `mid`, up to `a`, and what stands behind it, from `b` on, do not depend on the
pointers from `a` forward and from `b` back. -/
theorem halves (h : m.IsRing head (pre ++ mid ++ post)) (m' : Links α) (hl : head :: pre = l ++ [a])
    (hr : post ++ [head] = b :: r)
    (hnext : ∀ c ∈ head :: (pre ++ mid ++ post), c ≠ a → m'.next c = m.next c)
    (hprev : ∀ c ∈ head :: (pre ++ mid ++ post), c ≠ b → m'.prev c = m.prev c) :
    (l ++ [a]).IsChain m'.Joined ∧ (b :: r).IsChain m'.Joined := by
  have hchain := h.cut hl hr
  have hnodup : (head :: pre ++ post).Nodup := by
    refine h.nodup.sublist ?_
    rw [List.cons_append, List.append_assoc]
    exact ((List.sublist_append_right mid post).append_left pre).cons_cons head
  obtain ⟨hleft, hright, hapart⟩ := List.nodup_append.mp hnodup
  have hmem : ∀ c, c ∈ head :: pre ∨ c ∈ post → c ∈ head :: (pre ++ mid ++ post) := by
    intro c hc
    simp only [List.mem_cons, List.mem_append] at hc ⊢
    tauto
  constructor
  · have hfirst : (l ++ [a]).IsChain m.Joined := by
      rw [List.append_cons] at hchain
      exact hchain.left_of_append
    refine isChain_congr hfirst (fun c hc => ?_) (fun c hc => ?_)
    · rw [List.dropLast_concat] at hc
      rw [hl] at hleft
      refine hnext c (hmem c (Or.inl ?_)) ?_
      · rw [hl]
        exact List.mem_append_left [a] hc
      · rintro rfl
        exact (List.nodup_append.mp hleft).2.2 c hc c List.mem_cons_self rfl
    · rw [← hl, List.tail_cons] at hc
      refine hprev c (hmem c (Or.inl (List.mem_cons_of_mem head hc))) ?_
      rintro rfl
      have hb : c ∈ post ++ [head] := hr ▸ List.mem_cons_self
      rcases List.mem_append.mp hb with hpost | hhead
      · exact hapart c (List.mem_cons_of_mem head hc) c hpost rfl
      · exact (List.nodup_cons.mp hleft).1 (List.mem_singleton.mp hhead ▸ hc)
  · have hlast : (b :: r).IsChain m.Joined := by
      rw [← List.cons_append, ← List.append_assoc] at hchain
      exact hchain.right_of_append
    refine isChain_congr hlast (fun c hc => ?_) (fun c hc => ?_)
    · rw [← hr, List.dropLast_concat] at hc
      refine hnext c (hmem c (Or.inr hc)) ?_
      rintro rfl
      refine hapart c ?_ c hc rfl
      rw [hl]
      exact List.mem_append_right l List.mem_cons_self
    · have hc' : c ∈ post ++ [head] := hr ▸ List.mem_cons_of_mem b hc
      have hturn : (post ++ [head]).Nodup := by
        refine List.nodup_append.mpr ⟨hright, List.nodup_singleton head, fun x hx y hy heq => ?_⟩
        rw [List.mem_singleton.mp hy] at heq
        exact hapart head List.mem_cons_self x hx heq.symm
      rw [hr] at hturn
      refine hprev c (hmem c ?_) ?_
      · rcases List.mem_append.mp hc' with hpost | hhead
        · exact Or.inr hpost
        · exact Or.inl (List.mem_singleton.mp hhead ▸ List.mem_cons_self)
      · rintro rfl
        exact (List.nodup_cons.mp hturn).1 hc

/-- The cells before and behind a place of the ring. -/
theorem sides (hl : head :: pre = l ++ [a]) (hr : post ++ [head] = b :: r) :
    a ∈ head :: (pre ++ post) ∧ b ∈ head :: (pre ++ post) := by
  constructor
  · have ha : a ∈ head :: pre := hl ▸ List.mem_append_right l List.mem_cons_self
    exact List.mem_append_left post ha
  · have hb : b ∈ post ++ [head] := hr ▸ List.mem_cons_self
    rcases List.mem_append.mp hb with hpost | hhead
    · exact List.mem_cons_of_mem head (List.mem_append_right pre hpost)
    · exact List.mem_singleton.mp hhead ▸ List.mem_cons_self

theorem next_mem (h : m.IsRing head cells) (hc : c ∈ head :: cells) : m.next c ∈ head :: cells := by
  have hheadD : ∀ post : List α, (∀ x ∈ post, x ∈ cells) → post.headD head ∈ head :: cells := by
    intro post hsub
    cases post with
    | nil => exact List.mem_cons_self
    | cons x post => exact List.mem_cons_of_mem head (hsub x List.mem_cons_self)
  rcases List.mem_cons.mp hc with rfl | hcell
  · rw [h.next_head]
    exact hheadD cells fun _ hx => hx
  · obtain ⟨pre, post, rfl⟩ := List.append_of_mem hcell
    rw [h.next_cell]
    exact hheadD post fun x hx => List.mem_append_right pre (List.mem_cons_of_mem c hx)

/-- The cell before the head is the last entry, or the head itself. -/
theorem prev_head (h : m.IsRing head cells) (hl : head :: cells = l ++ [a]) : m.prev head = a := by
  have hring : m.IsRing head (cells ++ [] ++ []) := by rwa [List.append_nil, List.append_nil]
  exact (List.isChain_append_cons_cons.mp (hring.cut (r := []) hl rfl)).2.1.2

theorem prev_cell (h : m.IsRing head (pre ++ e :: post)) (hl : head :: pre = l ++ [a]) : m.prev e = a := by
  obtain ⟨b, r, hr⟩ := exists_first head post
  rw [List.append_cons] at h
  exact (List.isChain_append_cons_cons.mp (h.cut hl hr)).2.1.2

theorem prev_mem (h : m.IsRing head cells) (hc : c ∈ head :: cells) : m.prev c ∈ head :: cells := by
  rcases List.mem_cons.mp hc with rfl | hcell
  · obtain ⟨l, a, hl⟩ := exists_last c cells
    rw [h.prev_head hl, hl]
    exact List.mem_append_right l List.mem_cons_self
  · obtain ⟨pre, post, rfl⟩ := List.append_of_mem hcell
    obtain ⟨l, a, hl⟩ := exists_last head pre
    obtain ⟨b, r, hr⟩ := exists_first head (c :: post)
    rw [h.prev_cell hl]
    exact (sides hl hr).1

end

theorem init (head : α) (m : Links α) : (m.init head).IsRing head [] := by
  refine ⟨List.isChain_cons_cons.mpr ⟨⟨?_, ?_⟩, .singleton head⟩, List.nodup_singleton head⟩
  · exact Function.update_self ..
  · exact Function.update_self ..

/-- **A new cell** between the entries `pre` and `post`. -/
theorem insert (h : m.IsRing head (pre ++ post)) (hl : head :: pre = l ++ [a]) (hr : post ++ [head] = b :: r)
    (hnew : new ∉ head :: (pre ++ post)) : (m.insert new a b).IsRing head (pre ++ new :: post) := by
  have hring : m.IsRing head (pre ++ [] ++ post) := by rwa [List.append_nil]
  obtain ⟨ha, hb⟩ := sides hl hr
  have hne : ∀ c ∈ head :: (pre ++ [] ++ post), c ≠ new := by
    rintro c hc rfl
    rw [List.append_nil] at hc
    exact hnew hc
  obtain ⟨hleft, hright⟩ := hring.halves (m.insert new a b) hl hr
    (fun c hc hca => by rw [next_insert, if_neg hca, if_neg (hne c hc)])
    (fun c hc hcb => by rw [prev_insert, if_neg (hne c hc), if_neg hcb])
  have hanew : new ≠ a := fun heq => hnew (heq ▸ ha)
  have hbnew : b ≠ new := fun heq => hnew (heq ▸ hb)
  refine ⟨?_, ?_⟩
  · have hall : head :: (pre ++ new :: post ++ [head]) = l ++ a :: new :: b :: r := by
      calc
        head :: (pre ++ new :: post ++ [head]) = (head :: pre) ++ new :: (post ++ [head]) := by simp
        _ = l ++ a :: new :: b :: r := by simp [hl, hr]
    rw [hall]
    refine List.isChain_append_cons_cons.mpr ⟨hleft, ⟨?_, ?_⟩, List.isChain_cons_cons.mpr ⟨⟨?_, ?_⟩, hright⟩⟩
    · rw [next_insert, if_pos rfl]
    · rw [prev_insert, if_pos rfl]
    · rw [next_insert, if_neg hanew, if_pos rfl]
    · rw [prev_insert, if_neg hbnew, if_pos rfl]
  · have hperm : (head :: (pre ++ new :: post)).Perm (new :: head :: (pre ++ post)) :=
      (List.perm_middle.cons head).trans (.swap new head _)
    exact hperm.nodup_iff.mpr (List.nodup_cons.mpr ⟨hnew, h.nodup⟩)

/-- **An entry taken out**, its neighbours joined. -/
theorem remove (h : m.IsRing head (pre ++ e :: post)) (hl : head :: pre = l ++ [a])
    (hr : post ++ [head] = b :: r) :
    (m.join a b).IsRing head (pre ++ post) := by
  have hnodup := h.nodup
  rw [List.append_cons] at h
  obtain ⟨hleft, hright⟩ := h.halves (m.join a b) hl hr
    (fun c _ hca => by rw [next_join, if_neg hca]) (fun c _ hcb => by rw [prev_join, if_neg hcb])
  refine ⟨?_, ?_⟩
  · have hall : head :: (pre ++ post ++ [head]) = l ++ a :: b :: r := by
      calc
        head :: (pre ++ post ++ [head]) = (head :: pre) ++ (post ++ [head]) := by simp
        _ = l ++ a :: b :: r := by simp [hl, hr]
    rw [hall]
    refine List.isChain_append_cons_cons.mpr ⟨hleft, ⟨?_, ?_⟩, hright⟩
    · rw [next_join, if_pos rfl]
    · rw [prev_join, if_pos rfl]
  · exact hnodup.sublist (((List.sublist_cons_self e post).append_left pre).cons_cons head)

end IsRing

/-! ### Rings side by side -/

/-- The rings that `R` lists by their heads and entries, without a common cell. -/
structure Rings (m : Links α) (R : α → List α → Prop) : Prop where
  ring : ∀ {head cells}, R head cells → m.IsRing head cells
  apart : ∀ {head cells head' cells'}, R head cells → R head' cells' → head ≠ head' →
    List.Disjoint (head :: cells) (head' :: cells')

/-- A cell of no ring. -/
def Unused (R : α → List α → Prop) (c : α) : Prop := ∀ head cells, R head cells → c ∉ head :: cells

/-- The rings `R'` are those of `R`, but for the one of `head`, which has the entries `cells`. -/
def Differs (R R' : α → List α → Prop) (head : α) (cells : List α) : Prop :=
  ∀ head' cells', R' head' cells' → (head' = head ∧ cells' = cells) ∨ (head' ≠ head ∧ R head' cells')

namespace Rings

variable {R R' : α → List α → Prop}

omit [DecidableEq α] in
/-- **One ring changed**, into cells it had before and cells of no ring, by writes to such cells. -/
theorem update (h : Rings m R) (hdiff : Differs R R' head cells) (hring : m'.IsRing head cells)
    (hcells : ∀ c ∈ head :: cells, ∀ head' cells', R head' cells' → head' ≠ head → c ∉ head' :: cells')
    (hframe : ∀ head' cells', R head' cells' → head' ≠ head → ∀ c ∈ head' :: cells',
      m'.next c = m.next c ∧ m'.prev c = m.prev c) : Rings m' R' := by
  constructor
  · intro head' cells' h'
    rcases hdiff head' cells' h' with ⟨rfl, rfl⟩ | ⟨hne, hold⟩
    · exact hring
    · exact (h.ring hold).congr (hframe head' cells' hold hne)
  · intro head₁ cells₁ head₂ cells₂ h₁ h₂ hne
    rcases hdiff head₁ cells₁ h₁ with ⟨rfl, rfl⟩ | ⟨hne₁, hold₁⟩
    · rcases hdiff head₂ cells₂ h₂ with ⟨rfl, _⟩ | ⟨hne₂, hold₂⟩
      · exact absurd rfl hne
      · exact fun c hc => hcells c hc head₂ cells₂ hold₂ hne₂
    · rcases hdiff head₂ cells₂ h₂ with ⟨rfl, rfl⟩ | ⟨_, hold₂⟩
      · exact fun c hc hc' => hcells c hc' head₁ cells₁ hold₁ hne₁ hc
      · exact h.apart hold₁ hold₂ hne

theorem insert (h : Rings m R) (hring : R head (pre ++ post)) (hl : head :: pre = l ++ [a])
    (hr : post ++ [head] = b :: r) (hnew : Unused R new) (hdiff : Differs R R' head (pre ++ new :: post)) :
    Rings (m.insert new a b) R' := by
  obtain ⟨ha, hb⟩ := IsRing.sides hl hr
  refine h.update hdiff ((h.ring hring).insert hl hr (hnew head _ hring)) ?_ ?_
  · intro c hc head' cells' hold hne
    have hcase : c = new ∨ c ∈ head :: (pre ++ post) := by
      simp only [List.mem_cons, List.mem_append] at hc ⊢
      tauto
    rcases hcase with rfl | hcell
    · exact hnew head' cells' hold
    · exact h.apart hring hold (Ne.symm hne) hcell
  · intro head' cells' hold hne c hc
    have hapart : ∀ x ∈ head :: (pre ++ post), c ≠ x := by
      rintro x hx rfl
      exact h.apart hring hold (Ne.symm hne) hx hc
    have hcnew : c ≠ new := by
      rintro rfl
      exact hnew head' cells' hold hc
    exact ⟨by rw [next_insert, if_neg (hapart a ha), if_neg hcnew],
      by rw [prev_insert, if_neg hcnew, if_neg (hapart b hb)]⟩

/-- A new entry behind the head. -/
theorem addFirst (h : Rings m R) (hring : R head cells) (hnew : Unused R new)
    (hdiff : Differs R R' head (new :: cells)) : Rings (m.insert new head (m.next head)) R' := by
  obtain ⟨b, r, hr⟩ := IsRing.exists_first head cells
  rw [(h.ring hring).next_head, ← IsRing.first_eq hr]
  have hfront : R head ([] ++ cells) := hring
  exact h.insert (l := []) hfront rfl hr hnew hdiff

/-- A new entry before the head. -/
theorem addLast (h : Rings m R) (hring : R head cells) (hnew : Unused R new)
    (hdiff : Differs R R' head (cells ++ [new])) : Rings (m.insert new (m.prev head) head) R' := by
  obtain ⟨l, a, hl⟩ := IsRing.exists_last head cells
  rw [(h.ring hring).prev_head hl]
  have hback : R head (cells ++ []) := by rwa [List.append_nil]
  exact h.insert (r := []) hback hl rfl hnew hdiff

theorem remove (h : Rings m R) (hring : R head (pre ++ e :: post))
    (hdiff : Differs R R' head (pre ++ post)) : Rings (m.join (m.prev e) (m.next e)) R' := by
  obtain ⟨l, a, hl⟩ := IsRing.exists_last head pre
  obtain ⟨b, r, hr⟩ := IsRing.exists_first head post
  obtain ⟨ha, hb⟩ := IsRing.sides hl hr
  have hold := h.ring hring
  rw [hold.prev_cell hl, hold.next_cell, ← IsRing.first_eq hr]
  have hsub : ∀ c ∈ head :: (pre ++ post), c ∈ head :: (pre ++ e :: post) := by
    intro c hc
    simp only [List.mem_cons, List.mem_append] at hc ⊢
    tauto
  refine h.update hdiff (hold.remove hl hr) ?_ ?_
  · exact fun c hc head' cells' h' hne => h.apart hring h' (Ne.symm hne) (hsub c hc)
  · intro head' cells' h' hne c hc
    have hapart : ∀ x ∈ head :: (pre ++ post), c ≠ x := by
      rintro x hx rfl
      exact h.apart hring h' (Ne.symm hne) (hsub c hx) hc
    exact ⟨by rw [next_join, if_neg (hapart a ha)], by rw [prev_join, if_neg (hapart b hb)]⟩

/-- A new ring without entries. -/
theorem init (h : Rings m R) (hnew : Unused R head) (hdiff : Differs R R' head []) :
    Rings (m.init head) R' := by
  refine h.update hdiff (IsRing.init head m) ?_ ?_
  · intro c hc head' cells' hold _
    rw [List.mem_singleton.mp hc]
    exact hnew head' cells' hold
  · intro head' cells' hold _ c hc
    have hne : c ≠ head := by
      rintro rfl
      exact hnew head' cells' hold hc
    exact ⟨Function.update_of_ne hne .., Function.update_of_ne hne ..⟩

omit [DecidableEq α] in
theorem mono (h : Rings m R) (hsub : ∀ head cells, R' head cells → R head cells) : Rings m R' :=
  ⟨fun h' => h.ring (hsub _ _ h'), fun h₁ h₂ hne => h.apart (hsub _ _ h₁) (hsub _ _ h₂) hne⟩

omit [DecidableEq α] in
/-- Writes to cells of no ring. -/
theorem frame (h : Rings m R) (m' : Links α) (hsame : ∀ c, ¬Unused R c → m'.next c = m.next c ∧ m'.prev c = m.prev c) :
    Rings m' R := by
  refine ⟨fun hring => (h.ring hring).congr fun c hc => hsame c fun hunused => ?_, h.apart⟩
  exact hunused _ _ hring hc

end Rings

end Links
