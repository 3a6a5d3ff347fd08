import Mathlib.Data.List.Nodup

/-!
# Dictionaries that remember the order of insertion

Keys with values, in the order in which the keys were first put in. Assigning to a key that is there
replaces its value where it stands; assigning to a new one puts it at the end.
-/

universe u v

/-- No key is listed twice. -/
structure Dict (κ : Type u) (ν : Type v) where
  items : List (κ × ν)
  nodup : (items.map Prod.fst).Nodup
  deriving DecidableEq

namespace Dict

variable {κ : Type u} {ν : Type v} {d : Dict κ ν} {k j : κ} {x : ν}

def empty : Dict κ ν := ⟨[], List.nodup_nil⟩

def keys (d : Dict κ ν) : List κ := d.items.map Prod.fst

theorem nodup_keys (d : Dict κ ν) : d.keys.Nodup := d.nodup

/-- The same keys with other values. -/
def mapValues {ν' : Type*} (f : ν → ν') (d : Dict κ ν) : Dict κ ν' where
  items := d.items.map fun item => (item.1, f item.2)
  nodup := by
    rw [List.map_map]
    exact d.nodup

theorem keys_mapValues {ν' : Type*} {f : ν → ν'} : (d.mapValues f).keys = d.keys := by
  rw [keys, mapValues, List.map_map]
  rfl

variable [DecidableEq κ]

def lookup (k : κ) : List (κ × ν) → Option ν
  | [] => none
  | (k', x) :: items => if k' = k then some x else lookup k items

def get? (d : Dict κ ν) (k : κ) : Option ν := lookup k d.items

def assign (k : κ) (x : ν) : List (κ × ν) → List (κ × ν)
  | [] => [(k, x)]
  | (k', y) :: items => if k' = k then (k, x) :: items else (k', y) :: assign k x items

theorem map_fst_assign (k : κ) (x : ν) (items : List (κ × ν)) :
    (assign k x items).map Prod.fst =
      if k ∈ items.map Prod.fst then items.map Prod.fst else items.map Prod.fst ++ [k] := by
  induction items with
  | nil => rfl
  | cons item items ih =>
      obtain ⟨k', y⟩ := item
      rw [assign]
      by_cases heq : k' = k
      · subst heq
        simp
      · rw [if_neg heq, List.map_cons, ih]
        simp only [List.map_cons, List.mem_cons, Ne.symm heq, false_or]
        split
        · rfl
        · rfl

/-- The dictionary after `d[k] = x`. -/
def set (d : Dict κ ν) (k : κ) (x : ν) : Dict κ ν where
  items := assign k x d.items
  nodup := by
    rw [map_fst_assign]
    split
    · exact d.nodup
    · rename_i hnew
      exact List.concat_eq_append ▸ d.nodup.concat hnew

theorem lookup_assign (k : κ) (x : ν) (items : List (κ × ν)) (j : κ) :
    lookup j (assign k x items) = if k = j then some x else lookup j items := by
  induction items with
  | nil => rfl
  | cons item items ih =>
      obtain ⟨k', y⟩ := item
      rw [assign]
      by_cases heq : k' = k
      · subst heq
        rw [if_pos rfl, lookup, lookup]
        split
        · rfl
        · rfl
      · rw [if_neg heq, lookup, lookup, ih]
        by_cases hj : k' = j
        · subst hj
          rw [if_pos rfl, if_pos rfl, if_neg (Ne.symm heq)]
        · rw [if_neg hj, if_neg hj]

@[simp]
theorem get?_empty : (empty : Dict κ ν).get? k = none := rfl

theorem get?_set : (d.set k x).get? j = if k = j then some x else d.get? j :=
  lookup_assign k x d.items j

theorem keys_set : (d.set k x).keys = if k ∈ d.keys then d.keys else d.keys ++ [k] :=
  map_fst_assign k x d.items

theorem items_set_of_notMem (h : k ∉ d.keys) : (d.set k x).items = d.items ++ [(k, x)] := by
  have hassign : ∀ items : List (κ × ν), k ∉ items.map Prod.fst →
      assign k x items = items ++ [(k, x)] := by
    intro items hitems
    induction items with
    | nil => rfl
    | cons item items ih =>
        obtain ⟨k', y⟩ := item
        rw [List.map_cons, List.mem_cons, not_or] at hitems
        rw [assign, if_neg (Ne.symm hitems.1), ih hitems.2, List.cons_append]
  exact hassign d.items h

theorem lookup_eq_some_iff {items : List (κ × ν)} (hnodup : (items.map Prod.fst).Nodup) :
    lookup k items = some x ↔ (k, x) ∈ items := by
  induction items with
  | nil => simp [lookup]
  | cons item items ih =>
      obtain ⟨k', y⟩ := item
      rw [List.map_cons, List.nodup_cons] at hnodup
      rw [lookup, List.mem_cons, Prod.mk.injEq]
      by_cases heq : k' = k
      · subst heq
        have hnot : (k', x) ∉ items := fun hmem => hnodup.1 (List.mem_map.mpr ⟨_, hmem, rfl⟩)
        simp [hnot, eq_comm]
      · rw [if_neg heq, ih hnodup.2]
        simp [Ne.symm heq]

theorem get?_eq_some_iff : d.get? k = some x ↔ (k, x) ∈ d.items := lookup_eq_some_iff d.nodup

theorem isSome_get?_iff : (d.get? k).isSome ↔ k ∈ d.keys := by
  rw [Option.isSome_iff_exists, keys, List.mem_map]
  constructor
  · rintro ⟨x, hx⟩
    exact ⟨(k, x), get?_eq_some_iff.mp hx, rfl⟩
  · rintro ⟨⟨k', x⟩, hmem, rfl⟩
    exact ⟨x, get?_eq_some_iff.mpr hmem⟩

/-- A key that is there keeps its place. -/
theorem items_set_of_mem (h : k ∈ d.keys) :
    (d.set k x).items = d.items.map fun item => if item.1 = k then (k, x) else item := by
  have hassign : ∀ items : List (κ × ν), (items.map Prod.fst).Nodup → k ∈ items.map Prod.fst →
      assign k x items = items.map fun item => if item.1 = k then (k, x) else item := by
    intro items hnodup hmem
    induction items with
    | nil => exact absurd hmem List.not_mem_nil
    | cons item items ih =>
        obtain ⟨k', y⟩ := item
        rw [List.map_cons, List.nodup_cons] at hnodup
        rw [assign, List.map_cons]
        by_cases heq : k' = k
        · subst heq
          rw [if_pos rfl, if_pos rfl]
          congr 1
          refine (List.map_congr_left fun item hitem => if_neg fun heq => ?_).trans (List.map_id items) |>.symm
          exact hnodup.1 (List.mem_map.mpr ⟨item, hitem, heq⟩)
        · rw [if_neg heq, if_neg heq, ih hnodup.2 ((List.mem_cons.mp hmem).resolve_left (Ne.symm heq))]
  exact hassign d.items d.nodup h

/-- Replacing a value by one that looks the same changes nothing that is seen. -/
theorem map_items_set {β : Type*} {f : κ × ν → β} {y : ν} (hget : d.get? k = some y) (hf : f (k, x) = f (k, y)) :
    (d.set k x).items.map f = d.items.map f := by
  have hmem : (k, y) ∈ d.items := get?_eq_some_iff.mp hget
  rw [items_set_of_mem (List.mem_map.mpr ⟨_, hmem, rfl⟩), List.map_map]
  refine List.map_congr_left fun item hitem => ?_
  rw [Function.comp_apply]
  split
  · rename_i heq
    have hsame : item = (k, y) := List.inj_on_of_nodup_map d.nodup hitem hmem heq
    rw [hsame, hf]
  · rfl

theorem get?_eq_none_iff : d.get? k = none ↔ k ∉ d.keys := by
  rw [← isSome_get?_iff, Bool.not_eq_true, Option.isSome_eq_false_iff, Option.isNone_iff_eq_none]

/-- Assigning to a key leaves the properties of the keys alone that the new one has. -/
theorem forall_mem_keys_set {P : κ → Prop} (h : ∀ j ∈ d.keys, P j) (hk : P k) : ∀ j ∈ (d.set k x).keys, P j := by
  rw [keys_set]
  split
  · exact h
  · intro j hj
    rcases List.mem_append.mp hj with hj | hj
    · exact h j hj
    · rwa [List.mem_singleton.mp hj]

theorem get?_mapValues {ν' : Type*} {f : ν → ν'} : (d.mapValues f).get? k = (d.get? k).map f := by
  have hlookup : ∀ items : List (κ × ν), lookup k (items.map fun item => (item.1, f item.2)) =
      (lookup k items).map f := by
    intro items
    induction items with
    | nil => rfl
    | cons item items ih =>
        rw [List.map_cons, lookup, lookup, ih]
        split
        · rfl
        · rfl
  exact hlookup d.items

/-! ### Many assignments -/

variable {α : Type*} {ε σ : Type*} {key : α → κ} {val : α → ν} {l : List α}

def setAll (key : α → κ) (val : α → ν) (l : List α) (d : Dict κ ν) : Dict κ ν :=
  l.foldl (fun d a => d.set (key a) (val a)) d

theorem get?_setAll_of_notMem (h : ∀ a ∈ l, key a ≠ k) : (setAll key val l d).get? k = d.get? k := by
  induction l generalizing d with
  | nil => rfl
  | cons a l ih =>
      rw [List.forall_mem_cons] at h
      have hrest := @ih (d.set (key a) (val a)) h.2
      rw [get?_set, if_neg h.1] at hrest
      exact hrest

/-- Keys that are assigned to once have the value assigned. -/
theorem get?_setAll_of_mem (hkey : ∀ a ∈ l, ∀ b ∈ l, key a = key b → a = b) {a : α} (ha : a ∈ l) :
    (setAll key val l d).get? (key a) = some (val a) := by
  induction l generalizing d with
  | nil => exact absurd ha List.not_mem_nil
  | cons b l ih =>
      by_cases hmem : a ∈ l
      · exact ih (fun x hx y hy => hkey x (List.mem_cons_of_mem b hx) y (List.mem_cons_of_mem b hy)) hmem
      · obtain rfl : a = b := (List.mem_cons.mp ha).resolve_right hmem
        have hother : ∀ x ∈ l, key x ≠ key a := by
          intro x hx heq
          exact hmem (hkey x (List.mem_cons_of_mem a hx) a List.mem_cons_self heq ▸ hx)
        have hrest := @get?_setAll_of_notMem _ _ (d.set (key a) (val a)) _ _ _ _ val _ hother
        rw [get?_set, if_pos rfl] at hrest
        exact hrest

theorem keys_setAll (h : (d.keys ++ l.map key).Nodup) : (setAll key val l d).keys = d.keys ++ l.map key := by
  induction l generalizing d with
  | nil => exact (List.append_nil d.keys).symm
  | cons a l ih =>
      have hnew : key a ∉ d.keys := fun hmem =>
        (List.nodup_append.mp h).2.2 (key a) hmem (key a) List.mem_cons_self rfl
      have hkeys : d.keys ++ (a :: l).map key = (d.set (key a) (val a)).keys ++ l.map key := by
        rw [keys_set, if_neg hnew, List.append_assoc]
        rfl
      rw [hkeys] at h ⊢
      exact ih h

/-- A loop that assigns once in each turn and leaves the rest of its state alone. -/
theorem foldlM_set {f : Dict κ ν × σ → α → Except ε (Dict κ ν × σ)} {s : σ}
    (h : ∀ a ∈ l, ∀ d, f (d, s) a = .ok (d.set (key a) (val a), s)) (d : Dict κ ν) :
    l.foldlM f (d, s) = .ok (setAll key val l d, s) := by
  induction l generalizing d with
  | nil => rfl
  | cons a l ih =>
      rw [List.forall_mem_cons] at h
      rw [List.foldlM_cons, h.1 d]
      exact ih h.2 (d.set (key a) (val a))

end Dict
