import Mathlib.Data.BitVec
import Mathlib.Data.List.Nodup
import Mathlib.Data.List.Range
import Mathlib.Data.List.Perm.Subperm
import Mathlib.Data.Finset.Card

/-!
# Bitmaps that hand out the lowest free index

A bitmap of `n` bits is a bit vector. The four operations are the kernel's: set a bit, clear a bit,
find the first zero bit (`n` if there is none) and count the set bits. `Tracks b l` says that the set
bits of `b` are exactly the indexes listed, without repetition, by `l`; it is what a bitmap and the
list it is kept in step with have in common, and every operation carries it along.
-/

namespace Bitmap

variable {n : Nat}

def setBit (i : Nat) (b : BitVec n) : BitVec n := b ||| BitVec.twoPow n i

def clearBit (i : Nat) (b : BitVec n) : BitVec n := b &&& ~~~BitVec.twoPow n i

/-- The first zero bit among the `k` bits from `i` on, and `i + k` if all of them are set. -/
def findZeroFrom (b : BitVec n) : Nat → Nat → Nat
  | 0, i => i
  | k + 1, i => if b.getLsbD i then findZeroFrom b k (i + 1) else i

def findFirstZeroBit (b : BitVec n) : Nat := findZeroFrom b n 0

def weight (b : BitVec n) : Nat := (List.range n).countP fun i => b.getLsbD i

@[simp]
theorem getLsbD_setBit (b : BitVec n) (i j : Nat) :
    (setBit i b).getLsbD j = (b.getLsbD j || (decide (i < n) && decide (i = j))) := by
  simp [setBit, BitVec.getLsbD_twoPow]

@[simp]
theorem getLsbD_clearBit (b : BitVec n) (i j : Nat) :
    (clearBit i b).getLsbD j = (b.getLsbD j && decide (i ≠ j)) := by
  by_cases hj : j < n
  · by_cases hij : i = j
    · subst hij
      simp [clearBit, hj]
    · simp [clearBit, hj, hij, Ne.symm hij]
  · have hzero : b.getLsbD j = false := BitVec.getLsbD_of_ge b j (by omega)
    simp [clearBit, hzero]

theorem clearBit_setBit {b : BitVec n} {i : Nat} (h : b.getLsbD i = false) :
    clearBit i (setBit i b) = b := by
  apply BitVec.eq_of_getLsbD_eq
  intro j _
  by_cases hij : i = j
  · subst hij
    simp [h]
  · simp [hij]

theorem findZeroFrom_spec (b : BitVec n) (k i : Nat) :
    i ≤ findZeroFrom b k i ∧ findZeroFrom b k i ≤ i + k ∧
      (∀ j, i ≤ j → j < findZeroFrom b k i → b.getLsbD j = true) ∧
      (findZeroFrom b k i < i + k → b.getLsbD (findZeroFrom b k i) = false) := by
  induction k generalizing i with
  | zero => exact ⟨le_rfl, le_rfl, fun j h1 h2 => absurd h2 (by simp [findZeroFrom]; omega),
      fun h => absurd h (by simp [findZeroFrom])⟩
  | succ k ih =>
      rw [findZeroFrom]
      split
      · rename_i hset
        obtain ⟨hle, hub, hbelow, hzero⟩ := ih (i + 1)
        refine ⟨by omega, by omega, ?_, fun h => hzero (by omega)⟩
        intro j hij hj
        rcases Nat.eq_or_lt_of_le hij with rfl | hlt
        · exact hset
        · exact hbelow j hlt hj
      · rename_i hclear
        exact ⟨le_rfl, by omega, fun j h1 h2 => absurd h2 (by omega), fun _ => by simpa using hclear⟩

theorem findFirstZeroBit_le (b : BitVec n) : findFirstZeroBit b ≤ n := by
  have h := (findZeroFrom_spec b n 0).2.1
  simpa [findFirstZeroBit] using h

theorem getLsbD_of_lt_findFirstZeroBit {b : BitVec n} {j : Nat} (h : j < findFirstZeroBit b) :
    b.getLsbD j = true :=
  (findZeroFrom_spec b n 0).2.2.1 j (Nat.zero_le j) h

theorem getLsbD_findFirstZeroBit (b : BitVec n) : b.getLsbD (findFirstZeroBit b) = false := by
  rcases Nat.lt_or_ge (findFirstZeroBit b) n with hlt | hge
  · exact (findZeroFrom_spec b n 0).2.2.2 (by simpa [findFirstZeroBit] using hlt)
  · exact BitVec.getLsbD_of_ge b _ hge

/-- The set bits of the bitmap are the indexes of the list, each listed once. -/
structure Tracks (b : BitVec n) (l : List Nat) : Prop where
  nodup : l.Nodup
  mem : ∀ i, b.getLsbD i = true ↔ i ∈ l

namespace Tracks

variable {b : BitVec n} {l l' : List Nat} {i : Nat}

theorem zero : Tracks (0 : BitVec n) [] :=
  ⟨List.nodup_nil, by simp⟩

theorem eq_zero (h : Tracks b []) : b = 0 := by
  apply BitVec.eq_of_getLsbD_eq
  intro i _
  have hclear : ¬b.getLsbD i = true := by
    rw [h.mem i]
    exact List.not_mem_nil
  simpa using hclear

theorem perm (h : Tracks b l) (hperm : l.Perm l') : Tracks b l' :=
  ⟨hperm.nodup_iff.mp h.nodup, fun i => (h.mem i).trans hperm.mem_iff⟩

theorem lt (h : Tracks b l) (hi : i ∈ l) : i < n :=
  BitVec.lt_of_getLsbD ((h.mem i).mpr hi)

theorem notMem_findFirstZeroBit (h : Tracks b l) : findFirstZeroBit b ∉ l := by
  intro hmem
  have hset := (h.mem _).mpr hmem
  rw [getLsbD_findFirstZeroBit] at hset
  exact Bool.false_ne_true hset

/-- Taking a free index puts it in the list. -/
theorem cons (h : Tracks b l) (hi : i < n) (hfree : i ∉ l) : Tracks (setBit i b) (i :: l) := by
  refine ⟨List.nodup_cons.mpr ⟨hfree, h.nodup⟩, fun j => ?_⟩
  rw [getLsbD_setBit, Bool.or_eq_true, h.mem j, List.mem_cons]
  simp only [hi, decide_true, Bool.true_and, decide_eq_true_eq]
  exact or_comm.trans (or_congr_left eq_comm)

theorem concat (h : Tracks b l) (hi : i < n) (hfree : i ∉ l) : Tracks (setBit i b) (l ++ [i]) :=
  (h.cons hi hfree).perm (List.perm_append_singleton i l).symm

/-- Releasing an index takes it out of the list. -/
theorem filter_ne (h : Tracks b l) (i : Nat) :
    Tracks (clearBit i b) (l.filter fun j => decide (j ≠ i)) := by
  refine ⟨h.nodup.filter _, fun j => ?_⟩
  rw [getLsbD_clearBit, Bool.and_eq_true, h.mem j, List.mem_filter]
  simp only [decide_eq_true_eq]
  exact and_congr_right fun _ => ne_comm

theorem toFinset_subset (h : Tracks b l) : l.toFinset ⊆ Finset.range n := fun _ hi =>
  Finset.mem_range.mpr (h.lt (List.mem_toFinset.mp hi))

theorem length_le (h : Tracks b l) : l.length ≤ n := by
  have hcard := Finset.card_le_card h.toFinset_subset
  rwa [List.toFinset_card_of_nodup h.nodup, Finset.card_range] at hcard

/-- The bitmap counts the list. -/
theorem weight_eq (h : Tracks b l) : weight b = l.length := by
  have hperm : ((List.range n).filter fun i => b.getLsbD i).Perm l := by
    refine (List.perm_ext_iff_of_nodup (List.nodup_range.filter _) h.nodup).mpr fun i => ?_
    rw [List.mem_filter, List.mem_range, h.mem i]
    exact ⟨fun hi => hi.2, fun hi => ⟨h.lt hi, hi⟩⟩
  rw [weight, List.countP_eq_length_filter, hperm.length_eq]

/-- After indexes 0 to `m - 1` the next one handed out is `m`. -/
theorem findFirstZeroBit_eq_of_perm_range {m : Nat} (h : Tracks b l) (hperm : l.Perm (List.range m)) :
    findFirstZeroBit b = m := by
  have hfree := h.notMem_findFirstZeroBit
  rw [hperm.mem_iff, List.mem_range] at hfree
  by_contra hne
  have hset : b.getLsbD m = true := getLsbD_of_lt_findFirstZeroBit (by omega)
  rw [h.mem m, hperm.mem_iff, List.mem_range] at hset
  omega

/-- No index is free exactly when the list holds all `n` of them. -/
theorem findFirstZeroBit_eq_iff (h : Tracks b l) : findFirstZeroBit b = n ↔ l.length = n := by
  constructor
  · intro hfull
    have hsub : Finset.range n ⊆ l.toFinset := fun i hi =>
      List.mem_toFinset.mpr ((h.mem i).mp
        (getLsbD_of_lt_findFirstZeroBit (by rw [hfull]; exact Finset.mem_range.mp hi)))
    have hcard := Finset.card_le_card hsub
    rw [List.toFinset_card_of_nodup h.nodup, Finset.card_range] at hcard
    exact Nat.le_antisymm h.length_le hcard
  · intro hlen
    by_contra hne
    have hlt : findFirstZeroBit b < n := lt_of_le_of_ne (findFirstZeroBit_le b) hne
    have hle := (h.cons hlt h.notMem_findFirstZeroBit).length_le
    simp only [List.length_cons] at hle
    omega

end Tracks

end Bitmap
