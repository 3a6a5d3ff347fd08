import Hwemu.Pair
import Hwemu.Lib.Except

/-!
# The time printer is undone by the time scanner

The printer leaves zero fields out, the scanner walks the unit table with the row pointer going one
way only. Both are described by the same list: the unit table with, at each row, the number written
there if there is one. `scanUnits_read` reads such a list back by induction along the table, and
`scanUnits_stop` finds one in front of the place where a scan stopped. The four rows of a period in
milliseconds are one such list.
-/

namespace Hwemu

/-! ### Items along the unit table -/

/-- The text of the numbers present at the rows of a table. -/
def itemsText : List (Pattern × Option Nat) → List UInt8
  | [] => []
  | (_, none) :: items => itemsText items
  | (p, some v) :: items => decimal v ++ (p.unit ++ itemsText items)

/-- The time the numbers stand for. -/
def itemsTime : List (Pattern × Option Nat) → Nat
  | [] => 0
  | (p, v) :: items => v.getD 0 * p.mult + itemsTime items

/-- The unit search cannot take a later unit `q` for the unit `p`. -/
def Distinguished (p q : Pattern) : Prop :=
  ∀ (c : UInt8) (rest : List UInt8), isAlpha c = false →
    unitAt p.unit (q.unit ++ c :: rest) = .ok false

theorem pattern_distinguished : pattern.Pairwise Distinguished := by
  have hm (c : UInt8) (rest : List UInt8) : unitAt (bytes "m") (bytes "ms" ++ c :: rest) = .ok false :=
    rfl
  simp only [pattern, List.pairwise_cons, List.mem_cons, List.not_mem_nil, or_false]
  refine ⟨?_, ?_, ?_, by simp⟩
  · rintro q (rfl | rfl | rfl) c rest _ <;> rfl
  · rintro q (rfl | rfl) c rest _
    · rfl
    · exact hm c rest
  · rintro q rfl c rest _
    rfl

/-- A row whose number can be told from its unit, and whose number fits its limit. -/
structure FitsRow (p : Pattern) (v : Option Nat) : Prop where
  unit : ∃ a u, p.unit = a :: u ∧ isDigit a = false
  le : ∀ n ∈ v, n ≤ p.max
  max : p.max ≤ intMax

theorem unitAt_self (unit : List UInt8) (c : UInt8) (rest : List UInt8) :
    unitAt unit (unit ++ c :: rest) = .ok (!isAlpha c) := by
  simp [unitAt, hasPrefix_append, deref, bind, Except.bind, pure, Except.pure]

theorem not_isAlpha_of_isDigit {c : UInt8} (h : isDigit c = true) : isAlpha c = false :=
  forall_byte (P := fun c => isDigit c = true → isAlpha c = false) (by decide +kernel) c h

theorem not_isSep_of_isDigit {c : UInt8} (h : isDigit c = true) : isSep c = false :=
  forall_byte (P := fun c => isDigit c = true → isSep c = false) (by decide +kernel) c h

/-- The text of the numbers at the rows of a table, as they are written. -/
def writtenText : List (Pattern × Option (List UInt8)) → List UInt8
  | [] => []
  | (_, none) :: items => writtenText items
  | (p, some digits) :: items => digits ++ (p.unit ++ writtenText items)

/-- The numbers that are written at the rows. -/
def writtenItems (items : List (Pattern × Option (List UInt8))) : List (Pattern × Option Nat) :=
  items.map fun x => (x.1, x.2.map digitsValue)

/-- The numbers that `simple_strtoull` makes of what is written at the rows. -/
def readItems (items : List (Pattern × Option (List UInt8))) : List (Pattern × Option Nat) :=
  items.map fun x => (x.1, x.2.map strtoullValue)

def IsNumber (v : Option (List UInt8)) : Prop :=
  ∀ digits ∈ v, digits ≠ [] ∧ ∀ c ∈ digits, isDigit c = true

/-- A row with a number in digits that is read as one that fits the limit. -/
structure ReadRow (p : Pattern) (v : Option (List UInt8)) : Prop where
  ne_nil : ∀ text ∈ v, text ≠ []
  digits : ∀ text ∈ v, ∀ c ∈ text, isDigit c = true
  fits : FitsRow p (v.map strtoullValue)

/-- A row with a number that is written in digits and fits its limit. -/
structure WrittenRow (p : Pattern) (v : Option (List UInt8)) : Prop where
  ne_nil : ∀ text ∈ v, text ≠ []
  digits : ∀ text ∈ v, ∀ c ∈ text, isDigit c = true
  fits : FitsRow p (v.map digitsValue)

theorem WrittenRow.read {p : Pattern} {v : Option (List UInt8)} (h : WrittenRow p v) :
    ReadRow p v ∧ v.map strtoullValue = v.map digitsValue := by
  have hval : v.map strtoullValue = v.map digitsValue := by
    refine Option.map_congr fun text htext => strtoullValue_of_lt ?_
    have hle := h.fits.le _ (Option.mem_map_of_mem digitsValue htext)
    have hmax := h.fits.max
    unfold intMax at hmax
    omega
  exact ⟨⟨h.ne_nil, h.digits, hval ▸ h.fits⟩, hval⟩

theorem ReadRow.isNumber {p : Pattern} {v : Option (List UInt8)} (h : ReadRow p v) : IsNumber v :=
  fun text htext => ⟨h.ne_nil text htext, h.digits text htext⟩

theorem isSep_spec {c : UInt8} (h : isSep c = true) : isDigit c = false ∧ isAlpha c = false :=
  forall_byte (P := fun c => isSep c = true → isDigit c = false ∧ isAlpha c = false) (by decide +kernel) c h

section

variable {items : List (Pattern × Option (List UInt8))} {sep : UInt8}

/-- What stands after an item: the next number if one is left, the separator otherwise. -/
theorem writtenText_head (rest : List UInt8) (hrows : ∀ x ∈ items, IsNumber x.2) :
    ((∀ x ∈ items, x.2 = none) ∧ writtenText items = []) ∨
      ((∃ x ∈ items, x.2 ≠ none) ∧
        ∃ c t, writtenText items ++ sep :: rest = c :: t ∧ isDigit c = true) := by
  induction items with
  | nil => exact Or.inl ⟨by simp, rfl⟩
  | cons x items ih =>
      rw [List.forall_mem_cons] at hrows
      obtain ⟨p, _ | digits⟩ := x
      · rcases ih hrows.2 with ⟨hnone, htext⟩ | ⟨⟨y, hy, hsome⟩, hhead⟩
        · exact Or.inl ⟨by simpa using hnone, htext⟩
        · exact Or.inr ⟨⟨y, List.mem_cons_of_mem _ hy, hsome⟩, hhead⟩
      · obtain ⟨c, t, rfl⟩ := List.exists_cons_of_ne_nil (hrows.1 digits rfl).1
        refine Or.inr ⟨⟨(p, some (c :: t)), List.mem_cons_self, by simp⟩, c,
          t ++ (p.unit ++ writtenText items) ++ sep :: rest, ?_, ?_⟩
        · simp [writtenText]
        · exact (hrows.1 _ rfl).2 c List.mem_cons_self

omit items in
theorem itemsTime_eq_zero {items : List (Pattern × Option Nat)} (h : ∀ x ∈ items, x.2 = none) :
    itemsTime items = 0 := by
  induction items with
  | nil => rfl
  | cons x items ih =>
      obtain ⟨p, v⟩ := x
      obtain rfl : v = none := h (p, v) List.mem_cons_self
      simpa [itemsTime] using ih fun y hy => h y (List.mem_cons_of_mem _ hy)

theorem readItems_none (h : ∀ x ∈ items, x.2 = none) : ∀ x ∈ readItems items, x.2 = none := by
  intro x hx
  obtain ⟨y, hy, rfl⟩ := List.mem_map.mp hx
  exact Option.map_eq_none_iff.mpr (h y hy)

/-- **Scanning what was written.** From the row of the first item on, the scanner reads every number
with its own unit, adds the times up and stops at the separator. -/
theorem scanUnits_read (hsep : isSep sep = true) (str rest : List UInt8) (ret : Nat)
    (hpattern : (items.map Prod.fst).Pairwise Distinguished) (hrows : ∀ x ∈ items, ReadRow x.1 x.2)
    (hsome : ∃ x ∈ items, x.2 ≠ none) (hret : ret + itemsTime (readItems items) ≤ uintMax) :
    ∃ v ep, simpleStrtoull (writtenText items ++ sep :: rest) = .ok (v, ep) ∧
      (∃ q ∈ items.map Prod.fst, ∃ c t, ep = q.unit ++ c :: t ∧ isAlpha c = false) ∧
      ep.length < (writtenText items ++ sep :: rest).length ∧
      scanUnits str (items.map Prod.fst) (writtenText items ++ sep :: rest) v ep ret =
        .ok ⟨ret + itemsTime (readItems items), sep :: rest, sep :: rest⟩ := by
  induction items generalizing ret with
  | nil => simp at hsome
  | cons x items ih =>
      obtain ⟨hfirst, hpattern'⟩ := List.pairwise_cons.mp hpattern
      obtain ⟨hrow, hrows'⟩ := List.forall_mem_cons.mp hrows
      obtain ⟨p, _ | digits⟩ := x
      · -- no number at this row: the unit that follows the next number is a later one
        have hsome' : ∃ y ∈ items, y.2 ≠ none := by simpa using hsome
        have htime : itemsTime (readItems ((p, none) :: items)) = itemsTime (readItems items) := by
          simp [readItems, itemsTime]
        rw [htime] at hret ⊢
        obtain ⟨v, ep, hnum, ⟨q, hq, c, t, hep, hc⟩, hlen, hscan⟩ := ih ret hpattern' hrows' hsome' hret
        refine ⟨v, ep, hnum, ⟨q, List.mem_cons_of_mem p hq, c, t, hep, hc⟩, hlen, ?_⟩
        have hskip : unitAt p.unit ep = .ok false := hep ▸ hfirst q hq c t hc
        simpa [scanUnits, hskip, writtenText, bind, Except.bind] using hscan
      · obtain ⟨⟨a, u, hunit, ha⟩, hle, hmax⟩ := hrow.fits
        have hne := hrow.ne_nil digits rfl
        have hn : strtoullValue digits ≤ p.max := hle _ rfl
        have htime : itemsTime (readItems ((p, some digits) :: items)) =
            strtoullValue digits * p.mult + itemsTime (readItems items) := rfl
        have hsum : (ret + strtoullValue digits * p.mult) % 2 ^ 64 = ret + strtoullValue digits * p.mult := by
          rw [htime] at hret
          unfold uintMax at hret
          exact Nat.mod_eq_of_lt (by omega)
        have hover : ¬uintMax < ret + strtoullValue digits * p.mult := by omega
        have htext : writtenText ((p, some digits) :: items) ++ sep :: rest =
            digits ++ (p.unit ++ (writtenText items ++ sep :: rest)) := by simp [writtenText]
        have hnum : simpleStrtoull (digits ++ (p.unit ++ (writtenText items ++ sep :: rest))) =
            .ok (strtoullValue digits, p.unit ++ (writtenText items ++ sep :: rest)) := by
          rw [hunit, List.cons_append]
          exact simpleStrtoull_digits (hrow.digits digits rfl) ha _
        have hshort : (p.unit ++ (writtenText items ++ sep :: rest)).length <
            (digits ++ (p.unit ++ (writtenText items ++ sep :: rest))).length := by
          have hpos := List.length_pos_of_ne_nil hne
          rw [@List.length_append _ digits]
          omega
        have hnumbers : ∀ x ∈ items, IsNumber x.2 := fun x hx => (hrows' x hx).isNumber
        rw [htext, htime]
        refine ⟨_, _, hnum, ⟨p, List.mem_cons_self, ?_⟩, hshort, ?_⟩
        · rcases @writtenText_head items sep rest hnumbers with ⟨_, htail⟩ | ⟨_, c, t, htail, hc⟩
          · exact ⟨sep, rest, by rw [htail, List.nil_append], (isSep_spec hsep).2⟩
          · exact ⟨c, t, by rw [htail], not_isAlpha_of_isDigit hc⟩
        · rcases @writtenText_head items sep rest hnumbers with ⟨hnone, htail⟩ | ⟨hmore, c, t, htail, hc⟩
          · -- the last item: the separator ends the loop
            have hzero := itemsTime_eq_zero (readItems_none hnone)
            simp only [htail, List.nil_append, List.map_cons, scanUnits, unitAt_self, (isSep_spec hsep).2,
              bind, Except.bind, pure, Except.pure, hsum, hover, Nat.not_lt.mpr hn, if_false, List.drop_left,
              deref, hsep, Bool.or_true, if_true, hzero, Nat.add_zero]
            rfl
          · -- another number follows
            obtain ⟨v, ep, hnext, _, hlen, hscan⟩ := ih (ret + strtoullValue digits * p.mult) hpattern' hrows'
              hmore (by omega)
            have hne : ¬ep = writtenText items ++ sep :: rest := fun heq =>
              absurd hlen (by rw [heq]; exact lt_irrefl _)
            have hempty : (items.map Prod.fst).isEmpty = false := by
              obtain ⟨y, hy, _⟩ := hmore
              cases items with
              | nil => simp at hy
              | cons => rfl
            have hunitAt : unitAt p.unit (p.unit ++ (writtenText items ++ sep :: rest)) = .ok true := by
              rw [htail, unitAt_self, not_isAlpha_of_isDigit hc]
              rfl
            have hderef : deref (writtenText items ++ sep :: rest) = .ok c := by rw [htail]; rfl
            simp only [List.map_cons, scanUnits, hunitAt, bind, Except.bind, pure, Except.pure, hsum,
              hover, Nat.not_lt.mpr hn, if_false, List.drop_left, hderef, not_isSep_of_isDigit hc,
              hempty, Bool.or_false, hnext, hne, Bool.not_true, Bool.false_eq_true]
            rw [← Nat.add_assoc]
            exact hscan

/-- Numbers along the whole table, in whatever digits, are read as the time that they are read as. -/
theorem hweStrToTime_read (hpattern : items.map Prod.fst = pattern) (hrows : ∀ x ∈ items, ReadRow x.1 x.2)
    (hpos : itemsTime (readItems items) ≠ 0) (ht : itemsTime (readItems items) ≤ uintMax)
    (hsep : isSep sep = true) (rest : List UInt8) :
    hweStrToTime (writtenText items ++ sep :: rest) = .ok (itemsTime (readItems items), sep :: rest) := by
  have hsome : ∃ x ∈ items, x.2 ≠ none := by
    by_contra hnone
    push Not at hnone
    exact hpos (itemsTime_eq_zero (readItems_none hnone))
  obtain ⟨v, ep, hnum, _, hlen, hscan⟩ := scanUnits_read hsep (writtenText items ++ sep :: rest) rest 0
    (hpattern ▸ pattern_distinguished) hrows hsome (by rwa [Nat.zero_add])
  have hne : ¬ep = writtenText items ++ sep :: rest := fun heq =>
    absurd hlen (by rw [heq]; exact lt_irrefl _)
  rw [hpattern, Nat.zero_add] at hscan
  simp only [hweStrToTime, hnum, bind, Except.bind, pure, Except.pure, hne, if_false, hscan, deref,
    hsep, if_true]

/-- Numbers that fit their limits are read as the time they stand for. -/
theorem hweStrToTime_written (hpattern : items.map Prod.fst = pattern) (hrows : ∀ x ∈ items, WrittenRow x.1 x.2)
    (hpos : itemsTime (writtenItems items) ≠ 0) (ht : itemsTime (writtenItems items) ≤ uintMax)
    (hsep : isSep sep = true) (rest : List UInt8) :
    hweStrToTime (writtenText items ++ sep :: rest) = .ok (itemsTime (writtenItems items), sep :: rest) := by
  have hitems : readItems items = writtenItems items :=
    List.map_congr_left fun x hx => congrArg (Prod.mk x.1) (hrows x hx).read.2
  rw [← hitems] at hpos ht ⊢
  exact hweStrToTime_read hpattern (fun x hx => (hrows x hx).read.1) hpos ht hsep rest

end

/-- Numbers as they are printed. -/
def printedItems (items : List (Pattern × Option Nat)) : List (Pattern × Option (List UInt8)) :=
  items.map fun x => (x.1, x.2.map decimal)

theorem writtenText_printedItems (items : List (Pattern × Option Nat)) :
    writtenText (printedItems items) = itemsText items := by
  induction items with
  | nil => rfl
  | cons x items ih =>
      obtain ⟨p, _ | v⟩ := x
      · exact ih
      · exact congrArg (fun text => decimal v ++ (p.unit ++ text)) ih

theorem writtenItems_printedItems (items : List (Pattern × Option Nat)) :
    writtenItems (printedItems items) = items := by
  rw [writtenItems, printedItems, List.map_map]
  refine (List.map_congr_left ?_).trans (List.map_id items)
  rintro ⟨p, _ | v⟩ _
  · rfl
  · exact congrArg (fun n => (p, some n)) (digitsValue_decimal v)

theorem WrittenRow.decimal {p : Pattern} {v : Option Nat} (h : FitsRow p v) :
    WrittenRow p (v.map decimal) := by
  constructor
  · intro text htext
    obtain ⟨n, _, rfl⟩ := Option.mem_map.mp htext
    exact decimal_ne_nil n
  · intro text htext c hc
    obtain ⟨n, _, rfl⟩ := Option.mem_map.mp htext
    exact isDigit_of_mem_decimal hc
  · cases v with
    | none => exact h
    | some n => simpa [digitsValue_decimal] using h

/-! ### The four fields of a period -/

/-- The unit table with the numbers `hwe_time_to_str` prints for `t` milliseconds. -/
def timeItems (t : Nat) : List (Pattern × Option Nat) :=
  let ms := t % 1000
  let t := t / 1000
  let h := t / 3600
  let m := (t - 3600 * h) / 60
  let s := t - 3600 * h - m * 60
  [(⟨bytes "h", intMax, 60 * 60 * 1000⟩, if h ≠ 0 then some h else none),
    (⟨bytes "m", 59, 60 * 1000⟩, if m ≠ 0 ∨ (h ≠ 0 ∧ (s ≠ 0 ∨ ms ≠ 0)) then some m else none),
    (⟨bytes "s", 59, 1 * 1000⟩, if s ≠ 0 ∨ ((h ≠ 0 ∨ m ≠ 0) ∧ ms ≠ 0) then some s else none),
    (⟨bytes "ms", 999, 1⟩, if ms ≠ 0 then some ms else none)]

theorem timeItems_rows (t : Nat) : (timeItems t).map Prod.fst = pattern := rfl

theorem getD_ite (c : Prop) [Decidable c] (n : Nat) (h : ¬c → n = 0) :
    (if c then some n else none).getD 0 = n := by
  by_cases hc : c
  · rw [if_pos hc]
    rfl
  · rw [if_neg hc, h hc]
    rfl

/-- The printed numbers add up to the period. -/
theorem itemsTime_timeItems (t : Nat) : itemsTime (timeItems t) = t := by
  simp only [timeItems, itemsTime]
  rw [getD_ite _ _ (by omega), getD_ite _ _ (by omega), getD_ite _ _ (by omega),
    getD_ite _ _ (by omega)]
  omega

theorem mem_ite_some {c : Prop} [Decidable c] {n k : Nat}
    (h : k ∈ (if c then some n else none)) : k = n := by
  by_cases hc : c
  · rw [if_pos hc] at h
    exact (Option.mem_some_iff.mp h).symm
  · rw [if_neg hc] at h
    simp at h

theorem timeItems_fit {t : Nat} (ht : t ≤ uintMax) : ∀ x ∈ timeItems t, FitsRow x.1 x.2 := by
  unfold uintMax at ht
  simp only [timeItems, List.forall_mem_cons, List.not_mem_nil, false_implies, implies_true, and_true]
  refine ⟨⟨⟨104, [], rfl, rfl⟩, ?_, le_rfl⟩, ⟨⟨109, [], rfl, rfl⟩, ?_, by decide⟩,
    ⟨⟨115, [], rfl, rfl⟩, ?_, by decide⟩, ⟨⟨109, [115], rfl, rfl⟩, ?_, by decide⟩⟩
  all_goals
    intro n hn
    obtain rfl := mem_ite_some hn
    dsimp only [intMax]
    omega

/-- A piece printed behind `out` stands there in full when the buffer has room for it. -/
theorem printed_eq {c : Prop} [Decidable c] {size : Nat} {out text : List UInt8}
    (h : out.length + text.length < size) :
    (if c then out ++ scnprintf (size - out.length) text else out) =
      out ++ (if c then text else []) := by
  by_cases hc : c
  · rw [if_pos hc, if_pos hc, scnprintf, List.take_of_length_le (by omega)]
  · rw [if_neg hc, if_neg hc, List.append_nil]

theorem itemsText_cons_ite (p : Pattern) (c : Prop) [Decidable c] (n : Nat)
    (items : List (Pattern × Option Nat)) :
    itemsText ((p, if c then some n else none) :: items) =
      (if c then decimal n ++ p.unit else []) ++ itemsText items := by
  by_cases hc : c
  · simp [if_pos hc, itemsText]
  · simp [if_neg hc, itemsText]

theorem length_ite_le (c : Prop) [Decidable c] (text : List UInt8) :
    (if c then text else []).length ≤ text.length := by
  by_cases hc : c
  · rw [if_pos hc]
  · rw [if_neg hc]
    exact Nat.zero_le _

/-- The printer's text is the text of its items: none of the four pieces is cut off. -/
theorem hweTimeToStr_eq {size t : Nat} (hsize : 32 ≤ size) (ht : t ≤ uintMax) :
    hweTimeToStr size t = itemsText (timeItems t) ∧ (hweTimeToStr size t).length ≤ 16 := by
  unfold uintMax at ht
  have hh : (decimal (t / 1000 / 3600)).length ≤ 4 := length_decimal_le (by decide) (by omega)
  have hm : (decimal ((t / 1000 - 3600 * (t / 1000 / 3600)) / 60)).length ≤ 2 :=
    length_decimal_le (by decide) (by omega)
  have hs : (decimal (t / 1000 - 3600 * (t / 1000 / 3600) -
      (t / 1000 - 3600 * (t / 1000 / 3600)) / 60 * 60)).length ≤ 2 :=
    length_decimal_le (by decide) (by omega)
  have hms : (decimal (t % 1000)).length ≤ 3 := length_decimal_le (by decide) (by omega)
  simp only [hweTimeToStr, timeItems, itemsText_cons_ite]
  generalize t / 1000 / 3600 = h at *
  generalize (t / 1000 - 3600 * h) / 60 = m at *
  generalize t / 1000 - 3600 * h - m * 60 = s at *
  generalize t % 1000 = ms at *
  have lh : (decimal h ++ bytes "h").length ≤ 5 := by
    rw [List.length_append]; exact Nat.add_le_add hh (le_refl 1)
  have lm : (decimal m ++ bytes "m").length ≤ 3 := by
    rw [List.length_append]; exact Nat.add_le_add hm (le_refl 1)
  have ls : (decimal s ++ bytes "s").length ≤ 3 := by
    rw [List.length_append]; exact Nat.add_le_add hs (le_refl 1)
  have lms : (decimal ms ++ bytes "ms").length ≤ 5 := by
    rw [List.length_append]; exact Nat.add_le_add hms (le_refl 2)
  -- each piece is printed behind the pieces before it, with their lengths known
  have first := @printed_eq (h ≠ 0) _ size [] (decimal h ++ bytes "h")
    (by simp only [List.length_nil]; omega)
  simp only [List.nil_append, List.length_nil, Nat.sub_zero] at first
  rw [first]
  have b1 := length_ite_le (h ≠ 0) (decimal h ++ bytes "h")
  generalize (if h ≠ 0 then decimal h ++ bytes "h" else []) = o1 at *
  rw [@printed_eq _ _ _ o1 (decimal m ++ bytes "m") (by omega)]
  have b2 := length_ite_le (m ≠ 0 ∨ (h ≠ 0 ∧ (s ≠ 0 ∨ ms ≠ 0))) (decimal m ++ bytes "m")
  generalize (if m ≠ 0 ∨ (h ≠ 0 ∧ (s ≠ 0 ∨ ms ≠ 0)) then decimal m ++ bytes "m" else []) = o2 at *
  have len2 : (o1 ++ o2).length ≤ 8 := by rw [List.length_append]; omega
  rw [@printed_eq _ _ _ _ (decimal s ++ bytes "s") (by omega)]
  have b3 := length_ite_le (s ≠ 0 ∨ ((h ≠ 0 ∨ m ≠ 0) ∧ ms ≠ 0)) (decimal s ++ bytes "s")
  generalize (if s ≠ 0 ∨ ((h ≠ 0 ∨ m ≠ 0) ∧ ms ≠ 0) then decimal s ++ bytes "s" else []) = o3 at *
  have len3 : (o1 ++ o2 ++ o3).length ≤ 11 := by rw [List.length_append]; omega
  rw [@printed_eq _ _ _ _ (decimal ms ++ bytes "ms") (by omega)]
  have b4 := length_ite_le (ms ≠ 0) (decimal ms ++ bytes "ms")
  generalize (if ms ≠ 0 then decimal ms ++ bytes "ms" else []) = o4 at *
  refine ⟨by simp [itemsText], ?_⟩
  rw [List.length_append]
  omega

/-- **The time round trip.** Every period in milliseconds is printed as a text that the scanner
reads back as the same period, stopping at the equals sign. -/
theorem hweStrToTime_hweTimeToStr {size t : Nat} (hsize : 32 ≤ size) (hpos : t ≠ 0)
    (ht : t ≤ uintMax) (rest : List UInt8) :
    hweStrToTime (hweTimeToStr size t ++ 61 :: rest) = .ok (t, 61 :: rest) := by
  have htime : itemsTime (writtenItems (printedItems (timeItems t))) = t := by
    rw [writtenItems_printedItems, itemsTime_timeItems]
  have hpattern : (printedItems (timeItems t)).map Prod.fst = pattern := by
    rw [printedItems, List.map_map]
    exact timeItems_rows t
  have hrows : ∀ x ∈ printedItems (timeItems t), WrittenRow x.1 x.2 := by
    intro x hx
    obtain ⟨y, hy, rfl⟩ := List.mem_map.mp hx
    exact .decimal (timeItems_fit ht y hy)
  have hread := hweStrToTime_written hpattern hrows (by rwa [htime]) (by rwa [htime]) (show isSep 61 = true by decide) rest
  rwa [writtenText_printedItems, htime, ← (hweTimeToStr_eq hsize ht).1] at hread

/-! ### What the scanner accepts -/

theorem hasPrefix_split {lit s : List UInt8} (h : hasPrefix lit s = .ok true) : ∃ t, s = lit ++ t := by
  induction lit generalizing s with
  | nil => exact ⟨s, rfl⟩
  | cons a lit ih =>
      cases s with
      | nil => simp [hasPrefix] at h
      | cons b s =>
          rw [hasPrefix] at h
          split at h
          · rename_i heq
            obtain ⟨t, rfl⟩ := ih h
            exact ⟨t, by rw [heq, List.cons_append]⟩
          · simp at h

theorem unitAt_split {unit ep : List UInt8} (h : unitAt unit ep = .ok true) :
    ep = unit ++ ep.drop unit.length := by
  unfold unitAt at h
  obtain ⟨found, hfound, h⟩ := Except.bind_eq_ok_iff.mp h
  cases found with
  | false => simp at h
  | true =>
      obtain ⟨t, rfl⟩ := hasPrefix_split hfound
      rw [List.drop_left]

/-- What the rows of the table have in common. -/
structure Pattern.Ok (p : Pattern) : Prop where
  unit : ∃ a u, p.unit = a :: u ∧ isDigit a = false
  max : p.max ≤ intMax
  mult : p.mult ≤ 60 * 60 * 1000

theorem pattern_ok : ∀ p ∈ pattern, p.Ok := by
  simp only [pattern, List.forall_mem_cons, List.not_mem_nil, false_implies, implies_true, and_true]
  exact ⟨⟨⟨104, [], rfl, rfl⟩, by decide, by decide⟩, ⟨⟨109, [], rfl, rfl⟩, by decide, by decide⟩,
    ⟨⟨115, [], rfl, rfl⟩, by decide, by decide⟩, ⟨⟨109, [115], rfl, rfl⟩, by decide, by decide⟩⟩

theorem ReadRow.none {p : Pattern} (hp : p.Ok) : ReadRow p none :=
  ⟨by simp, by simp, hp.unit, by simp, hp.max⟩

theorem writtenText_none (ps : List Pattern) : writtenText (ps.map fun p => (p, none)) = [] := by
  induction ps with
  | nil => rfl
  | cons p ps ih => exact ih

section

variable {str s ep : List UInt8} {n ret : Nat}

/-- **What the scanner has read** when it did not fail: numbers in front of the place where it
stopped, along the rest of the table. -/
theorem scanUnits_stop {ps : List Pattern} (hps : ∀ p ∈ ps, p.Ok) {digits : List UInt8} (hne : digits ≠ [])
    (hdigits : ∀ c ∈ digits, isDigit c = true) (hret : ret ≤ uintMax) {scan : TimeScan}
    (h : scanUnits str ps (digits ++ ep) (strtoullValue digits) ep ret = .ok scan) (hscan : scan.ret ≠ 0) :
    ∃ items, items.map Prod.fst = ps ∧ (∀ x ∈ items, ReadRow x.1 x.2) ∧
      digits ++ ep = writtenText items ++ scan.ep ∧ scan.s = scan.ep ∧
      scan.ret = ret + itemsTime (readItems items) := by
  induction ps generalizing digits ep ret with
  | nil =>
      rw [scanUnits, Except.ok.injEq] at h
      exact absurd (congrArg TimeScan.ret h).symm hscan
  | cons p ps ih =>
      rw [List.forall_mem_cons] at hps
      obtain ⟨hp, hps⟩ := hps
      rw [scanUnits] at h
      obtain ⟨found, hfound, h⟩ := Except.bind_eq_ok_iff.mp h
      cases found with
      | false =>
          obtain ⟨items, hfst, hrows, hsplit, hend, htime⟩ := ih hps hne hdigits hret h
          refine ⟨(p, none) :: items, congrArg (List.cons p) hfst,
            List.forall_mem_cons.mpr ⟨.none hp, hrows⟩, hsplit, hend, htime.trans ?_⟩
          simp [readItems, itemsTime]
      | true =>
          rw [Bool.not_true, if_neg Bool.false_ne_true] at h
          split at h
          · exact absurd (congrArg TimeScan.ret (Except.ok.inj h)).symm hscan
          · rename_i hle
            have hprod := Nat.mul_le_mul (Nat.le_of_not_lt hle |>.trans hp.max) hp.mult
            have hsum : (ret + strtoullValue digits * p.mult) % 2 ^ 64 = ret + strtoullValue digits * p.mult := by
              unfold uintMax at hret
              unfold intMax at hprod
              exact Nat.mod_eq_of_lt (by omega)
            rw [hsum] at h
            dsimp only at h
            split at h
            · exact absurd (congrArg TimeScan.ret (Except.ok.inj h)).symm hscan
            · rename_i hover
              have hep := unitAt_split hfound
              have hrow : ReadRow p (some digits) := by
                refine ⟨?_, ?_, hp.unit, ?_, hp.max⟩
                · rintro text ⟨⟩
                  exact hne
                · rintro text ⟨⟩
                  exact hdigits
                · rintro v ⟨⟩
                  exact Nat.le_of_not_lt hle
              obtain ⟨c, _, h⟩ := Except.bind_eq_ok_iff.mp h
              split at h
              · -- the last item
                obtain rfl := Except.ok.inj h
                refine ⟨(p, some digits) :: ps.map fun q => (q, none), ?_, ?_, ?_, rfl, ?_⟩
                · rw [List.map_cons, List.map_map]
                  exact congrArg (List.cons p) (List.map_id ps)
                · refine List.forall_mem_cons.mpr ⟨hrow, ?_⟩
                  intro x hx
                  obtain ⟨q, hq, rfl⟩ := List.mem_map.mp hx
                  exact .none (hps q hq)
                · rw [writtenText, writtenText_none, List.append_nil, List.append_assoc, ← hep]
                · have hzero : itemsTime (readItems (ps.map fun q => (q, none))) = 0 := by
                    refine itemsTime_eq_zero (readItems_none ?_)
                    intro x hx
                    obtain ⟨q, _, rfl⟩ := List.mem_map.mp hx
                    rfl
                  change _ = ret + (strtoullValue digits * p.mult + itemsTime (readItems _))
                  rw [hzero, Nat.add_zero]
              · -- another number
                obtain ⟨⟨n', ep'⟩, hnum, h⟩ := Except.bind_eq_ok_iff.mp h
                dsimp only at h
                split at h
                · exact absurd (congrArg TimeScan.ret (Except.ok.inj h)).symm hscan
                · rename_i hmoved
                  obtain ⟨digits', c', rest', hdigits', _, rfl, htail, rfl⟩ := simpleStrtoull_stop hnum
                  have hne' : digits' ≠ [] := by
                    rintro rfl
                    exact hmoved htail.symm
                  rw [htail] at h
                  obtain ⟨items, hfst, hrows, hsplit, hend, htime⟩ :=
                    ih hps hne' hdigits' (Nat.le_of_not_lt hover) h
                  refine ⟨(p, some digits) :: items, congrArg (List.cons p) hfst,
                    List.forall_mem_cons.mpr ⟨hrow, hrows⟩, ?_, hend, ?_⟩
                  · rw [writtenText, List.append_assoc, List.append_assoc, ← hsplit, ← htail, ← hep]
                  · rw [htime, Nat.add_assoc]
                    rfl

/-- A time that was read is that of numbers along the table, in front of a separator. -/
theorem hweStrToTime_stop {t : Nat} (h : hweStrToTime s = .ok (t, ep)) (ht : t ≠ 0) :
    ∃ items sep rest, items.map Prod.fst = pattern ∧ (∀ x ∈ items, ReadRow x.1 x.2) ∧ isSep sep = true ∧
      ep = sep :: rest ∧ s = writtenText items ++ sep :: rest ∧ t = itemsTime (readItems items) := by
  obtain ⟨⟨n, ep'⟩, hnum, h⟩ := Except.bind_eq_ok_iff.mp h
  obtain ⟨scan, hscan, h⟩ := Except.bind_eq_ok_iff.mp h
  obtain ⟨sep, hsep, h⟩ := Except.bind_eq_ok_iff.mp h
  obtain ⟨hret, rfl⟩ := Prod.mk.inj (Except.ok.inj h)
  split at hret
  · rename_i hissep
    subst hret
    split at hscan
    · exact absurd (congrArg TimeScan.ret (Except.ok.inj hscan)).symm ht
    · rename_i hmoved
      obtain ⟨digits, c, rest, hdigits, _, rfl, rfl, rfl⟩ := simpleStrtoull_stop hnum
      have hne : digits ≠ [] := by
        rintro rfl
        exact hmoved rfl
      obtain ⟨items, hfst, hrows, hsplit, hend, htime⟩ :=
        scanUnits_stop pattern_ok hne hdigits (Nat.zero_le _) hscan ht
      rw [Nat.zero_add] at htime
      rw [hend] at hsep
      cases hep : scan.ep with
      | nil =>
          rw [hep] at hsep
          simp [deref] at hsep
      | cons x rest' =>
          rw [hep] at hsep
          obtain rfl : x = sep := Except.ok.inj hsep
          exact ⟨items, x, rest', hfst, hrows, hissep, rfl, hep ▸ hsplit, htime⟩
  · exact absurd hret.symm ht

end

end Hwemu
