import Hwemu.PairGrammar

/-!
# Numbers that are too large for the time parser

`simple_strtoull` reduces a number modulo `2^64` before the parser looks at it. The numbers that a
text holds are determined by the text, so that what is reduced can be compared with what is written.
-/

namespace Hwemu

/-! ### The numbers of a text -/

section

variable {items items' : List (Pattern × Option (List UInt8))} {sep sep' : UInt8} {rest rest' : List UInt8}

/-- The first number, its unit and what follows. -/
theorem writtenText_first (hsep : isSep sep = true) (hnum : ∀ x ∈ items, IsNumber x.2)
    (hsome : ∃ x ∈ items, x.2 ≠ none) :
    ∃ q ∈ items.map Prod.fst, ∃ digits c t, (∀ x ∈ digits, isDigit x = true) ∧ isAlpha c = false ∧
      writtenText items ++ sep :: rest = digits ++ (q.unit ++ c :: t) := by
  induction items with
  | nil => simp at hsome
  | cons x items ih =>
      obtain ⟨hx, hnum'⟩ := List.forall_mem_cons.mp hnum
      obtain ⟨p, _ | digits⟩ := x
      · obtain ⟨q, hq, hfirst⟩ := ih hnum' (by simpa using hsome)
        exact ⟨q, List.mem_cons_of_mem p hq, hfirst⟩
      · refine ⟨p, List.mem_cons_self, digits, ?_⟩
        have htext : writtenText ((p, some digits) :: items) ++ sep :: rest =
            digits ++ (p.unit ++ (writtenText items ++ sep :: rest)) := by simp [writtenText]
        rcases @writtenText_head items sep rest hnum' with ⟨_, htail⟩ | ⟨_, c, t, htail, hc⟩
        · refine ⟨sep, rest, (hx digits rfl).2, (isSep_spec hsep).2, ?_⟩
          rw [htext, htail, List.nil_append]
        · refine ⟨c, t, (hx digits rfl).2, not_isAlpha_of_isDigit hc, ?_⟩
          rw [htext, htail]

/-- What follows a number and its unit does not begin with a letter. -/
theorem writtenText_next (hsep : isSep sep = true) (hnum : ∀ x ∈ items, IsNumber x.2) :
    ∃ c t, writtenText items ++ sep :: rest = c :: t ∧ isAlpha c = false := by
  rcases @writtenText_head items sep rest hnum with ⟨_, htail⟩ | ⟨_, c, t, htail, hc⟩
  · exact ⟨sep, rest, by rw [htail, List.nil_append], (isSep_spec hsep).2⟩
  · exact ⟨c, t, htail, not_isAlpha_of_isDigit hc⟩

/-- A number at a row is not one at a later row. -/
theorem writtenText_ne {p : Pattern} {digits : List UInt8} (hp : p.Ok) (hsep : isSep sep = true)
    (hsep' : isSep sep' = true) (hnum : ∀ x ∈ items, IsNumber x.2) (hnum' : ∀ x ∈ items', IsNumber x.2)
    (hdigits : IsNumber (some digits)) (hok : ∀ q ∈ items.map Prod.fst, Pattern.Ok q ∧ Distinguished p q) :
    writtenText items ++ sep :: rest ≠ digits ++ (p.unit ++ (writtenText items' ++ sep' :: rest')) := by
  intro heq
  obtain ⟨hne, hall⟩ := hdigits digits rfl
  obtain ⟨d, tail, rfl⟩ := List.exists_cons_of_ne_nil hne
  have hd := hall d List.mem_cons_self
  obtain ⟨a, u, hunit, ha⟩ := hp.unit
  rcases @writtenText_head items sep rest hnum with ⟨_, htext⟩ | ⟨hsome, _⟩
  · -- no number is left, and the separator is no digit
    rw [htext, List.nil_append, List.cons_append] at heq
    rw [← (List.cons.inj heq).1, (isSep_spec hsep).1] at hd
    exact absurd hd (by decide)
  · obtain ⟨q, hq, first, c, t, hfirst, hc, htext⟩ := @writtenText_first items sep rest hsep hnum hsome
    obtain ⟨hqok, hother⟩ := hok q hq
    obtain ⟨b, v, hunit', hb⟩ := hqok.unit
    obtain ⟨c', t', hnext, hc'⟩ := @writtenText_next items' sep' rest' hsep' hnum'
    rw [htext, hunit', hunit] at heq
    have hrest := (append_cons_inj_of_all hfirst hall hb ha heq).2
    have hsame : q.unit ++ c :: t = p.unit ++ c' :: t' := by
      rw [hunit', hunit, ← hnext]
      exact hrest
    have hfalse := hother c t hc
    rw [hsame, unitAt_self, hc'] at hfalse
    exact absurd (Except.ok.inj hfalse) (by decide)

/-- **A text has one reading**: the numbers along the table and the place of the separator. -/
theorem writtenText_inj (hfst : items.map Prod.fst = items'.map Prod.fst)
    (hok : ∀ p ∈ items.map Prod.fst, p.Ok) (hpattern : (items.map Prod.fst).Pairwise Distinguished)
    (hnum : ∀ x ∈ items, IsNumber x.2) (hnum' : ∀ x ∈ items', IsNumber x.2)
    (hsep : isSep sep = true) (hsep' : isSep sep' = true)
    (h : writtenText items ++ sep :: rest = writtenText items' ++ sep' :: rest') : items = items' := by
  induction items generalizing items' with
  | nil => exact (List.map_eq_nil_iff.mp hfst.symm).symm
  | cons x items ih =>
      cases items' with
      | nil => simp at hfst
      | cons x' items' =>
          obtain ⟨p, v⟩ := x
          obtain ⟨p', v'⟩ := x'
          rw [List.map_cons, List.map_cons, List.cons.injEq] at hfst
          obtain ⟨rfl, htable⟩ := hfst
          obtain ⟨hp, hlaterOk⟩ := List.forall_mem_cons.mp hok
          obtain ⟨hfirst, hlaterPattern⟩ := List.pairwise_cons.mp hpattern
          obtain ⟨hx, hrows⟩ := List.forall_mem_cons.mp hnum
          obtain ⟨hx', hrows'⟩ := List.forall_mem_cons.mp hnum'
          have hlater : ∀ q ∈ items.map Prod.fst, Pattern.Ok q ∧ Distinguished p q :=
            fun q hq => ⟨hlaterOk q hq, hfirst q hq⟩
          have hlater' : ∀ q ∈ items'.map Prod.fst, Pattern.Ok q ∧ Distinguished p q := htable ▸ hlater
          have hcons : ∀ digits, writtenText ((p, some digits) :: items) ++ sep :: rest =
              digits ++ (p.unit ++ (writtenText items ++ sep :: rest)) := by simp [writtenText]
          have hcons' : ∀ digits, writtenText ((p, some digits) :: items') ++ sep' :: rest' =
              digits ++ (p.unit ++ (writtenText items' ++ sep' :: rest')) := by simp [writtenText]
          cases v with
          | none =>
              cases v' with
              | none => rw [ih htable hlaterOk hlaterPattern hrows hrows' h]
              | some digits' =>
                  rw [hcons'] at h
                  change writtenText items ++ sep :: rest = _ at h
                  exact absurd h (writtenText_ne hp hsep hsep' hrows hrows' hx' hlater)
          | some digits =>
              cases v' with
              | none =>
                  rw [hcons] at h
                  change _ = writtenText items' ++ sep' :: rest' at h
                  exact absurd h.symm (writtenText_ne hp hsep' hsep hrows' hrows hx hlater')
              | some digits' =>
                  obtain ⟨a, u, hunit, ha⟩ := hp.unit
                  rw [hcons, hcons', hunit, List.cons_append, List.cons_append] at h
                  obtain ⟨rfl, htail⟩ := append_cons_inj_of_all (hx digits rfl).2 (hx' digits' rfl).2 ha ha h
                  have hsame := List.append_cancel_left (List.cons.inj htail).2
                  rw [ih htable hlaterOk hlaterPattern hrows hrows' hsame]

end

/-! ### Times that are exact -/

namespace TimeNumbers

/-- The numbers are what `s` holds up to the separator that `e` begins with. -/
def Ends (g : TimeNumbers) (s e : List UInt8) : Prop :=
  g.Digits ∧ s = g.text ++ e ∧ ∃ sep rest, isSep sep = true ∧ e = sep :: rest

/-- A number is too large for `simple_strtoull`. -/
def Wide (g : TimeNumbers) : Prop :=
  ∃ v ∈ [g.h, g.m, g.s, g.ms], ∃ digits ∈ v, 2 ^ 64 ≤ digitsValue digits

section

variable {g g' : TimeNumbers} {s e e' : List UInt8}

theorem Digits.rows (h : g.Digits) : ∀ x ∈ g.rows, IsNumber x.2 := by
  simp only [TimeNumbers.rows, List.forall_mem_cons, List.not_mem_nil, false_implies, implies_true, and_true]
  exact ⟨h.h, h.m, h.s, h.ms⟩

/-- A text holds the same numbers however it is read. -/
theorem Ends.unique (h : g.Ends s e) (h' : g'.Ends s e') : g = g' := by
  obtain ⟨hdigits, hs, sep, rest, hsep, rfl⟩ := h
  obtain ⟨hdigits', hs', sep', rest', hsep', rfl⟩ := h'
  rw [hs, ← g.writtenText_rows, ← g'.writtenText_rows] at hs'
  have hrows := writtenText_inj (g.map_fst_rows.trans g'.map_fst_rows.symm) pattern_ok pattern_distinguished
    hdigits.rows hdigits'.rows hsep hsep' hs'
  simp only [TimeNumbers.rows, List.cons.injEq, Prod.mk.injEq, true_and, and_true] at hrows
  obtain ⟨hh, hm, hsec, hms⟩ := hrows
  cases g
  cases g'
  simp_all only

/-- Numbers that are not too large are worth what is written. -/
theorem value_eq (h : ¬g.Wide) :
    g.time strtoullValue = g.time digitsValue ∧ (g.Within strtoullValue ↔ g.Within digitsValue) := by
  have hvalue : ∀ v ∈ [g.h, g.m, g.s, g.ms], ∀ digits ∈ v, strtoullValue digits = digitsValue digits := by
    intro v hv digits hd
    refine strtoullValue_of_lt (Nat.lt_of_not_le ?_)
    exact fun hle => h ⟨v, hv, digits, hd, hle⟩
  simp only [List.forall_mem_cons, List.not_mem_nil, false_implies, implies_true, and_true] at hvalue
  obtain ⟨hh, hm, hs, hms⟩ := hvalue
  refine ⟨?_, ?_⟩
  · rw [time, time, Option.map_congr hh, Option.map_congr hm, Option.map_congr hs, Option.map_congr hms]
  · constructor
    · rintro ⟨h₁, h₂, h₃, h₄⟩
      exact ⟨fun d hd => hh d hd ▸ h₁ d hd, fun d hd => hm d hd ▸ h₂ d hd, fun d hd => hs d hd ▸ h₃ d hd,
        fun d hd => hms d hd ▸ h₄ d hd⟩
    · rintro ⟨h₁, h₂, h₃, h₄⟩
      exact ⟨fun d hd => (hh d hd).symm ▸ h₁ d hd, fun d hd => (hm d hd).symm ▸ h₂ d hd,
        fun d hd => (hs d hd).symm ▸ h₃ d hd, fun d hd => (hms d hd).symm ▸ h₄ d hd⟩

/-- Numbers that keep to their limits are not too large. -/
theorem Within.not_wide (h : g.Within digitsValue) : ¬g.Wide := by
  rintro ⟨v, hv, digits, hd, hle⟩
  simp only [List.mem_cons, List.not_mem_nil, or_false] at hv
  have hmax : digitsValue digits ≤ intMax := by
    rcases hv with rfl | rfl | rfl | rfl
    · exact h.h digits hd
    · exact (h.m digits hd).trans (by decide)
    · exact (h.s digits hd).trans (by decide)
    · exact (h.ms digits hd).trans (by decide)
  unfold intMax at hmax
  omega

end

end TimeNumbers

/-- A time that is returned is the exact one, and 0 is returned where there is none in range. -/
structure ExactTime (s : List UInt8) : Prop where
  sum : ∀ t e, hweStrToTime s = .ok (t, e) → t ≠ 0 →
    ∃ g : TimeNumbers, g.Ends s e ∧ g.Within digitsValue ∧ t = g.time digitsValue ∧ t ≤ uintMax
  zero : ∀ (g : TimeNumbers) e, g.Ends s e → uintMax < g.time digitsValue ∨ ¬g.Within digitsValue →
    ∃ e', hweStrToTime s = .ok (0, e')

/-- One of the numbers is `2^64` or more, and all of them modulo `2^64` are a time in range. -/
def TimeWraps (s : List UInt8) : Prop :=
  ∃ (g : TimeNumbers) (e : List UInt8), g.Ends s e ∧ g.Wide ∧ g.Within strtoullValue ∧
    1 ≤ g.time strtoullValue ∧ g.time strtoullValue ≤ uintMax

section

variable {s : List UInt8}

theorem TimeWraps.not_exact (h : TimeWraps s) : ¬ExactTime s := by
  obtain ⟨g, e, hends, hwide, hwithin, hpos, hle⟩ := h
  obtain ⟨hdigits, hs, sep, rest, hsep, he⟩ := id hends
  intro hexact
  have ht : g.time strtoullValue ≠ 0 := Nat.ne_of_gt hpos
  have hrun := (hweStrToTime_iff ht).mpr
    ⟨g.text, sep, rest, ⟨g, hdigits, hwithin, rfl, rfl, hpos, hle⟩, hsep, rfl, he ▸ hs⟩
  obtain ⟨g', hends', hwithin', _⟩ := hexact.sum _ _ hrun ht
  obtain rfl := hends.unique hends'
  exact hwithin'.not_wide hwide

/-- **Overflow in time parsing** goes unnoticed exactly where the numbers modulo `2^64` are a time in
range. -/
theorem time_overflow (s : List UInt8) : ExactTime s ↔ ¬TimeWraps s := by
  refine ⟨fun hexact hwraps => hwraps.not_exact hexact, fun hwraps => ?_⟩
  have hsum : ∀ t e, hweStrToTime s = .ok (t, e) → t ≠ 0 →
      ∃ g : TimeNumbers, g.Ends s e ∧ g.Within digitsValue ∧ t = g.time digitsValue ∧ t ≤ uintMax := by
    intro t e hrun ht
    obtain ⟨_, sep, rest, ⟨g, hdigits, hwithin, rfl, rfl, hpos, hle⟩, hsep, rfl, rfl⟩ :=
      (hweStrToTime_iff ht).mp hrun
    have hends : g.Ends (g.text ++ sep :: rest) (sep :: rest) := ⟨hdigits, rfl, sep, rest, hsep, rfl⟩
    have hnarrow : ¬g.Wide := fun hwide => hwraps ⟨g, _, hends, hwide, hwithin, hpos, hle⟩
    obtain ⟨htime, hiff⟩ := TimeNumbers.value_eq hnarrow
    exact ⟨g, hends, hiff.mp hwithin, htime, hle⟩
  refine ⟨hsum, ?_⟩
  intro g e hends hbad
  obtain ⟨_, rfl, sep, rest, hsep, rfl⟩ := id hends
  have hmem : sep ∈ g.text ++ sep :: rest := List.mem_append_right _ List.mem_cons_self
  obtain ⟨t, e', hrun, _⟩ := hweStrToTime_total hsep hmem
  by_cases ht : t = 0
  · exact ⟨e', ht ▸ hrun⟩
  · obtain ⟨g', hends', hwithin, htime, hle⟩ := hsum t e' hrun ht
    obtain rfl := hends.unique hends'
    rcases hbad with hover | hlimit
    · omega
    · exact absurd hwithin hlimit

end

/-- `2^64 + 1` hours are taken for one. -/
theorem hour_of_2_pow_64 : ¬ExactTime (bytes "18446744073709551617h=") := by
  have hone : strtoullValue (bytes "18446744073709551617") = 1 := by decide +kernel
  refine TimeWraps.not_exact ⟨⟨some (bytes "18446744073709551617"), none, none, none⟩, [61], ?_, ?_, ?_, ?_⟩
  · refine ⟨⟨?_, by simp [IsNumber], by simp [IsNumber], by simp [IsNumber]⟩, rfl, 61, [], rfl, rfl⟩
    rintro digits ⟨⟩
    exact ⟨by decide, List.all_iff_forall_prop.mp (by decide)⟩
  · exact ⟨_, List.mem_cons_self, _, rfl, by decide +kernel⟩
  · refine ⟨?_, by simp, by simp, by simp⟩
    rintro digits ⟨⟩
    rw [hone]
    decide
  · simp only [TimeNumbers.time, Option.map_some, Option.map_none, hone]
    decide

end Hwemu
