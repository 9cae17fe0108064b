import Dialects.Json.Literal
import Dialects.Proofs.Text.Span

/-!
# The extent of a number

How long the number at the start of a text is depends on the text up to its end only. So a number
is found again where something follows it with which no number goes on (`numberLength_append`), and
also where nothing follows it (`numberLength_take`). `IsNumber` says that a text is a number from
its start to its end.
-/

namespace Dialects.Json

open CodePoint (scalar)
open Text (Stops spanLength)

/-- Whether a number may go on with a code point. -/
def continuesNumber (c : CodePoint) : Bool :=
  c.isDigit || [scalar '.', scalar 'e', scalar 'E', scalar '+', scalar '-'].contains c

/-- A text that is a number as a whole. -/
def IsNumber (t : Text) : Prop := t ≠ [] ∧ numberLength t = t.length

/-- A text that stops numbers starts with no code point with which one goes on. -/
theorem head_ne_of_stops {c x : CodePoint} {t : Text} (hstops : Stops continuesNumber (c :: t))
    (hx : continuesNumber x = true) : c ≠ x := by
  rintro rfl
  rw [Text.stops_cons, hx] at hstops
  contradiction

/-! ## What follows a number -/

section Append

variable {rest : Text} (hrest : Stops continuesNumber rest)

/-- The sign at the head of a text that is not empty does not depend on what follows. -/
theorem signLength_append_of_ne_nil {t : Text} (ht : t ≠ []) (rest : Text) :
    signLength (t ++ rest) = signLength t := by
  cases t with
  | nil => contradiction
  | cons c t => rfl

include hrest

/-- Digits end where no number goes on. -/
theorem digitsLength_append (t : Text) : digitsLength (t ++ rest) = digitsLength t :=
  Text.spanLength_append (hrest.mono fun c hc => by simp [continuesNumber, hc]) t

/-- The whole part of a number ends where no number goes on. -/
theorem integerLength_append (t : Text) : integerLength (t ++ rest) = integerLength t := by
  cases t with
  | cons c t => simp only [List.cons_append, integerLength, digitsLength_append hrest t]
  | nil =>
    cases rest with
    | nil => rfl
    | cons c rest =>
      -- what comes behind is no digit, and thus does not begin a number either
      have hzero : c ≠ scalar '0' := head_ne_of_stops hrest (by decide)
      have hrange : c.isBetween '1' '9' = false := by
        have hdigit : c.isDigit = false := by
          rw [Text.stops_cons, continuesNumber, Bool.or_eq_false_iff] at hrest
          exact hrest.1
        cases c with
        | surrogate n => rfl
        | scalar c =>
          simp only [CodePoint.isDigit, CodePoint.isBetween, Bool.and_eq_false_imp,
            decide_eq_true_eq, decide_eq_false_iff_not] at hdigit ⊢
          exact fun hle => hdigit (Char.le_trans (by decide) hle)
      simp [integerLength, hzero, hrange]

/-- The fraction of a number ends where no number goes on. -/
theorem fractionLength_append (t : Text) : fractionLength (t ++ rest) = fractionLength t := by
  cases t with
  | cons c t => simp only [List.cons_append, fractionLength, digitsLength_append hrest t]
  | nil =>
    cases rest with
    | nil => rfl
    | cons c rest =>
      have hpoint : c ≠ scalar '.' := head_ne_of_stops hrest (by decide)
      simp [fractionLength, hpoint]

/-- Where no number goes on there is no sign. -/
theorem signLength_eq_zero_of_stops : signLength rest = 0 := by
  cases rest with
  | nil => rfl
  | cons c rest =>
    have hplus : c ≠ scalar '+' := head_ne_of_stops hrest (by decide)
    have hminus : c ≠ scalar '-' := head_ne_of_stops hrest (by decide)
    simp [signLength, hplus, hminus]

/-- The digits of an exponent behind its sign. -/
theorem digitsLength_drop_sign_append (t : Text) :
    digitsLength ((t ++ rest).drop (signLength (t ++ rest)))
      = digitsLength (t.drop (signLength t)) := by
  cases t with
  | nil =>
    -- A mark of an exponent at the end of a text must not find its digits behind the text.
    rw [List.nil_append, signLength_eq_zero_of_stops hrest]
    exact digitsLength_append hrest []
  | cons c t =>
    have hle : signLength (c :: t) ≤ (c :: t).length := by
      simp only [signLength, List.length_cons]
      split <;> omega
    rw [signLength_append_of_ne_nil (by simp), List.drop_append_of_le_length hle,
      digitsLength_append hrest]

/-- The exponent of a number ends where no number goes on. -/
theorem exponentLength_append (t : Text) : exponentLength (t ++ rest) = exponentLength t := by
  cases t with
  | nil =>
    cases rest with
    | nil => rfl
    | cons c rest =>
      have hlower : c ≠ scalar 'e' := head_ne_of_stops hrest (by decide)
      have hupper : c ≠ scalar 'E' := head_ne_of_stops hrest (by decide)
      simp [exponentLength, hlower, hupper]
  | cons c t =>
    simp only [List.cons_append, exponentLength, digitsLength_drop_sign_append hrest t]
    by_cases ht : t = []
    · simp [ht, digitsLength]
    · rw [signLength_append_of_ne_nil ht]

end Append

/-! ## The parts of a number lie within the text -/

theorem integerLength_le (t : Text) : integerLength t ≤ t.length := by
  cases t with
  | nil => exact Nat.le_refl 0
  | cons c t =>
    have hdigits : digitsLength t ≤ t.length := Text.spanLength_le _ t
    simp only [integerLength, List.length_cons]
    repeat' split
    all_goals omega

theorem fractionLength_le (t : Text) : fractionLength t ≤ t.length := by
  cases t with
  | nil => exact Nat.le_refl 0
  | cons c t =>
    have hdigits : digitsLength t ≤ t.length := Text.spanLength_le _ t
    simp only [fractionLength, List.length_cons]
    split <;> omega

theorem exponentLength_le (t : Text) : exponentLength t ≤ t.length := by
  cases t with
  | nil => exact Nat.le_refl 0
  | cons c t =>
    have hdigits : digitsLength (t.drop (signLength t)) ≤ (t.drop (signLength t)).length :=
      Text.spanLength_le _ _
    simp only [exponentLength, List.length_cons]
    split
    · next hmark =>
      simp only [Bool.and_eq_true, decide_eq_true_eq] at hmark
      rw [List.length_drop] at hdigits
      omega
    · omega

/-- A number without its sign is a whole part, a fraction and an exponent. -/
theorem unsignedLength_eq (t : Text) (hinteger : integerLength t ≠ 0) :
    unsignedLength t = integerLength t + fractionLength (t.drop (integerLength t)) +
      exponentLength
        (t.drop (integerLength t + fractionLength (t.drop (integerLength t)))) := by
  unfold unsignedLength
  split
  · contradiction
  · next n hn => rw [hn]

/-- Without a whole part there is no number. -/
theorem unsignedLength_eq_zero {t : Text} (hinteger : integerLength t = 0) :
    unsignedLength t = 0 := by
  unfold unsignedLength
  rw [hinteger]

/-- The integer and the fraction together. -/
theorem integerLength_add_fractionLength_le (t : Text) :
    integerLength t + fractionLength (t.drop (integerLength t)) ≤ t.length := by
  have hinteger := integerLength_le t
  have hfraction := fractionLength_le (t.drop (integerLength t))
  rw [List.length_drop] at hfraction
  omega

theorem unsignedLength_le (t : Text) : unsignedLength t ≤ t.length := by
  by_cases hinteger : integerLength t = 0
  · rw [unsignedLength_eq_zero hinteger]
    exact Nat.zero_le _
  · rw [unsignedLength_eq t hinteger]
    have hboth := integerLength_add_fractionLength_le t
    have hexponent := exponentLength_le
      (t.drop (integerLength t + fractionLength (t.drop (integerLength t))))
    rw [List.length_drop] at hexponent
    omega

/-! ## Numbers are found again -/

/-- A number without its sign ends where no number goes on. -/
theorem unsignedLength_append {rest : Text} (hrest : Stops continuesNumber rest) (t : Text) :
    unsignedLength (t ++ rest) = unsignedLength t := by
  have hinteger := integerLength_append hrest t
  by_cases hzero : integerLength t = 0
  · rw [unsignedLength_eq_zero hzero, unsignedLength_eq_zero (hinteger.trans hzero)]
  · rw [unsignedLength_eq t hzero, unsignedLength_eq (t ++ rest) (by rwa [hinteger]), hinteger,
      List.drop_append_of_le_length (integerLength_le t), fractionLength_append hrest,
      List.drop_append_of_le_length (integerLength_add_fractionLength_le t),
      exponentLength_append hrest]

/-- A text with a head is not empty. -/
theorem eq_cons_of_head {c : CodePoint} {t : Text} (h : t.head? = some c) :
    ∃ u, t = c :: u := by
  cases t with
  | nil => simp at h
  | cons d t => exact ⟨t, by simpa using h⟩

/-- The number at the start of a text with a sign. -/
theorem numberLength_minus (t : Text) :
    numberLength (scalar '-' :: t) = if unsignedLength t = 0 then 0 else unsignedLength t + 1 := by
  simp only [numberLength]
  split
  · next h => simp [h]
  · next n h => simp [h]

/-- The number at the start of a text without a sign. -/
theorem numberLength_of_head_ne {t : Text} (h : t.head? ≠ some (scalar '-')) :
    numberLength t = unsignedLength t := by
  unfold numberLength
  split
  · simp at h
  · rfl

/-- A number ends where no number goes on, whatever comes there. -/
theorem numberLength_append {rest : Text} (hrest : Stops continuesNumber rest) (t : Text) :
    numberLength (t ++ rest) = numberLength t := by
  have hhead : (t ++ rest).head? = some (scalar '-') ↔ t.head? = some (scalar '-') := by
    cases t with
    | cons c t => simp
    | nil =>
      cases rest with
      | nil => simp
      | cons c rest => simpa using head_ne_of_stops hrest (by decide)
  by_cases hminus : t.head? = some (scalar '-')
  · obtain ⟨t, rfl⟩ := eq_cons_of_head hminus
    rw [List.cons_append, numberLength_minus, numberLength_minus, unsignedLength_append hrest]
  · rw [numberLength_of_head_ne hminus, numberLength_of_head_ne (mt hhead.1 hminus),
      unsignedLength_append hrest]

/-! ## A number by itself -/

/-- Of the digits at the start of a text those are left that are not cut off. -/
theorem digitsLength_take (n : Nat) (t : Text) :
    digitsLength (t.take n) = min n (digitsLength t) :=
  Text.spanLength_take _ n t

/-- The whole part is the same in the text cut off behind it. -/
theorem integerLength_take {n : Nat} {t : Text} (h : integerLength t ≤ n) :
    integerLength (t.take n) = integerLength t := by
  cases t with
  | nil => simp
  | cons c t =>
    cases n with
    | zero => rw [Nat.le_zero.mp h]; rfl
    | succ n =>
      simp only [List.take_succ_cons, integerLength, digitsLength_take] at h ⊢
      repeat' split
      all_goals simp_all

/-- The fraction is the same in the text cut off behind it. -/
theorem fractionLength_take {n : Nat} {t : Text} (h : fractionLength t ≤ n) :
    fractionLength (t.take n) = fractionLength t := by
  cases t with
  | nil => simp
  | cons c t =>
    cases n with
    | zero => rw [Nat.le_zero.mp h]; rfl
    | succ n =>
      simp only [List.take_succ_cons, fractionLength, digitsLength_take] at h ⊢
      by_cases hmark : (decide (c = scalar '.') && decide (digitsLength t ≠ 0)) = true
      · rw [if_pos hmark] at h ⊢
        rw [Nat.min_eq_right (by omega), if_pos hmark]
      · rw [if_neg hmark, if_neg]
        simp only [Bool.and_eq_true, decide_eq_true_eq] at hmark ⊢
        exact fun hmin => hmark ⟨hmin.1, by have := hmin.2; omega⟩

/-- The sign of an exponent is its first code point, if there is one. -/
theorem signLength_take {n : Nat} (hn : n ≠ 0) (t : Text) :
    signLength (t.take n) = signLength t := by
  cases t with
  | nil => simp
  | cons c t =>
    cases n with
    | zero => contradiction
    | succ n => rfl

/-- The digits of an exponent behind its sign, in a text that has been cut off. -/
theorem digitsLength_drop_sign_take (n : Nat) (t : Text) :
    digitsLength ((t.take n).drop (signLength (t.take n)))
      = min (n - signLength t) (digitsLength (t.drop (signLength t))) := by
  by_cases hn : n = 0
  · subst hn
    simp [digitsLength]
  · rw [signLength_take hn, List.drop_take, digitsLength_take]

/-- The exponent is the same in the text cut off behind it. -/
theorem exponentLength_take {n : Nat} {t : Text} (h : exponentLength t ≤ n) :
    exponentLength (t.take n) = exponentLength t := by
  cases t with
  | nil => simp
  | cons c t =>
    cases n with
    | zero => rw [Nat.le_zero.mp h]; rfl
    | succ n =>
      simp only [List.take_succ_cons, exponentLength, digitsLength_drop_sign_take] at h ⊢
      -- that there are digits behind the mark is all that matters about them
      generalize hd : digitsLength (t.drop (signLength t)) = digits at h ⊢
      by_cases hmark :
          ((decide (c = scalar 'e') || decide (c = scalar 'E')) && decide (digits ≠ 0)) = true
      · rw [if_pos hmark] at h ⊢
        have hdigits : digits ≠ 0 := by
          rw [Bool.and_eq_true, decide_eq_true_eq] at hmark
          exact hmark.2
        rw [Nat.min_eq_right (by omega), if_pos hmark, signLength_take (by omega)]
      · rw [if_neg hmark, if_neg]
        simp only [Bool.and_eq_true, decide_eq_true_eq] at hmark ⊢
        exact fun hmin => hmark ⟨hmin.1, by have := hmin.2; omega⟩

/-- A number without its sign is the same in the text cut off behind it. -/
theorem unsignedLength_take {n : Nat} {t : Text} (h : unsignedLength t ≤ n) :
    unsignedLength (t.take n) = unsignedLength t := by
  -- each part is measured in the text cut off, from the left to the right
  by_cases hzero : integerLength t = 0
  · rw [unsignedLength_eq_zero hzero, unsignedLength_eq_zero]
    rw [integerLength_take (by omega), hzero]
  · rw [unsignedLength_eq t hzero] at h
    have hinteger : integerLength (t.take n) = integerLength t := integerLength_take (by omega)
    rw [unsignedLength_eq t hzero, unsignedLength_eq (t.take n) (by rwa [hinteger]), hinteger,
      List.drop_take, fractionLength_take (by omega), List.drop_take,
      exponentLength_take (by omega)]

/-- A number is found again where nothing follows it. -/
theorem numberLength_take {n : Nat} {t : Text} (h : numberLength t ≤ n) :
    numberLength (t.take n) = numberLength t := by
  by_cases hminus : t.head? = some (scalar '-')
  · obtain ⟨t, rfl⟩ := eq_cons_of_head hminus
    cases n with
    | zero => rw [Nat.le_zero.mp h]; rfl
    | succ n =>
      rw [numberLength_minus] at h
      rw [List.take_succ_cons, numberLength_minus, numberLength_minus, unsignedLength_take]
      split at h <;> omega
  · rw [numberLength_of_head_ne hminus] at h ⊢
    rw [numberLength_of_head_ne, unsignedLength_take h]
    cases n with
    | zero => simp
    | succ n => rwa [List.head?_take, if_neg (by omega)]

theorem numberLength_le (t : Text) : numberLength t ≤ t.length := by
  by_cases hminus : t.head? = some (scalar '-')
  · obtain ⟨t, rfl⟩ := eq_cons_of_head hminus
    have hle := unsignedLength_le t
    rw [numberLength_minus, List.length_cons]
    split <;> omega
  · rw [numberLength_of_head_ne hminus]
    exact unsignedLength_le t

/-- What is cut off as a number is one. -/
theorem isNumber_take {t : Text} (h : numberLength t ≠ 0) :
    IsNumber (t.take (numberLength t)) := by
  have hle := numberLength_le t
  -- the whole text has at least that many code points
  have hlength : (t.take (numberLength t)).length = numberLength t := by
    rw [List.length_take]
    omega
  refine ⟨?_, by rw [numberLength_take (Nat.le_refl _), hlength]⟩
  intro hnil
  rw [hnil, List.length_nil] at hlength
  exact h hlength.symm

/-- An integer starts with a digit. -/
theorem isDigit_head_of_integerLength {t : Text} (h : integerLength t ≠ 0) :
    ∃ c u, t = c :: u ∧ c.isDigit = true := by
  cases t with
  | nil => contradiction
  | cons c u =>
    refine ⟨c, u, rfl, ?_⟩
    -- the first digit is a zero, or one of the others
    simp only [integerLength] at h
    split at h
    · next hzero =>
      subst hzero
      decide
    · split at h
      · next hrange =>
        cases c with
        | surrogate n => contradiction
        | scalar c =>
          simp only [CodePoint.isDigit, CodePoint.isBetween, Bool.and_eq_true,
            decide_eq_true_eq] at hrange ⊢
          exact ⟨Char.le_trans (by decide) hrange.1, hrange.2⟩
      · contradiction

/-- A number starts with a digit, or with a minus sign and a digit. -/
theorem IsNumber.head {t : Text} (h : IsNumber t) :
    ∃ c u, t = c :: u ∧ (c.isDigit = true ∨
      c = scalar '-' ∧ ∃ d v, u = d :: v ∧ d.isDigit = true) := by
  obtain ⟨hne, hlength⟩ := h
  have hpos : numberLength t ≠ 0 := by
    rw [hlength]
    exact mt List.length_eq_zero_iff.mp hne
  have hinteger {u : Text} (hu : unsignedLength u ≠ 0) : integerLength u ≠ 0 :=
    mt unsignedLength_eq_zero hu
  -- what is behind the sign is an unsigned number, which starts with an integer
  by_cases hminus : t.head? = some (scalar '-')
  · obtain ⟨u, rfl⟩ := eq_cons_of_head hminus
    refine ⟨scalar '-', u, rfl, Or.inr ⟨rfl, ?_⟩⟩
    rw [numberLength_minus] at hpos
    exact isDigit_head_of_integerLength (hinteger fun hzero => hpos (by rw [if_pos hzero]))
  · rw [numberLength_of_head_ne hminus] at hpos
    obtain ⟨c, u, rfl, hdigit⟩ := isDigit_head_of_integerLength (hinteger hpos)
    exact ⟨c, u, rfl, Or.inl hdigit⟩

end Dialects.Json
