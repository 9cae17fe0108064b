import Dialects.Json.Literal
import Dialects.Proofs.Text.CodePoint

/-!
# Strings are read back

A string that has been spelled with its quotes ends where it was ended, whatever follows
(`closingLength?_spelled`), and denotes the content that was spelled (`decodeString_encodeString`).
Both are shown unit by unit: what stands for one code point is read as that code point.
-/

namespace Dialects

namespace Json

open CodePoint (scalar)

/-! ## Digits -/

/-- The digit of a number is read as the number. -/
theorem hexValue?_hexDigit : ∀ n < 16, (hexDigit n).hexValue? = some n := by
  decide

/-- No digit closes a string or starts an escape. -/
theorem hexDigit_ne : ∀ n < 16,
    hexDigit n ≠ scalar '"' ∧ hexDigit n ≠ scalar '\\' ∧ hexDigit n ≠ Text.newline := by
  decide

/-- Two zeros and two digits spell a number below 256. -/
theorem fourDigits?_spelled {n : Nat} (hn : n < 256) {t : Text} (ht : t ≠ []) :
    fourDigits? (scalar '0' :: scalar '0' :: hexDigit (n / 16) :: hexDigit (n % 16) :: t)
      = some (n, t) := by
  obtain ⟨c, u, rfl⟩ := List.exists_cons_of_ne_nil ht
  have hzero : (scalar '0').hexValue? = some 0 := by decide
  have hhigh := hexValue?_hexDigit (n / 16) (by omega)
  have hlow := hexValue?_hexDigit (n % 16) (by omega)
  simp only [fourDigits?, hzero, hhigh, hlow, Option.some.injEq, Prod.mk.injEq, and_true]
  omega

/-! ## What stands for a code point -/

/-- A code point is spelled by a short escape, by its number, or as it is. -/
theorem stringUnit_cases (c : CodePoint) :
    (∃ x, stringUnit c = [scalar '\\', x] ∧ x ≠ scalar 'u' ∧ shortEscape? x = some c) ∨
    (c.val < 0x20 ∧ stringUnit c = [scalar '\\', scalar 'u', scalar '0', scalar '0',
      hexDigit (c.val / 16), hexDigit (c.val % 16)]) ∨
    (stringUnit c = [c] ∧ c ≠ scalar '"' ∧ c ≠ scalar '\\' ∧ c ≠ Text.newline ∧
      ¬ c.val < 0x20) := by
  -- there are seven short escapes, and the control characters without one are numbered
  unfold stringUnit
  split
  · next h => subst h; exact Or.inl ⟨_, rfl, by decide, rfl⟩
  split
  · next h => subst h; exact Or.inl ⟨_, rfl, by decide, rfl⟩
  split
  · next h => subst h; exact Or.inl ⟨_, rfl, by decide, rfl⟩
  split
  · next h => subst h; exact Or.inl ⟨_, rfl, by decide, rfl⟩
  split
  · next h => subst h; exact Or.inl ⟨_, rfl, by decide, rfl⟩
  split
  · next h => subst h; exact Or.inl ⟨_, rfl, by decide, rfl⟩
  split
  · next h => subst h; exact Or.inl ⟨_, rfl, by decide, rfl⟩
  split
  · next hcontrol => exact Or.inr (Or.inl ⟨hcontrol, rfl⟩)
  · next hquote hslash hline _ _ _ _ hcontrol =>
    exact Or.inr (Or.inr ⟨rfl, hquote, hslash, hline, hcontrol⟩)

/-! ## The end of a string -/

section Closing

variable (multiline : Bool)

theorem closingLength?_quote (t : Text) :
    closingLength? multiline (scalar '"' :: t) = some 1 := by
  simp [closingLength?]

/-- Whatever follows a backslash belongs to the string. -/
theorem closingLength?_escape (c : CodePoint) (t : Text) :
    closingLength? multiline (scalar '\\' :: c :: t)
      = (closingLength? multiline t).map (· + 2) := by
  simp [closingLength?]

theorem closingLength?_plain {c : CodePoint} (hquote : c ≠ scalar '"') (hslash : c ≠ scalar '\\')
    (hline : c ≠ Text.newline) (t : Text) :
    closingLength? multiline (c :: t) = (closingLength? multiline t).map (· + 1) := by
  rw [closingLength?.eq_4 multiline c t (fun _ _ h _ => hslash h) (fun h _ => hslash h),
    if_neg hquote, if_neg (by simp [hline])]

/-- What stands for a code point does not close the string. -/
theorem closingLength?_stringUnit (c : CodePoint) (t : Text) :
    closingLength? multiline (stringUnit c ++ t)
      = (closingLength? multiline t).map (· + (stringUnit c).length) := by
  obtain ⟨x, hunit, -, -⟩ | ⟨hcontrol, hunit⟩ | ⟨hunit, hquote, hslash, hline, -⟩ :=
    stringUnit_cases c
  · rw [hunit]
    exact closingLength?_escape multiline x t
  · -- The four digits of an escape by number are plain code points of the string.
    obtain ⟨hquote, hslash, hline⟩ := hexDigit_ne (c.val / 16) (by omega)
    obtain ⟨hquote', hslash', hline'⟩ := hexDigit_ne (c.val % 16) (by omega)
    simp only [hunit, List.cons_append, List.nil_append]
    rw [closingLength?_escape, closingLength?_plain multiline (by decide) (by decide) (by decide),
      closingLength?_plain multiline (by decide) (by decide) (by decide),
      closingLength?_plain multiline hquote hslash hline,
      closingLength?_plain multiline hquote' hslash' hline']
    simp [Function.comp_def]
  · rw [hunit]
    exact closingLength?_plain multiline hquote hslash hline t

/-- A string ends at the quote that was put behind its content. -/
theorem closingLength?_spelled (content rest : Text) :
    closingLength? multiline (content.flatMap stringUnit ++ scalar '"' :: rest)
      = some ((content.flatMap stringUnit).length + 1) := by
  induction content with
  | nil => exact closingLength?_quote multiline rest
  | cons c content ih =>
    rw [List.flatMap_cons, List.append_assoc, closingLength?_stringUnit, ih, Option.map_some,
      List.length_append]
    simp only [Option.some.injEq]
    omega

end Closing

/-! ## What a string denotes -/

/-- A control character that is spelled by its number is read back. -/
theorem escape_number (whole : Nat) {c : CodePoint} (hc : c.val < 0x20) {t : Text} (ht : t ≠ []) :
    escape whole (scalar 'u' :: scalar '0' :: scalar '0' :: hexDigit (c.val / 16) ::
      hexDigit (c.val % 16) :: t) = .ok (c, t) := by
  have hdigits := fourDigits?_spelled (n := c.val) (by omega) ht
  have hhigh : isHigh c.val = false := by
    simp only [isHigh, Bool.and_eq_false_imp, decide_eq_true_eq, decide_eq_false_iff_not]
    omega
  have hpair : pairWith? c.val t = .ok (ofNumber c.val, t) := by
    unfold pairWith?
    split
    · rw [hhigh]
      rfl
    · rfl
  rw [escape, if_pos rfl, hdigits]
  simp only [hpair, ofNumber, CodePoint.ofNat?_val, Option.getD_some]

/-- The string goes on behind an escape. -/
theorem stringBody_escape {whole : Nat} {x : CodePoint} {t t' : Text}
    (h : escape whole t = .ok (x, t')) :
    stringBody whole (scalar '\\' :: t) = (stringBody whole t').map (x :: ·) := by
  rw [stringBody, if_neg (by decide), if_pos rfl]
  split
  · next f hf => rw [h] at hf; contradiction
  · next y u hy =>
    rw [h, Except.ok.injEq, Prod.mk.injEq] at hy
    obtain ⟨rfl, rfl⟩ := hy
    rfl

/-- What stands for a code point is read as the code point. -/
theorem stringBody_stringUnit (whole : Nat) (c : CodePoint) {t : Text} (ht : t ≠ []) :
    stringBody whole (stringUnit c ++ t) = (stringBody whole t).map (c :: ·) := by
  -- what stands for a code point is a short escape, a numbered escape or itself
  obtain ⟨x, hunit, hx, hshort⟩ | ⟨hcontrol, hunit⟩ | ⟨hunit, hquote, hslash, -, hcontrol⟩ :=
    stringUnit_cases c
  · have hescape : escape whole (x :: t) = .ok (c, t) := by
      rw [escape, if_neg hx, hshort]
    rw [hunit]
    exact stringBody_escape hescape
  · rw [hunit]
    exact stringBody_escape (escape_number whole hcontrol ht)
  · rw [hunit, List.singleton_append, stringBody, if_neg hquote, if_neg hslash, if_neg hcontrol]

/-- A string denotes the content that it was spelled from. -/
theorem stringBody_spelled (whole : Nat) (content rest : Text) :
    stringBody whole (content.flatMap stringUnit ++ scalar '"' :: rest) = .ok content := by
  induction content with
  | nil => rw [List.flatMap_nil, List.nil_append, stringBody, if_pos rfl]
  | cons c content ih =>
    rw [List.flatMap_cons, List.append_assoc, stringBody_stringUnit whole c (by simp), ih]
    rfl

/-- A string that has been spelled is read back. -/
@[simp]
theorem decodeString_encodeString (content : Text) :
    decodeString (encodeString content) = .ok content :=
  stringBody_spelled _ content []

end Json

end Dialects
