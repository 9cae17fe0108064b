import Dialects.Text.CodePoint

/-!
# Runs of code points

How `Text.spanLength` behaves on a text that is followed by another one. A run ends where the text
behind it stops it (`Text.Stops`), so that cutting a lexeme off a text does not depend on what comes
later. A fixed spelling is found if it is how the text starts.
-/

namespace Dialects.Text

/-- The text does not start with a code point that satisfies `p`. -/
def Stops (p : CodePoint → Bool) (t : Text) : Prop := ∀ c ∈ t.head?, p c = false

/-- Nothing follows the end of a text. -/
@[simp]
theorem stops_nil (p : CodePoint → Bool) : Stops p [] := by
  simp [Stops]

/-- Only the first code point counts. -/
@[simp]
theorem stops_cons (p : CodePoint → Bool) (c : CodePoint) (t : Text) :
    Stops p (c :: t) ↔ p c = false := by
  simp [Stops]

/-- A text that stops a class of code points stops every smaller class. -/
theorem Stops.mono {p q : CodePoint → Bool} {t : Text} (hstops : Stops q t)
    (hle : ∀ c, p c = true → q c = true) : Stops p t := by
  intro c hc
  have hq : q c = false := hstops c hc
  cases hp : p c with
  | false => rfl
  | true => rw [hle c hp] at hq; contradiction

/-- What stops a run at the end of a text also stops it behind a text that is put in front. -/
theorem Stops.append {p : CodePoint → Bool} {t rest : Text} (ht : Stops p t)
    (hrest : Stops p rest) : Stops p (t ++ rest) := by
  cases t with
  | nil => exact hrest
  | cons c t => simpa using ht

@[simp]
theorem spanLength_nil (p : CodePoint → Bool) : spanLength p [] = 0 := rfl

/-- A run that has begun goes on. -/
theorem spanLength_cons_of_pos {p : CodePoint → Bool} {c : CodePoint} (h : p c = true) (t : Text) :
    spanLength p (c :: t) = spanLength p t + 1 := by
  simp [spanLength, h]

/-- A run does not begin with a code point outside the class. -/
theorem spanLength_cons_of_neg {p : CodePoint → Bool} {c : CodePoint} (h : p c = false) (t : Text) :
    spanLength p (c :: t) = 0 := by
  simp [spanLength, h]

/-- A run is part of the text. -/
theorem spanLength_le (p : CodePoint → Bool) (t : Text) : spanLength p t ≤ t.length :=
  (List.takeWhile_prefix p).length_le

/-- A text that stops a run has none at its start. -/
theorem Stops.spanLength_eq_zero {p : CodePoint → Bool} {t : Text} (h : Stops p t) :
    spanLength p t = 0 := by
  cases t with
  | nil => rfl
  | cons c t => exact spanLength_cons_of_neg (by simpa using h) t

/-- A run does not reach into a text that stops it. -/
theorem spanLength_append {p : CodePoint → Bool} {rest : Text} (hstops : Stops p rest) (t : Text) :
    spanLength p (t ++ rest) = spanLength p t := by
  induction t with
  | nil => simpa using hstops.spanLength_eq_zero
  | cons c t ih =>
    rw [List.cons_append]
    cases hc : p c with
    | true => rw [spanLength_cons_of_pos hc, spanLength_cons_of_pos hc, ih]
    | false => rw [spanLength_cons_of_neg hc, spanLength_cons_of_neg hc]

/-- A run over the whole of a text goes on in the text behind it. -/
theorem spanLength_append_of_all {p : CodePoint → Bool} {t : Text} (hall : ∀ c ∈ t, p c = true)
    (rest : Text) : spanLength p (t ++ rest) = t.length + spanLength p rest := by
  simp [spanLength, List.takeWhile_append_of_pos hall]

/-- The run at the start of a text is all that a run at the start of the text cut off there is. -/
theorem spanLength_take (p : CodePoint → Bool) (n : Nat) (t : Text) :
    spanLength p (t.take n) = min n (spanLength p t) := by
  -- on the text, with the length that is kept getting shorter with it
  induction t generalizing n with
  | nil => simp
  | cons c t ih =>
    cases n with
    | zero => simp
    | succ n =>
      rw [List.take_succ_cons]
      cases hc : p c with
      | true => rw [spanLength_cons_of_pos hc, spanLength_cons_of_pos hc, ih]; omega
      | false => rw [spanLength_cons_of_neg hc, spanLength_cons_of_neg hc]; simp

/-- A text is the run at its start and what stops that run. -/
theorem exists_run (p : CodePoint → Bool) (t : Text) :
    ∃ run rest, t = run ++ rest ∧ run.length = spanLength p t ∧ (∀ c ∈ run, p c = true) ∧
      Stops p rest := by
  refine ⟨t.takeWhile p, t.dropWhile p, List.takeWhile_append_dropWhile.symm, rfl,
    List.all_eq_true.mp List.all_takeWhile, fun c hc => ?_⟩
  have hhead := List.head?_dropWhile_not p t
  rw [Option.mem_def.mp hc] at hhead
  simpa using hhead

/-- A spelling at the start of a text. -/
theorem startsWith_iff {lead t : Text} : startsWith t lead = true ↔ lead <+: t := by
  induction lead generalizing t with
  | nil => cases t <;> simp [startsWith, after?]
  | cons a lead ih =>
    cases t with
    | nil => simp [startsWith, after?]
    | cons c t =>
      rw [List.cons_prefix_cons, ← ih]
      simp only [startsWith, after?]
      split <;> simp_all

end Dialects.Text
