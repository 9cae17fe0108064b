import Dialects.Proofs.Text.CodePoint
import Dialects.Proofs.Text.Span
import Dialects.Script.Lexeme

/-!
# What lexemes do not see

Most lexemes end before a blank, a semicolon, a slash, an opening angle bracket or an asterisk, and
nothing behind such a code point makes a difference to them: they are blind to it (`Blind`). The
exceptions are blanks, comments, operators, strings and regular expressions.
-/

namespace Dialects

open CodePoint (scalar)
open Text (Stops spanLength startsWith_iff)

/-! ## Borders -/

namespace CodePoint

/-- A code point that no number, name or word holds: a blank, or one of the marks that end
statements, open or close comments, or may be lengthened by what opens a comment. -/
def isBorder (c : CodePoint) : Bool :=
  c.isBlank || c == scalar ';' || c == scalar '/' || c == scalar '<' || c == scalar '*'

/-- The numbers of these code points. -/
def borderNumbers : List Nat :=
  (blanks.flatMap fun r => List.range' r.1 (r.2 + 1 - r.1)) ++ [0x3B, 0x2F, 0x3C, 0x2A]

theorem val_of_isBorder {c : CodePoint} (h : c.isBorder = true) : c.val ∈ borderNumbers := by
  simp only [isBorder, Bool.or_eq_true, beq_iff_eq] at h
  obtain (((hblank | rfl) | rfl) | rfl) | rfl := h
  · obtain ⟨r, hr, hlo, hhi⟩ := Ranges.exists_of_contains hblank
    refine List.mem_append_left _ (List.mem_flatMap.mpr ⟨r, hr, ?_⟩)
    rw [List.mem_range'_1]
    omega
  all_goals decide

/-- A class has no borders if it does not have the numbers of any. -/
theorem eq_false_of_isBorder {p : CodePoint → Bool}
    (hp : ∀ n ∈ borderNumbers, ∀ c ∈ ofNat? n, p c = false) {c : CodePoint}
    (h : c.isBorder = true) : p c = false :=
  hp c.val (val_of_isBorder h) c (ofNat?_val c)

theorem isWord_of_isBorder {c : CodePoint} (h : c.isBorder = true) : c.isWord = false :=
  eq_false_of_isBorder (by decide +kernel) h

theorem continuesName_of_isBorder {c : CodePoint} (h : c.isBorder = true) :
    c.continuesName = false :=
  eq_false_of_isBorder (by decide +kernel) h

theorem isHexDigit_of_isBorder {c : CodePoint} (h : c.isBorder = true) : c.isHexDigit = false :=
  eq_false_of_isBorder (by decide +kernel) h

theorem startsName_of_isBorder {c : CodePoint} (h : c.isBorder = true) : c.startsName = false := by
  cases hc : c.startsName with
  | false => rfl
  | true =>
    have hcontinues := continuesName_of_startsName hc
    rw [continuesName_of_isBorder h] at hcontinues
    contradiction

end CodePoint

namespace Script

open CodePoint

/-- A text that starts with a border, or an empty one. A space is not one before an opening brace,
since the two may be part of the head of a method. -/
structure Border (t : Text) : Prop where
  head : ∀ c ∈ t.head?, c.isBorder = true
  brace : ∀ rest, t ≠ scalar ' ' :: scalar '{' :: rest

theorem border_nil : Border [] :=
  ⟨fun c hc => by contradiction, fun rest h => by contradiction⟩

/-- A border ends every run of code points that are none. -/
theorem Border.stops {p : CodePoint → Bool} {t : Text} (h : Border t)
    (hp : ∀ c, c.isBorder = true → p c = false) : Stops p t :=
  fun c hc => hp c (h.head c hc)

theorem Border.ne_cons {t : Text} (h : Border t) {c : CodePoint} (hc : c.isBorder = false)
    (rest : Text) : t ≠ c :: rest := by
  rintro rfl
  have hborder := h.head c rfl
  rw [hc] at hborder
  contradiction

/-- The length that a rule gives depends on no border and on nothing behind it. -/
structure Blind (f : Text → Option Nat) : Prop where
  append : ∀ {x y : Text}, x ≠ [] → Border y → f (x ++ y) = f x
  le : ∀ {x : Text} {n : Nat}, f x = some n → n ≤ x.length

variable {x y : Text}

/-! ## Runs and heads -/

/-- Classes of code points that have no borders. -/
def Unbordered (p : CodePoint → Bool) : Prop := ∀ c, c.isBorder = true → p c = false

theorem spanLength_border {p : CodePoint → Bool} (hp : Unbordered p) (hy : Border y) (x : Text) :
    spanLength p (x ++ y) = spanLength p x :=
  Text.spanLength_append (hy.stops hp) x

theorem headIs_border {p : CodePoint → Bool} (hp : Unbordered p) (hy : Border y) (x : Text) :
    Lexeme.headIs p (x ++ y) = Lexeme.headIs p x := by
  cases x with
  | cons c x => rfl
  | nil =>
    cases y with
    | nil => rfl
    | cons c y => exact hp c (hy.head c rfl)

theorem unbordered_isBetween {lo hi : Char}
    (hp : ∀ n ∈ borderNumbers, n < lo.toNat ∨ hi.toNat < n) : Unbordered (·.isBetween lo hi) := by
  intro c hc
  cases hb : c.isBetween lo hi with
  | false => exact hb
  | true =>
    obtain ⟨hlo, hhi⟩ := val_of_isBetween hb
    have hout := hp c.val (val_of_isBorder hc)
    omega

theorem unbordered_isDigit : Unbordered (·.isDigit) := unbordered_isBetween (by decide)

/-! ## Fixed spellings -/

/-- A spelling without borders is found in front of a border, or not at all. -/
theorem startsWith_border {s : Text} (hs : ∀ c ∈ s, c.isBorder = false) (hy : Border y)
    (x : Text) : Text.startsWith (x ++ y) s = Text.startsWith x s := by
  induction s generalizing x with
  | nil => cases x <;> cases y <;> rfl
  | cons a s ih =>
    obtain ⟨ha, hs⟩ := List.forall_mem_cons.mp hs
    cases x with
    | nil =>
      cases y with
      | nil => rfl
      | cons c y =>
        have hne : a ≠ c := fun heq => hy.ne_cons (heq ▸ ha) y rfl
        simp [Text.startsWith, Text.after?, hne]
    | cons c x =>
      have hrest := ih hs x
      simp only [Text.startsWith, List.cons_append, Text.after?] at hrest ⊢
      split
      · exact hrest
      · rfl

/-- Only the first code point of a spelling may be a border. -/
theorem blind_exactly {s : String} (hs : ∀ c ∈ (Text.ofString s).tail, c.isBorder = false) :
    Blind (Lexeme.exactly? s) := by
  have hlength : (Text.ofString s).length = s.length := by
    rw [Text.ofString, List.length_map, String.length_toList]
  refine ⟨fun {x y} hx hy => ?_, fun {x n} hn => ?_⟩
  · obtain ⟨c, x, rfl⟩ := List.exists_cons_of_ne_nil hx
    -- No border is spelled behind the first code point, so that the comparison ends in front of
    -- `y`.
    have hsame : Text.startsWith (c :: x ++ y) (Text.ofString s)
        = Text.startsWith (c :: x) (Text.ofString s) := by
      cases hspelling : Text.ofString s with
      | nil => rfl
      | cons a s =>
        rw [hspelling] at hs
        have hrest := startsWith_border hs hy x
        simp only [Text.startsWith, List.cons_append, Text.after?] at hrest ⊢
        split
        · exact hrest
        · rfl
    rw [Lexeme.exactly?, Lexeme.exactly?, hsame]
  · rw [Lexeme.exactly?] at hn
    split at hn
    · next hstarts =>
      obtain rfl := Option.some.inj hn
      rw [← hlength]
      exact (startsWith_iff.mp hstarts).length_le
    · contradiction

theorem blind_longMark : Blind Lexeme.longMark? := by
  have hdots : Blind (Lexeme.exactly? "...") := blind_exactly (by decide)
  have harrow : Blind (Lexeme.exactly? "=>") := blind_exactly (by decide)
  refine ⟨fun hx hy => ?_, fun {x n} hn => ?_⟩
  · rw [Lexeme.longMark?, Lexeme.longMark?, hdots.append hx hy, harrow.append hx hy]
  · rw [Lexeme.longMark?] at hn
    cases hd : Lexeme.exactly? "..." x with
    | some m =>
      rw [hd] at hn
      obtain rfl := Option.some.inj hn
      exact hdots.le hd
    | none =>
      rw [hd] at hn
      exact harrow.le hn

theorem blind_oneOf (cs : List Char) : Blind (Lexeme.oneOf? cs) := by
  refine ⟨fun {x y} hx hy => ?_, fun {x n} hn => ?_⟩
  · obtain ⟨c, x, rfl⟩ := List.exists_cons_of_ne_nil hx
    cases c with
    | scalar c => rfl
    | surrogate k => rfl
  · cases x with
    | nil => contradiction
    | cons c x =>
      cases c with
      | surrogate k => contradiction
      | scalar c =>
        simp only [Lexeme.oneOf?] at hn
        split at hn
        · obtain rfl := Option.some.inj hn
          exact Nat.succ_le_succ (Nat.zero_le _)
        · contradiction

end Script

end Dialects
