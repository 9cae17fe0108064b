import Dialects.Proofs.Json.Lexing
import Dialects.Proofs.Json.WellFormed

/-!
# A printed document and its lexemes

`Layout.lexemes` lists the lexemes of a document without the blanks between them. The text that
`Layout.value` makes of a document is cut into just these (`Layout.reads_value`), in the dialect in
which it was printed and, if that is the canonical one, also in the lenient dialect.
-/

namespace Dialects.Json

open CodePoint (scalar)
open Value (WellFormed)

/-- A punctuation mark as a lexeme. -/
def markLexeme (c : Char) : Kind × Text := (.punctuation, [scalar c])

namespace Layout

/-- What separates the items of an array and the members of an object. -/
def separatorLexemes (l : Layout) : List (Kind × Text) :=
  match l.style with
  | .canonical => [markLexeme ',']
  | .lenient => []

/-- A key as a lexeme. -/
def keyLexeme (l : Layout) (k : Text) : Kind × Text :=
  if l.style = .lenient && isWord k && (reserved? k).isNone then (.word, k)
  else (.string, encodeString k)

mutual

/-- The lexemes of a value. -/
def lexemes (l : Layout) : Value → List (Kind × Text)
  | .null => [(.word, Text.ofString "null")]
  | .bool true => [(.word, Text.ofString "true")]
  | .bool false => [(.word, Text.ofString "false")]
  | .number spelling => [(.number, spelling)]
  | .string content => [(.string, encodeString content)]
  | .array items =>
    markLexeme '[' :: (l.separatorLexemes.intercalate (l.itemLexemes items) ++ [markLexeme ']'])
  | .object members =>
    markLexeme '{' :: (l.separatorLexemes.intercalate (l.memberLexemes members) ++ [markLexeme '}'])

/-- The lexemes of each item of an array. -/
def itemLexemes (l : Layout) : List Value → List (List (Kind × Text))
  | [] => []
  | v :: vs => l.lexemes v :: l.itemLexemes vs

/-- The lexemes of each member of an object. -/
def memberLexemes (l : Layout) : List (Text × Value) → List (List (Kind × Text))
  | [] => []
  | (k, v) :: ms => (l.keyLexeme k :: markLexeme ':' :: l.lexemes v) :: l.memberLexemes ms

end

/-! ## Items and members one by one -/

variable (l : Layout)

theorem items_eq_map (level : Nat) (vs : List Value) :
    l.items level vs = vs.map (l.value level) := by
  induction vs with
  | nil => rfl
  | cons v vs ih => rw [items, ih, List.map_cons]

theorem itemLexemes_eq_map (vs : List Value) : l.itemLexemes vs = vs.map l.lexemes := by
  induction vs with
  | nil => rfl
  | cons v vs ih => rw [itemLexemes, ih, List.map_cons]

/-- A member as it is printed. -/
def member (level : Nat) (m : Text × Value) : Text :=
  l.key m.1 ++ scalar ':' :: scalar ' ' :: l.value level m.2

theorem members_eq_map (level : Nat) (ms : List (Text × Value)) :
    l.members level ms = ms.map (l.member level) := by
  induction ms with
  | nil => rfl
  | cons m ms ih => rw [members, ih, List.map_cons, member, List.append_assoc]; rfl

theorem memberLexemes_eq_map (ms : List (Text × Value)) :
    l.memberLexemes ms
      = ms.map fun m => l.keyLexeme m.1 :: markLexeme ':' :: l.lexemes m.2 := by
  induction ms with
  | nil => rfl
  | cons m ms ih => rw [memberLexemes, ih, List.map_cons]

end Layout

/-! ## The text is cut into the lexemes -/

theorem separates_of_head {c : CodePoint} {t : Text}
    (h : c = Text.newline ∨ Token.isPunctuation c = true) : Separates (c :: t) := by
  refine (Text.stops_cons _ c t).mpr ?_
  obtain rfl | h := h
  · decide
  · simp only [Token.isPunctuation, List.contains_eq_mem, List.mem_cons, List.not_mem_nil,
      or_false, decide_eq_true_eq] at h
    obtain rfl | rfl | rfl | rfl | rfl | rfl := h <;> decide

/-- Indentation may stand in front of any text. -/
theorem Reads.margin {s : Style} {t : Text} {ls : List (Kind × Text)} (h : Reads s t ls)
    (l : Layout) (level : Nat) : Reads s (l.margin level ++ t) ls := by
  unfold Layout.margin
  generalize l.indent * level = n
  induction n with
  | zero => exact h
  | succ n ih => exact ih.blank (Or.inl rfl)

/-- What stands between two items is cut into what separates them. -/
theorem Reads.separator {s : Style} {t : Text} {ls : List (Kind × Text)} (h : Reads s t ls)
    (l : Layout) :
    Reads s (l.separator ++ t) (l.separatorLexemes ++ ls) ∧ Separates (l.separator ++ t) := by
  unfold Layout.separator Layout.separatorLexemes
  cases l.style with
  | canonical =>
    exact ⟨(h.blank (Or.inr rfl)).mark (by decide), separates_of_head (Or.inr (by decide))⟩
  | lenient => exact ⟨h.blank (Or.inr rfl), separates_of_head (Or.inl rfl)⟩

section Dialect

variable {s : Style} {l : Layout}

theorem Reads.intercalate {α : Type} (f : α → Text) (g : α → List (Kind × Text)) (level : Nat)
    {xs : List α} (h : ∀ x ∈ xs, Reads s (f x) (g x)) (hne : xs ≠ []) :
    Reads s (l.separator.intercalate ((xs.map f).map (l.margin level ++ ·)))
      (l.separatorLexemes.intercalate (xs.map g)) := by
  induction xs with
  | nil => contradiction
  | cons x xs ih =>
    obtain ⟨hx, hxs⟩ := List.forall_mem_cons.mp h
    cases xs with
    | nil => simpa using hx.margin l level
    | cons y ys =>
      obtain ⟨hrest, hsep⟩ := (ih hxs (List.cons_ne_nil y ys)).separator l
      have hfirst := (hx.margin l level).append hrest hsep
      simp only [List.map_cons, List.intercalate_cons_cons, List.append_assoc] at hfirst ⊢
      exact hfirst

/-- Brackets and what they enclose are cut into what they enclose between brackets. -/
theorem Reads.enclose {opener closer : Char} (hopener : Token.isPunctuation (scalar opener) = true)
    (hcloser : Token.isPunctuation (scalar closer) = true)
    {α : Type} (f : α → Text) (g : α → List (Kind × Text)) (level : Nat)
    {xs : List α} (h : ∀ x ∈ xs, Reads s (f x) (g x)) :
    Reads s (l.enclose opener closer level (xs.map f))
      (markLexeme opener :: (l.separatorLexemes.intercalate (xs.map g) ++ [markLexeme closer])) := by
  have hclose : Reads s [scalar closer] [markLexeme closer] := Reads.lexeme (.mark _ hcloser)
  cases xs with
  | nil => exact hclose.mark hopener
  | cons x xs =>
    -- the entries are separated by marks and blanks, and the closing bracket stands on its own
    -- line
    have hinner := Reads.intercalate (l := l) f g (level + 1) h (List.cons_ne_nil x xs)
    have houter := hinner.append ((hclose.margin l level).blank (Or.inr rfl))
      (separates_of_head (Or.inl rfl))
    have hwhole := (houter.blank (Or.inr rfl)).mark hopener
    rw [Layout.enclose, if_neg (by simp)]
    simpa [markLexeme] using hwhole

variable (hstyle : l.style = .canonical ∨ s = .lenient)

include hstyle

/-- A key is cut off as a word or as a string. -/
theorem Reads.key (k : Text) : Reads s (l.key k) [l.keyLexeme k] := by
  unfold Layout.key Layout.keyLexeme
  split
  · next hbare =>
    simp only [Bool.and_eq_true, decide_eq_true_eq] at hbare
    obtain ⟨⟨hlenient, hword⟩, -⟩ := hbare
    have hs : s = .lenient := hstyle.resolve_left (by rw [hlenient]; decide)
    exact Reads.lexeme (.word k hs hword)
  · exact Reads.lexeme (.string k)

/-- A printed value is cut into the lexemes of the value. -/
theorem Layout.reads_value {v : Value} (h : v.WellFormed) (level : Nat) :
    Reads s (l.value level v) (l.lexemes v) := by
  -- the level decides about indentation only, which is no lexeme
  induction h generalizing level with
  | null => exact Reads.lexeme (.reserved _ .null rfl)
  | bool b =>
    cases b with
    | true => exact Reads.lexeme (.reserved _ (.bool true) rfl)
    | false => exact Reads.lexeme (.reserved _ (.bool false) rfl)
  | number t hnumber => exact Reads.lexeme (.number t hnumber)
  | string content => exact Reads.lexeme (.string content)
  | array items _ ih =>
    rw [Layout.value, Layout.lexemes, l.items_eq_map, l.itemLexemes_eq_map]
    exact Reads.enclose (by decide) (by decide) _ _ level
      fun v hv => ih v hv (level + 1)
  | object members _ ih =>
    rw [Layout.value, Layout.lexemes, l.members_eq_map, l.memberLexemes_eq_map]
    refine Reads.enclose (by decide) (by decide) _ _ level fun m hm => ?_
    have hvalue := ((ih m hm (level + 1)).blank (Or.inl rfl)).mark
      (c := scalar ':') (by decide)
    exact (Reads.key hstyle m.1).append hvalue (separates_of_head (Or.inr (by decide)))

/-- A printed document is cut into the lexemes of its value. -/
theorem Layout.lexIn_document {v : Value} (h : v.WellFormed) :
    ∃ ts : List Token, ts.map Token.lexeme = l.lexemes v ∧
      lexIn s 0 (l.document v) = .ok ts := by
  -- the line break behind the value is a blank, and no token starts there
  have hline : Reads s [Text.newline] [] := by
    intro offset rest _
    refine ⟨[], rfl, ?_⟩
    rw [List.singleton_append, lexIn_blank (Or.inr rfl), List.length_singleton]
    cases lexIn s (offset + 1) rest <;> rfl
  have hdocument :=
    (Layout.reads_value hstyle h 0).append hline (separates_of_head (Or.inl rfl))
  rw [List.append_nil] at hdocument
  exact hdocument.lexIn_zero

end Dialect

end Dialects.Json
