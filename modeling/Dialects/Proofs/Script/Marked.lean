import Dialects.Proofs.Script.Gaps
import Dialects.Proofs.Script.Lexed
import Dialects.Script.Lenient

/-!
# Tokens that are left out

The tokens of a script are marked with whether the lenient dialect leaves them out. It leaves out
semicolons only, at the ends of lines (`Sound`), so that a text without them has a gap there. While
the tokens left are read again, the lexer is either in the state in which it was before, or it has
only missed a semicolon (`Follows`).
-/

namespace Dialects.Script

open CodePoint (scalar)

variable {s s' : LexState} {t u : Token} {ts : List Token} {ms : List (Token × Bool)}

/-- All the tokens. -/
def whole (ms : List (Token × Bool)) : List Token := ms.map Prod.fst

/-- The tokens that are not left out. -/
def remaining (ms : List (Token × Bool)) : List Token := (ms.filter fun p => !p.2).map Prod.fst

@[simp]
theorem whole_nil : whole [] = [] := rfl

@[simp]
theorem whole_cons (p : Token × Bool) (ms : List (Token × Bool)) :
    whole (p :: ms) = p.1 :: whole ms := rfl

@[simp]
theorem remaining_nil : remaining [] = [] := rfl

/-- A token that is kept is among those that remain. -/
@[simp]
theorem remaining_kept (t : Token) (ms : List (Token × Bool)) :
    remaining ((t, false) :: ms) = t :: remaining ms := rfl

/-- A token that is left out is not among those that remain. -/
@[simp]
theorem remaining_dropped (t : Token) (ms : List (Token × Bool)) :
    remaining ((t, true) :: ms) = remaining ms := rfl

/-- Only semicolons at the ends of lines are left out, and the next line does not join then. -/
def Sound : List (Token × Bool) → Prop
  | [] => True
  | (t, dropped) :: ms =>
    (dropped = true → t.isSemicolon = true ∧ Token.lineEnds (whole ms) = true ∧
      (Token.nextSignificant? (whole ms)).any joinsLine = false) ∧ Sound ms

/-- The tokens as the lenient dialect marks them. -/
def marked (pending : List Bracket) (ts : List Token) : List (Token × Bool) :=
  ts.zip (Lenient.redundant pending ts)

/-- The brackets that are open behind a token, given those that are open in front of it. -/
def nested (pending : List Bracket) (t : Token) : List Bracket :=
  match t.opens?, t.closes? with
  | some b, _ => b :: pending
  | none, some _ => pending.tail
  | none, none => pending

/-- A bracket is never left out. -/
theorem redundant_cons (pending : List Bracket) (t : Token) (ts : List Token) :
    Lenient.redundant pending (t :: ts) =
      (t.opens?.isNone && t.closes?.isNone && Lenient.isRedundant pending t ts) ::
        Lenient.redundant (nested pending t) ts := by
  rw [Lenient.redundant, nested]
  cases t.opens? with
  | some b => rfl
  | none => cases t.closes? <;> rfl

/-- The lenient dialect marks the first token by what is open around it and what follows, and no
bracket. -/
theorem marked_cons (pending : List Bracket) (t : Token) (ts : List Token) :
    marked pending (t :: ts) =
      (t, (t.opens?.isNone && t.closes?.isNone && Lenient.isRedundant pending t ts)) ::
        marked (nested pending t) ts := by
  rw [marked, redundant_cons]
  rfl

theorem whole_marked (pending : List Bracket) (ts : List Token) :
    whole (marked pending ts) = ts := by
  induction ts generalizing pending with
  | nil => rfl
  | cons t ts ih => rw [marked_cons, whole_cons, ih]

/-- The lenient dialect marks no other tokens than semicolons at the ends of lines. -/
theorem sound_marked (pending : List Bracket) (ts : List Token) : Sound (marked pending ts) := by
  induction ts generalizing pending with
  | nil => trivial
  | cons t ts ih =>
    rw [marked_cons]
    refine ⟨fun hdropped => ?_, ih _⟩
    rw [whole_marked]
    -- what is left out is redundant, which is what soundness asks for
    simp only [Lenient.isRedundant, Bool.and_eq_true, Bool.not_eq_true'] at hdropped
    obtain ⟨-, ⟨⟨hsemicolon, -⟩, hends⟩, hnext⟩ := hdropped
    exact ⟨hsemicolon, hends, hnext⟩

/-! ## Blank space and comments in a text -/

/-- A semicolon is a punctuation token of this one character. -/
theorem isSemicolon_iff : t.isSemicolon = true ↔ t.kind = .punctuation ∧ t.value = [scalar ';'] := by
  rw [Token.isSemicolon, Token.spells, Bool.and_eq_true, beq_iff_eq, beq_iff_eq]
  rfl

theorem significant_of_semicolon (h : t.isSemicolon = true) : t.isSignificant = true := by
  obtain ⟨hkind, hvalue⟩ := isSemicolon_iff.mp h
  rw [Token.isSignificant, Token.isComment, hkind, hvalue]
  rfl

/-- A token is of no significance if it is blank or a comment. -/
theorem insignificant_iff :
    t.isSignificant = false ↔ Text.isBlank t.value = true ∨ t.kind = .comment := by
  rw [Token.isSignificant, Token.isComment]
  simp only [Bool.and_eq_false_iff, Bool.not_eq_false', beq_iff_eq]

/-- A line that ends goes on with blank space or with a comment. -/
theorem insignificant_of_lineEnds (h : Token.lineEnds (t :: ts) = true) :
    t.isSignificant = false := by
  rw [Token.lineEnds, Bool.or_eq_true] at h
  obtain hbreaks | hrest := h
  · -- a line break is in a blank or a comment, or comes behind some of these
    rw [Token.breaksLine, Bool.and_eq_true, Bool.or_eq_true] at hbreaks
    obtain hblank | hcomment := hbreaks.2
    · exact insignificant_iff.mpr (Or.inl hblank)
    · exact insignificant_iff.mpr (Or.inr (beq_iff_eq.mp hcomment))
  · rw [Bool.and_eq_true, Bool.not_eq_true'] at hrest
    exact hrest.1

/-- A text with a length that is not zero is not empty. -/
theorem ne_nil_of_length {x : Text} {n : Nat} (h : x.length = n + 1) : x ≠ [] := by
  rintro rfl
  contradiction

/-- What blank space and comments start with. -/
theorem head_of_insignificant {a : Step} {rest : Text}
    (hfirst : Step.first? s (t.value ++ rest) = some a) (hkind : t.kind = a.kind)
    (hne : t.value ≠ []) (h : t.isSignificant = false) :
    ∃ c value, t.value = c :: value ∧
      (c.isBlank = true ∨ c = scalar '/' ∨ c = scalar '<' ∨
        c = scalar '#' ∧ s.previous = none) := by
  obtain ⟨c, value, hvalue⟩ := List.exists_cons_of_ne_nil hne
  refine ⟨c, value, hvalue, ?_⟩
  obtain hblank | hcomment := insignificant_iff.mp h
  · rw [hvalue] at hblank
    exact Or.inl (List.all_eq_true.mp hblank c List.mem_cons_self)
  · right
    rw [hvalue] at hfirst
    -- A comment is found by the rule for comments, or is the line at the very start of a script.
    obtain hfound | ⟨hstart, -, hline⟩ := comment_of_kind hfirst (hkind ▸ hcomment)
    · obtain ⟨d, rest', heq, hd⟩ := head_of_comment hfound
      obtain rfl := (List.cons.inj heq).1
      obtain hslash | hangle := hd
      · exact Or.inl hslash
      · exact Or.inr (Or.inl hangle)
    · refine Or.inr (Or.inr ⟨?_, hstart⟩)
      refine Decidable.byContradiction fun hc => ?_
      rw [List.cons_append, shebang_of_ne hc] at hline
      contradiction

/-- A token without significance does not start with a semicolon. -/
theorem ne_semicolon_of_insignificant {a : Step} {rest : Text}
    (hfirst : Step.first? s (t.value ++ rest) = some a) (hkind : t.kind = a.kind)
    (hne : t.value ≠ []) (h : t.isSignificant = false) :
    t.value.head? ≠ some (scalar ';') := by
  obtain ⟨c, value, hvalue, hc⟩ := head_of_insignificant hfirst hkind hne h
  rw [hvalue]
  intro heq
  obtain rfl := Option.some.inj heq
  obtain hc | hc | hc | ⟨hc, -⟩ := hc <;> contradiction

/-! ## Gaps -/

/-- The first of the tokens that are read is the one that the first step finds. -/
theorem Lexed.split {dropped : Bool} (h : Lexed s (whole ((t, dropped) :: ms))) :
    ∃ a, Step.first? s (t.value ++ Token.join (whole ms)) = some a ∧ t.kind = a.kind ∧
      t.value.length = a.length - 1 + 1 ∧ Lexed (a.after t.value) (whole ms) := by
  cases h with
  | cons first kind length rest => exact ⟨_, first, kind, length, rest⟩

/-- A text that is not empty has a last code point. -/
theorem getLast_ne_none {x : Text} (h : x ≠ []) : x.getLast? ≠ none := by
  rw [Ne, List.getLast?_eq_none_iff]
  exact h

/-- The state after a semicolon in code. -/
def LexState.afterSemicolon (s : LexState) : LexState :=
  ⟨.code true, s.interpolations, some (scalar ';')⟩

/-- A semicolon is read in code, and the tokens behind it are read in the state behind a
semicolon. -/
theorem Lexed.of_semicolon (h : Lexed s (t :: ts)) (ht : t.isSemicolon = true) :
    (∃ b, s.mode = .code b) ∧ Lexed s.afterSemicolon ts := by
  obtain ⟨hkind, hvalue⟩ := isSemicolon_iff.mp ht
  cases h with
  | cons first kind length rest =>
    rw [hvalue] at first rest
    rw [hkind] at kind
    obtain ⟨hcode, rfl⟩ := first_semicolon first kind.symm
    exact ⟨hcode, rest⟩

/-- No semicolon is left out right behind the end of a line. -/
theorem kept_of_lineEnds {dropped : Bool} (hsound : Sound ((t, dropped) :: ms))
    (hends : Token.lineEnds (t :: whole ms) = true) : dropped = false := by
  refine Bool.of_not_eq_true fun hdropped => ?_
  have hsignificant := significant_of_semicolon (hsound.1 hdropped).1
  rw [insignificant_of_lineEnds hends] at hsignificant
  contradiction

/-- What is left of a line that ends starts as blank space and comments do. -/
theorem head_of_remaining (h : Lexed s (whole ms)) (hsound : Sound ms) (hs : s.previous ≠ none)
    (hends : Token.lineEnds (whole ms) = true) {c : CodePoint}
    (hc : c ∈ (Token.join (remaining ms)).head?) :
    c.isBlank = true ∨ c = scalar '/' ∨ c = scalar '<' := by
  match ms with
  | [] => contradiction
  | (t, dropped) :: ms =>
    obtain rfl := kept_of_lineEnds hsound hends
    obtain ⟨a, first, kind, length, -⟩ := h.split
    obtain ⟨d, value, hvalue, hd⟩ := head_of_insignificant first kind (ne_nil_of_length length)
      (insignificant_of_lineEnds hends)
    rw [remaining_kept, join_cons, hvalue] at hc
    obtain rfl := Option.some.inj hc
    obtain hblank | hslash | hangle | ⟨-, hstart⟩ := hd
    · exact Or.inl hblank
    · exact Or.inr (Or.inl hslash)
    · exact Or.inr (Or.inr hangle)
    · -- The first line of a script is not behind anything.
      exact absurd hstart hs

/-- What is left of a line that ends is a gap. -/
theorem gap_of_lineEnds (h : Lexed s (whole ms)) (hsound : Sound ms) (hs : s.previous ≠ none)
    (hends : Token.lineEnds (whole ms) = true) : Gap (Token.join (remaining ms)) := by
  refine ⟨fun c hc => head_of_remaining h hsound hs hends hc, fun rest heq => ?_⟩
  match ms with
  | [] => contradiction
  | (u, dropped) :: ms =>
    obtain rfl := kept_of_lineEnds hsound hends
    have hinsignificant := insignificant_of_lineEnds hends
    obtain ⟨a, first, kind, length, hlexed⟩ := h.split
    have hne := ne_nil_of_length length
    obtain ⟨c, value, hvalue, -⟩ := head_of_insignificant first kind hne hinsignificant
    rw [remaining_kept, join_cons, hvalue] at heq
    obtain ⟨rfl, hbrace⟩ := List.cons.inj heq
    -- No comment starts with a space.
    have hblank : Text.isBlank u.value = true := by
      obtain hblank | hcomment := insignificant_iff.mp hinsignificant
      · exact hblank
      · rw [hvalue] at first
        obtain hfound | ⟨hstart, -⟩ := comment_of_kind first (kind ▸ hcomment)
        · obtain ⟨d, rest', hhead, hd⟩ := head_of_comment hfound
          obtain rfl := (List.cons.inj hhead).1
          obtain hd | hd := hd <;> contradiction
        · exact absurd hstart hs
    cases value with
    | cons d value =>
      rw [hvalue] at hblank
      obtain rfl := (List.cons.inj hbrace).1
      contradiction
    | nil =>
      -- The space is a token of its own, and the line would have to end in front of the brace.
      have hline : Token.lineEnds (whole ms) = true := by
        rw [whole_cons, Token.lineEnds, hinsignificant, Token.breaksLine, hvalue] at hends
        exact hends
      have hhead := head_of_remaining hlexed hsound.2 (getLast_ne_none hne) hline
        (c := scalar '{') (by rw [show Token.join (remaining ms) = _ from hbrace]; rfl)
      obtain hd | hd | hd := hhead <;> contradiction

/-- Leaving out a semicolon leaves a gap. -/
theorem gap_of_dropped (h : Lexed s (whole ((t, true) :: ms))) (hsound : Sound ((t, true) :: ms)) :
    Gap (Token.join (remaining ms)) := by
  obtain ⟨hsemicolon, hends, -⟩ := hsound.1 rfl
  obtain ⟨-, hlexed⟩ := h.of_semicolon hsemicolon
  exact gap_of_lineEnds hlexed hsound.2 (Option.some_ne_none _) hends

/-! ## The state of the lexer -/

/-- In the state `s'` a semicolon was missed that led to the state `s`, and nothing but blank space
and comments has come since. -/
structure Adrift (s s' : LexState) (ts : List Token) : Prop where
  before : s.mode = .code true
  code : ∃ b, s'.mode = .code b
  interpolations : s.interpolations = s'.interpolations
  started : s.previous ≠ none ∧ s'.previous ≠ none
  next : (Token.nextSignificant? ts).any joinsLine = false
  previous : s.previous = s'.previous ∨ ∀ t ∈ ts.head?, t.isSignificant = false

/-- The state `s'` is the state `s` but for a semicolon that was missed. -/
def Follows (s s' : LexState) (ts : List Token) : Prop := s = s' ∨ Adrift s s' ts

/-- A run that is as long as a text covers it. -/
theorem all_of_length_le {p : CodePoint → Bool} {x y : Text}
    (h : x.length ≤ Text.spanLength p (x ++ y)) : ∀ c ∈ x, p c = true := by
  intro c hc
  obtain ⟨u, v, rfl⟩ := List.append_of_mem hc
  refine eq_true_of_lt_spanLength (u := u) (w := v ++ y) ?_
  rw [List.append_assoc, List.cons_append, List.length_append, List.length_cons] at h
  omega

/-- A token without significance is passed over. -/
theorem nextSignificant_of_insignificant (h : t.isSignificant = false) :
    Token.nextSignificant? (t :: ts) = Token.nextSignificant? ts := by
  rw [Token.nextSignificant?, Token.nextSignificant?, List.find?_cons, h]

/-- A significant token is the next one. -/
theorem nextSignificant_of_significant (h : t.isSignificant = true) :
    Token.nextSignificant? (t :: ts) = some t := by
  rw [Token.nextSignificant?, List.find?_cons, h]

/-- Once the script has begun, what is found neither as blank space nor as a comment is significant.
-/
theorem significant_of_first {r : LexState} {a : Step} {rest : Text}
    (hfirst : Step.first? r (t.value ++ rest) = some a) (hkind : t.kind = a.kind)
    (hne : t.value ≠ []) (hstarted : r.previous ≠ none)
    (hblank : Lexeme.blank? (t.value ++ rest) = none)
    (hcomment : Lexeme.comment? (t.value ++ rest) = none) : t.isSignificant = true := by
  refine Bool.of_not_eq_false fun hinsignificant => ?_
  obtain hall | hkind' := insignificant_iff.mp hinsignificant
  · obtain ⟨c, value, hvalue⟩ := List.exists_cons_of_ne_nil hne
    rw [hvalue] at hall hblank
    have hc : c.isBlank = true := List.all_eq_true.mp hall c List.mem_cons_self
    rw [List.cons_append, blank_cons hc] at hblank
    contradiction
  · obtain hfound | ⟨hstart, -⟩ := comment_of_kind hfirst (hkind ▸ hkind')
    · rw [hcomment] at hfound
      contradiction
    · exact hstarted hstart

/-- The two states read a significant token alike: it does not join the line, so that it is no
slash, which alone is read in different ways. -/
theorem Adrift.first_significant (h : Adrift s s' (t :: ts)) (hne : t.value ≠ [])
    (hsignificant : t.isSignificant = true)
    (hblank : Lexeme.blank? (t.value ++ Token.join ts) = none)
    (hcomment : Lexeme.comment? (t.value ++ Token.join ts) = none) :
    Step.first? s (t.value ++ Token.join ts) = Step.first? s' (t.value ++ Token.join ts) := by
  obtain ⟨b, hcode⟩ := h.code
  have hslash : Lexeme.headIs (· == scalar '/') (t.value ++ Token.join ts) = false := by
    rw [headIs_append _ hne]
    obtain ⟨c, value, hvalue⟩ := List.exists_cons_of_ne_nil hne
    -- The next significant token is `t` itself, and it does not join the line.
    have hnext := h.next
    rw [nextSignificant_of_significant hsignificant, Option.any_some, joinsLine, hvalue] at hnext
    rw [hvalue]
    refine beq_false_of_ne ?_
    rintro rfl
    contradiction
  -- Previous tokens may differ in front of blank space and comments only.
  have hprevious : s.previous = s'.previous := by
    obtain hsame | hinsignificant := h.previous
    · exact hsame
    · rw [hinsignificant t rfl] at hsignificant
      contradiction
  -- What is left are the rules of code, which ask of the previous token whether it is a word.
  rw [first_other h.before (fun hnone => absurd hnone h.started.1) hblank hcomment hslash,
    first_other hcode (fun hnone => absurd hnone h.started.2) hblank hcomment hslash,
    afterOperand_congr h.interpolations (congrArg (Option.any CodePoint.isWord) hprevious)]

/-- Both states read the next token alike, and the second one follows the first one behind it. -/
def ReadAlike (s s' : LexState) (t : Token) (ts : List Token) : Prop :=
  ∃ b b', Step.first? s (t.value ++ Token.join ts) = some b ∧
    Step.first? s' (t.value ++ Token.join ts) = some b' ∧ b'.kind = b.kind ∧
    b'.length = b.length ∧ (t.isSignificant = true → b' = b) ∧
    Follows (b.after t.value) (b'.after t.value) ts

/-- The lexer stays adrift on blank space and comments: only whether a slash starts a pattern may
differ behind them. -/
theorem Adrift.first_insignificant {kind : Kind} {n : Nat} {b : Bool} (h : Adrift s s' (t :: ts))
    (hne : t.value ≠ []) (hinsignificant : t.isSignificant = false)
    (hfound : Step.first? s (t.value ++ Token.join ts)
      = some ⟨kind, n, .code true, s.interpolations⟩)
    (hfound' : Step.first? s' (t.value ++ Token.join ts)
      = some ⟨kind, n, .code b, s'.interpolations⟩) : ReadAlike s s' t ts := by
  -- such a token is not significant, so that nothing is claimed of its step
  refine ⟨_, _, hfound, hfound', rfl, rfl, fun hsignificant => ?_, Or.inr ?_⟩
  · rw [hinsignificant] at hsignificant
    contradiction
  · have hstarted := getLast_ne_none hne
    refine ⟨rfl, ⟨b, rfl⟩, h.interpolations, ⟨hstarted, hstarted⟩, ?_, Or.inl rfl⟩
    rw [← nextSignificant_of_insignificant hinsignificant]
    exact h.next

/-- A token that one of the states reads is read alike by the other one. -/
theorem Adrift.first {r : LexState} {a : Step} (h : Adrift s s' (t :: ts)) (hr : r = s ∨ r = s')
    (hfirst : Step.first? r (t.value ++ Token.join ts) = some a) (hkind : t.kind = a.kind)
    (hlength : t.value.length = a.length - 1 + 1) : ReadAlike s s' t ts := by
  obtain ⟨b, hcode⟩ := h.code
  have hne := ne_nil_of_length hlength
  have hstarted : r.previous ≠ none := by
    obtain rfl | rfl := hr
    · exact h.started.1
    · exact h.started.2
  -- What the token is in one of the states is what it is in the other one.
  have hread {b b' : Step} (hb : Step.first? s (t.value ++ Token.join ts) = some b)
      (hb' : Step.first? s' (t.value ++ Token.join ts) = some b') : a = b ∨ a = b' := by
    obtain rfl | rfl := hr
    · exact Or.inl (Option.some.inj (hfirst.symm.trans hb))
    · exact Or.inr (Option.some.inj (hfirst.symm.trans hb'))
  cases hblank : Lexeme.blank? (t.value ++ Token.join ts) with
  | some n =>
    obtain ⟨b₁, hb₁, hfound⟩ := first_blank h.before hblank
    obtain ⟨b₂, -, hfound'⟩ := first_blank hcode hblank
    obtain rfl := hb₁ rfl
    have hn : a.length = n := by obtain rfl | rfl := hread hfound hfound' <;> rfl
    obtain ⟨hspan, hpos⟩ := positive_eq_some.mp hblank
    have hall : Text.isBlank t.value = true :=
      List.all_eq_true.mpr (all_of_length_le (y := Token.join ts) (by omega))
    exact h.first_insignificant hne (insignificant_iff.mpr (Or.inl hall)) hfound hfound'
  | none =>
    cases hcomment : Lexeme.comment? (t.value ++ Token.join ts) with
    | some n =>
      obtain ⟨b₁, hb₁, hfound⟩ := first_comment h.before hblank hcomment
      obtain ⟨b₂, -, hfound'⟩ := first_comment hcode hblank hcomment
      obtain rfl := hb₁ rfl
      have hcommented : a.kind = .comment := by
        obtain rfl | rfl := hread hfound hfound' <;> rfl
      have hinsignificant : t.isSignificant = false :=
        insignificant_iff.mpr (Or.inr (hkind.trans hcommented))
      exact h.first_insignificant hne hinsignificant hfound hfound'
    | none =>
      have hsignificant := significant_of_first hfirst hkind hne hstarted hblank hcomment
      have hsame := h.first_significant hne hsignificant hblank hcomment
      have hfound : Step.first? s (t.value ++ Token.join ts) = some a := by
        obtain rfl | rfl := hr
        · exact hfirst
        · exact hsame.trans hfirst
      exact ⟨a, a, hfound, hsame.symm.trans hfound, rfl, rfl, fun _ => rfl, Or.inl rfl⟩

/-- In a state that follows another one the first token is read alike, and the states follow each
other behind it. -/
theorem Follows.first {a : Step} (h : Follows s s' (t :: ts))
    (hfirst : Step.first? s (t.value ++ Token.join ts) = some a) (hkind : t.kind = a.kind)
    (hlength : t.value.length = a.length - 1 + 1) :
    ∃ a', Step.first? s' (t.value ++ Token.join ts) = some a' ∧ a'.kind = a.kind ∧
      a'.length = a.length ∧ (t.isSignificant = true → a' = a) ∧
      Follows (a.after t.value) (a'.after t.value) ts := by
  obtain rfl | hadrift := h
  · -- where nothing has been missed, both read the same
    exact ⟨a, hfirst, rfl, rfl, fun _ => rfl, Or.inl rfl⟩
  · obtain ⟨b, b', hb, hb', hrest⟩ := hadrift.first (Or.inl rfl) hfirst hkind hlength
    obtain rfl := Option.some.inj (hfirst.symm.trans hb)
    exact ⟨b', hb', hrest⟩

/-- The other way round: with the semicolon the next token is what it is without. -/
theorem Follows.first_back {a' : Step} (h : Follows s s' (t :: ts))
    (hfirst : Step.first? s' (t.value ++ Token.join ts) = some a') (hkind : t.kind = a'.kind)
    (hlength : t.value.length = a'.length - 1 + 1) :
    ∃ a, Step.first? s (t.value ++ Token.join ts) = some a ∧ a'.kind = a.kind ∧
      a'.length = a.length ∧ (t.isSignificant = true → a' = a) ∧
      Follows (a.after t.value) (a'.after t.value) ts := by
  obtain rfl | hadrift := h
  · exact ⟨a', hfirst, rfl, rfl, fun _ => rfl, Or.inl rfl⟩
  · obtain ⟨b, b', hb, hb', hrest⟩ := hadrift.first (Or.inr rfl) hfirst hkind hlength
    obtain rfl := Option.some.inj (hfirst.symm.trans hb')
    exact ⟨b, hb, hrest⟩

/-- A semicolon that is missed at the end of a line sets the lexer adrift. -/
theorem adrift_of_lineEnds (hcode : ∃ b, s.mode = .code b) (hs : s.previous ≠ none)
    (hends : Token.lineEnds ts = true)
    (hnext : (Token.nextSignificant? ts).any joinsLine = false) : Adrift s.afterSemicolon s ts := by
  refine ⟨rfl, hcode, rfl, ⟨Option.some_ne_none _, hs⟩, hnext, Or.inr fun u hu => ?_⟩
  obtain ⟨us, heq⟩ := List.head?_eq_some_iff.mp hu
  rw [heq] at hends
  exact insignificant_of_lineEnds hends

/-- A state that follows one in code is in code. -/
theorem Follows.code {b : Bool} (h : Follows s s' ts) (hs : s.mode = .code b) :
    ∃ b', s'.mode = .code b' := by
  obtain rfl | hadrift := h
  · exact ⟨b, hs⟩
  · exact hadrift.code

/-- Missing a semicolon that is left out sets the lexer adrift, also where it has missed one before.
-/
theorem adrift_of_dropped (h : Lexed s (whole ((t, true) :: ms))) (hsound : Sound ((t, true) :: ms))
    (hfollows : Follows s s' (whole ((t, true) :: ms))) (hs : s'.previous ≠ none) :
    Adrift s.afterSemicolon s' (whole ms) := by
  obtain ⟨hsemicolon, hends, hnext⟩ := hsound.1 rfl
  obtain ⟨⟨b, hcode⟩, -⟩ := h.of_semicolon hsemicolon
  -- no interpolation is begun or ended in between
  have hinter : s.interpolations = s'.interpolations := by
    obtain rfl | hadrift := hfollows
    · rfl
    · exact hadrift.interpolations
  rw [LexState.afterSemicolon, hinter]
  exact adrift_of_lineEnds (hfollows.code hcode) hs hends hnext

end Dialects.Script
