import Mathlib.Data.List.Forall2
import Dialects.Proofs.Script.Restoring

/-!
# Semicolons that are added

The tokens of a script with the semicolons that the canonical dialect adds, which are marked
(`supplied`). Without them the tokens are those of the script, and with them they cover its
canonical text. What the lenient dialect leaves out of them is what was added, unless it leaves out
a semicolon of the script itself (`redundant_supplied`).
-/

namespace Dialects.Script

open CodePoint (scalar)
open Canonical (Context lacksSemicolon)

variable {s : LexState} {t u : Token} {ts us : List Token} {ms : List (Token × Bool)} {c : Context}
  {pending : List Bracket} {b : Bracket}

/-- A semicolon that is added. -/
def semicolon : Token := ⟨0, .punctuation, [scalar ';']⟩

/-- A list with `x` put behind each of its entries that is marked. -/
def putBehind {α : Type} (x : α) : List α → List Bool → List α
  | a :: as, mark :: marks =>
    if mark then a :: x :: putBehind x as marks else a :: putBehind x as marks
  | as, _ => as

/-- The tokens of the canonical text. Those that are added are marked. -/
def supplied (c : Context) : List Token → List (Token × Bool)
  | [] => []
  | t :: ts =>
    if lacks c t ts then (t, false) :: (semicolon, true) :: supplied (advance c t ts) ts
    else (t, false) :: supplied (advance c t ts) ts

@[simp]
theorem supplied_nil (c : Context) : supplied c [] = [] := rfl

/-- A token that lacks a semicolon gets one that is marked. -/
theorem supplied_of_lacks (h : lacks c t ts = true) :
    supplied c (t :: ts) = (t, false) :: (semicolon, true) :: supplied (advance c t ts) ts :=
  if_pos h

/-- Behind any other token nothing is added. -/
theorem supplied_of_complete (h : lacks c t ts = false) :
    supplied c (t :: ts) = (t, false) :: supplied (advance c t ts) ts :=
  if_neg (Bool.eq_false_iff.mp h)

theorem putBehind_marked {α : Type} (x a : α) (as : List α) (marks : List Bool) :
    putBehind x (a :: as) (true :: marks) = a :: x :: putBehind x as marks := rfl

theorem putBehind_unmarked {α : Type} (x a : α) (as : List α) (marks : List Bool) :
    putBehind x (a :: as) (false :: marks) = a :: putBehind x as marks := rfl

/-- The tokens of the canonical text are those of the script and a semicolon behind each that lacks
one. -/
theorem whole_supplied (c : Context) (ts : List Token) :
    whole (supplied c ts) = putBehind semicolon ts (Canonical.lacking c ts) := by
  induction ts generalizing c with
  | nil => rfl
  | cons t ts ih =>
    rw [lacking_cons]
    cases hlacks : lacks c t ts with
    | true => rw [supplied_of_lacks hlacks, whole_cons, whole_cons, ih, putBehind_marked]
    | false => rw [supplied_of_complete hlacks, whole_cons, ih, putBehind_unmarked]

theorem semicolon_isSemicolon : semicolon.isSemicolon = true := rfl

/-- A token and what comes behind it, be that a semicolon that is added or not. -/
theorem supplied_cons (c : Context) (t : Token) (ts : List Token) :
    ∃ ms, supplied c (t :: ts) = (t, false) :: ms ∧ remaining ms = ts := by
  -- leaving out what has been supplied gives the tokens back
  have hremaining (c : Context) (ts : List Token) : remaining (supplied c ts) = ts := by
    induction ts generalizing c with
    | nil => rfl
    | cons t ts ih =>
      cases hlacks : lacks c t ts with
      | true => rw [supplied_of_lacks hlacks, remaining_kept, remaining_dropped, ih]
      | false => rw [supplied_of_complete hlacks, remaining_kept, ih]
  cases hlacks : lacks c t ts with
  | true => exact ⟨_, supplied_of_lacks hlacks, hremaining _ ts⟩
  | false => exact ⟨_, supplied_of_complete hlacks, hremaining _ ts⟩

/-- Without what has been added the tokens are the given ones. -/
theorem remaining_supplied (c : Context) (ts : List Token) : remaining (supplied c ts) = ts := by
  cases ts with
  | nil => rfl
  | cons t ts =>
    obtain ⟨ms, heq, hremaining⟩ := supplied_cons c t ts
    rw [heq, remaining_kept, hremaining]

/-- With what has been added the tokens spell the canonical text. -/
theorem join_supplied (c : Context) (ts : List Token) :
    Token.join (whole (supplied c ts)) = punctuated c ts := by
  induction ts generalizing c with
  | nil => rfl
  | cons t ts ih =>
    rw [punctuated_cons]
    cases hlacks : lacks c t ts with
    | true =>
      rw [supplied_of_lacks hlacks, whole_cons, whole_cons, join_cons, join_cons, ih]
      rfl
    | false =>
      rw [supplied_of_complete hlacks, whole_cons, join_cons, ih]
      rfl

/-! ## What comes next -/

/-- A semicolon is added behind the first significant token at the earliest. -/
theorem lineEnds_supplied (c : Context) (ts : List Token) :
    Token.lineEnds (whole (supplied c ts)) = Token.lineEnds ts := by
  -- up to the first significant token nothing is supplied
  induction ts generalizing c with
  | nil => rfl
  | cons t ts ih =>
    cases hlacks : lacks c t ts with
    | true =>
      rw [supplied_of_lacks hlacks, whole_cons, Token.lineEnds, Token.lineEnds,
        (lacks_iff.mp hlacks).1]
      rfl
    | false => rw [supplied_of_complete hlacks, whole_cons, Token.lineEnds, Token.lineEnds, ih]

/-- The next significant token is none that has been added. -/
theorem next_supplied (c : Context) (ts : List Token) :
    Token.nextSignificant? (whole (supplied c ts)) = Token.nextSignificant? ts := by
  induction ts generalizing c with
  | nil => rfl
  | cons t ts ih =>
    obtain ⟨ms, heq, -⟩ := supplied_cons c t ts
    cases hsignificant : t.isSignificant with
    | true =>
      rw [heq, whole_cons, nextSignificant_of_significant hsignificant,
        nextSignificant_of_significant hsignificant]
    | false =>
      -- No semicolon is added behind blank space or a comment.
      have hlacks : lacks c t ts = false := by rw [lacks, hsignificant, Bool.false_and]
      rw [supplied_of_complete hlacks, whole_cons, nextSignificant_of_insignificant hsignificant,
        nextSignificant_of_insignificant hsignificant, ih]

/-- No line that joins the one before comes behind a semicolon that is added. -/
theorem next_of_lacks (h : lacks c t ts = true) :
    (Token.nextSignificant? ts).any joinsLine = false := by
  obtain ⟨-, hlacks⟩ := lacks_iff.mp h
  rw [lacksSemicolon, Bool.and_eq_true, Bool.not_eq_true'] at hlacks
  cases hnext : Token.nextSignificant? ts with
  | none => rfl
  | some u =>
    -- what comes next does not continue the line, and thus does not join it
    obtain ⟨-, hcontinues⟩ := hlacks
    rw [hnext, Option.any_some, Canonical.continuesLine, Bool.or_eq_false_iff,
      Bool.or_eq_false_iff, Bool.or_eq_false_iff] at hcontinues
    exact hcontinues.1.1.2

/-- Semicolons are added at the ends of lines only, and no line joins there. -/
theorem sound_supplied (c : Context) (ts : List Token) : Sound (supplied c ts) := by
  induction ts generalizing c with
  | nil => trivial
  | cons t ts ih =>
    cases hlacks : lacks c t ts with
    | true =>
      rw [supplied_of_lacks hlacks]
      refine ⟨fun hdropped => by contradiction, fun _ => ⟨rfl, ?_, ?_⟩, ih _⟩
      · rw [lineEnds_supplied]
        exact lineEnds_of_lacks hlacks
      · rw [next_supplied]
        exact next_of_lacks hlacks
    | false =>
      rw [supplied_of_complete hlacks]
      exact ⟨fun hdropped => by contradiction, ih _⟩

/-! ## What the lenient dialect leaves out -/

/-- Blank space and comments are no brackets. -/
theorem opens_of_insignificant (h : t.isSignificant = false) :
    t.opens? = none ∧ t.closes? = none := by
  -- a bracket is a punctuation mark that is not blank
  have hmark {d : Char} (hd : Text.isBlank [scalar d] = false) (hkind : t.kind = .punctuation)
      (hvalue : t.value = [scalar d]) : False := by
    rw [Token.isSignificant, Token.isComment, hkind, hvalue, hd] at h
    contradiction
  constructor
  · refine Option.eq_none_iff_forall_ne_some.mpr fun b hopens => ?_
    obtain ⟨hkind, hvalue⟩ := value_of_opens hopens
    exact hmark (by cases b <;> decide) hkind hvalue
  · refine Option.eq_none_iff_forall_ne_some.mpr fun b hcloses => ?_
    obtain ⟨hkind, hvalue⟩ := value_of_closes hcloses
    exact hmark (by cases b <;> decide) hkind hvalue

/-- A token without significance is no bracket. -/
theorem nested_of_insignificant (h : t.isSignificant = false) (pending : List Bracket) :
    nested pending t = pending := by
  rw [nested, (opens_of_insignificant h).1, (opens_of_insignificant h).2]

/-- The brackets that are open, as both dialects know them: what opened a block is a brace. -/
def Matches (c : Context) (pending : List Bracket) : Prop :=
  List.Forall₂ (fun o b => o = .block → b = .curly) c.openers pending

/-- Both dialects go on with the same brackets. -/
theorem Matches.advance (h : Matches c pending) (t : Token) (ts : List Token) :
    Matches (advance c t ts) (nested pending t) := by
  rw [Script.advance]
  split
  · rw [Matches, after_openers, Context.nest, nested]
    cases t.opens? with
    | some b =>
      -- Only a brace is taken for the start of a block.
      refine .cons (fun hblock => ?_) h
      cases b with
      | curly => rfl
      | square => contradiction
      | round =>
        rw [Canonical.classify] at hblock
        split at hblock <;> contradiction
    | none =>
      cases t.closes? with
      | none => exact h
      | some b =>
        rw [Matches] at h
        generalize c.openers = openers at h ⊢
        cases h with
        | nil => exact .nil
        | cons _ hrest => exact hrest
  · next hinsignificant =>
    rw [nested_of_insignificant (Bool.eq_false_iff.mpr hinsignificant)]
    exact h

/-- Where the canonical dialect finds statements, the lenient one does. -/
theorem Matches.inStatements (h : Matches c pending) (hstatements : c.inStatements = true) :
    Lenient.inStatements pending = true := by
  rw [Matches] at h
  rw [Context.inStatements] at hstatements
  generalize c.openers = openers at h hstatements
  cases h with
  | nil => rfl
  | cons hblock _ => exact beq_iff_eq.mpr (hblock (beq_iff_eq.mp hstatements))

/-- A semicolon that is added is one that the lenient dialect leaves out. -/
theorem redundant_of_lacks (h : Matches c pending) (hlacks : lacks c t ts = true)
    {W : List Token} (hends : Token.lineEnds W = Token.lineEnds ts)
    (hnext : Token.nextSignificant? W = Token.nextSignificant? ts) :
    Lenient.isRedundant (nested pending t) semicolon W = true := by
  -- what the canonical dialect asks for is what the lenient one does
  obtain ⟨hsignificant, hlacking⟩ := lacks_iff.mp hlacks
  have hadvance := h.advance t ts
  rw [Script.advance, if_pos hsignificant] at hadvance
  rw [lacksSemicolon, Bool.and_eq_true, Bool.and_eq_true, Bool.and_eq_true] at hlacking
  rw [Lenient.isRedundant, semicolon_isSemicolon, hadvance.inStatements hlacking.1.1.2, hends,
    lineEnds_of_lacks hlacks, hnext, next_of_lacks hlacks]
  rfl

/-- The lenient dialect leaves out of the canonical text what was added and what it leaves out of
the script. -/
theorem redundant_whole_supplied (h : Matches c pending) :
    Lenient.redundant pending (whole (supplied c ts))
      = putBehind true (Lenient.redundant pending ts) (Canonical.lacking c ts) := by
  induction ts generalizing c pending with
  | nil => rfl
  | cons t ts ih =>
    have hrest := ih (h.advance t ts)
    rw [lacking_cons, redundant_cons]
    cases hlacks : lacks c t ts with
    | true =>
      -- The token is no semicolon itself, and is kept; the one behind it is left out.
      have hno : t.isSemicolon = false := Bool.eq_false_iff.mpr fun hsemicolon => by
        rw [lacks_semicolon hsemicolon] at hlacks
        contradiction
      have hkept (us : List Token) :
          (t.opens?.isNone && t.closes?.isNone && Lenient.isRedundant pending t us) = false := by
        rw [Lenient.isRedundant, hno, Bool.false_and, Bool.false_and, Bool.false_and,
          Bool.and_false]
      rw [supplied_of_lacks hlacks, whole_cons, whole_cons, redundant_cons, redundant_cons, hkept,
        hkept, redundant_of_lacks h hlacks (lineEnds_supplied _ _) (next_supplied _ _),
        putBehind_marked, ← hrest]
      rfl
    | false =>
      -- What comes next is the same with the semicolons and without.
      have hsame : Lenient.isRedundant pending t (whole (supplied (advance c t ts) ts))
          = Lenient.isRedundant pending t ts := by
        rw [Lenient.isRedundant, Lenient.isRedundant, lineEnds_supplied, next_supplied]
      rw [supplied_of_complete hlacks, whole_cons, redundant_cons, hsame, putBehind_unmarked, hrest]

theorem length_redundant (pending : List Bracket) (ts : List Token) :
    (Lenient.redundant pending ts).length = ts.length := by
  induction ts generalizing pending with
  | nil => rfl
  | cons t ts ih => rw [redundant_cons, List.length_cons, List.length_cons, ih]

/-- The tokens of the script and the semicolons take turns in the same way whatever stands for the
tokens. -/
theorem marks_supplied_iff {marks : List Bool} (h : marks.length = ts.length) :
    putBehind true marks (Canonical.lacking c ts) = (supplied c ts).map Prod.snd ↔
      ∀ mark ∈ marks, mark = false := by
  induction ts generalizing c marks with
  | nil =>
    obtain rfl := List.eq_nil_of_length_eq_zero h
    exact ⟨fun _ mark hmark => by contradiction, fun _ => rfl⟩
  | cons t ts ih =>
    obtain ⟨mark, marks, rfl⟩ := List.exists_cons_of_length_eq_add_one h
    rw [lacking_cons, List.forall_mem_cons]
    cases hlacks : lacks c t ts with
    | true =>
      rw [supplied_of_lacks hlacks, putBehind_marked, List.map_cons, List.map_cons,
        List.cons.injEq, List.cons.injEq, ih (Nat.succ.inj h)]
      exact and_congr_right fun _ => and_iff_right rfl
    | false =>
      rw [supplied_of_complete hlacks, putBehind_unmarked, List.map_cons, List.cons.injEq,
        ih (Nat.succ.inj h)]

/-- The lenient dialect leaves out of the canonical text what was added, and nothing else if it
leaves out nothing of the script. -/
theorem redundant_supplied (h : Matches c pending) :
    Lenient.redundant pending (whole (supplied c ts)) = (supplied c ts).map Prod.snd ↔
      ∀ mark ∈ Lenient.redundant pending ts, mark = false := by
  rw [redundant_whole_supplied h]
  exact marks_supplied_iff (length_redundant pending ts)

end Dialects.Script
