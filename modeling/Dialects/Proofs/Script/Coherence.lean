import Dialects.Proofs.Script.Stability

/-!
# Both dialects on the tokens of the canonical text

Putting the semicolons that a script lacks among its tokens (`punctuate`) disturbs no later
decision of either dialect: nothing is lacking afterwards, and the lenient dialect leaves out what
was put there and what it leaves out of the script (`coherent_punctuate`). Unlike the round trips
through a text, this does not depend on how the canonical text is cut into tokens, and holds of
every list of tokens.
-/

namespace Dialects.Script

open Canonical (Context lacking)

variable {ts ts' : List Token} {c c' : Context} {offset offset' : Nat}

/-- The tokens of a script with a semicolon behind each one that lacks one, at the places where they
stand then. -/
def punctuate (offset : Nat) (ts : List Token) : List Token :=
  placed offset (putBehind semicolon ts (lacking .initial ts))

/-! ## Lists with something put behind their entries -/

theorem putBehind_of_unmarked {α : Type} (x : α) (as : List α) {marks : List Bool}
    (h : ∀ mark ∈ marks, mark = false) : putBehind x as marks = as := by
  induction as generalizing marks with
  | nil => rfl
  | cons a as ih =>
    cases marks with
    | nil => rfl
    | cons mark marks =>
      obtain ⟨rfl, hmarks⟩ := List.forall_mem_cons.mp h
      rw [putBehind_unmarked, ih hmarks]

theorem map_putBehind {α β : Type} (f : α → β) (x : α) (as : List α) (marks : List Bool) :
    (putBehind x as marks).map f = putBehind (f x) (as.map f) marks := by
  induction as generalizing marks with
  | nil => rfl
  | cons a as ih =>
    cases marks with
    | nil => rfl
    | cons mark marks =>
      cases mark with
      | true => rw [putBehind_marked, List.map_cons, List.map_cons, ih]; rfl
      | false => rw [putBehind_unmarked, List.map_cons, ih]; rfl

theorem filter_putBehind {α : Type} {p : α → Bool} {x : α} (hx : p x = false) (as : List α)
    (marks : List Bool) : (putBehind x as marks).filter p = as.filter p := by
  induction as generalizing marks with
  | nil => rfl
  | cons a as ih =>
    cases marks with
    | nil => rfl
    | cons mark marks =>
      cases mark with
      | true =>
        rw [putBehind_marked, List.filter_cons, List.filter_cons_of_neg (by rw [hx]; decide), ih,
          List.filter_cons]
      | false => rw [putBehind_unmarked, List.filter_cons, ih, List.filter_cons]

/-! ## No later decision is disturbed -/

theorem head_supplied (c : Context) (ts : List Token) :
    (whole (supplied c ts)).head? = ts.head? := by
  cases ts with
  | nil => rfl
  | cons t ts =>
    obtain ⟨ms, heq, -⟩ := supplied_cons c t ts
    rw [heq]
    rfl

/-- The semicolons that were added are no reason to add another one, and take away none. -/
theorem lacking_whole_supplied
    (h : Alike c' c (placed offset' (whole (supplied c ts))) ts) (hplaced : placed offset ts = ts) :
    ∀ mark ∈ lacking c' (placed offset' (whole (supplied c ts))), mark = false := by
  -- The context `c'` is the one in the list with the semicolons, `c` that in the script.
  induction ts generalizing c c' offset offset' with
  | nil => exact List.forall_mem_nil _
  | cons t ts ih =>
    cases hlacks : lacks c t ts with
    | true =>
      rw [supplied_of_lacks hlacks, whole_cons, whole_cons, placed, placed] at h ⊢
      have hbare : ({ t with offset := offset' } : Token).bare = t.bare := rfl
      have hw : Token.isSemicolon { semicolon with offset := offset' + t.value.length } = true :=
        rfl
      rw [lacking_cons, lacking_cons, lacks_before_semicolon hw, lacks_semicolon hw,
        List.forall_mem_cons, List.forall_mem_cons]
      -- Behind the semicolon only the last significant token differs, and no bracket looks at it.
      refine ⟨rfl, rfl, ih (h.dropped hbare hw ?_ ?_ (Or.inr (calm_of_lacks hlacks)))
        (placed_tail hplaced)⟩
      · exact (significant_of_bare hbare).trans (lacks_iff.mp hlacks).1
      · exact (awaitsOperand_of_bare hbare).trans (complete_of_lacks hlacks)
    | false =>
      rw [supplied_of_complete hlacks, whole_cons] at h ⊢
      rw [placed, lacking_cons, List.forall_mem_cons]
      have hbare : ({ t with offset := offset' } : Token).bare = t.bare := rfl
      constructor
      · rw [← hlacks]
        refine h.lacks_eq hbare ?_ ?_
        · rw [lineEnds_congr (bare_placed _ _), lineEnds_supplied]
        · rw [next_congr (bare_placed _ _), next_supplied]
      · refine ih (h.kept hbare fun hmark => ?_) (placed_tail hplaced)
        refine startsChain_congr ?_ ?_ hbare hmark ?_
        · rw [placed, placed_placed]
        · rw [placed_offset hplaced]
          exact hplaced
        · rw [← List.head?_map, bare_placed, List.head?_map, head_supplied]

/-- The lenient dialect keeps the same tokens if it leaves out the semicolons that were put among
them. -/
theorem bare_kept_eq {marks : List Bool}
    (hbare : ts'.map Token.bare = (putBehind semicolon ts marks).map Token.bare)
    (hleaves : Lenient.redundant [] ts' = putBehind true (Lenient.redundant [] ts) marks) :
    (Lenient.kept ts').map Token.bare = (Lenient.kept ts).map Token.bare := by
  -- The tokens with their marks are those of the script, and the semicolons with theirs.
  have hwhole : whole (putBehind (semicolon, true) (marked [] ts) marks)
      = putBehind semicolon ts marks := by
    rw [whole, map_putBehind, ← whole, whole_marked]
  have hmarks : (putBehind (semicolon, true) (marked [] ts) marks).map Prod.snd
      = Lenient.redundant [] ts' := by
    rw [map_putBehind, marks_marked, hleaves]
  have hremaining : remaining (putBehind (semicolon, true) (marked [] ts) marks)
      = Lenient.kept ts := by
    rw [remaining, filter_putBehind rfl]
    rfl
  have hsame : (whole (marked [] ts')).map Token.bare
      = (whole (putBehind (semicolon, true) (marked [] ts) marks)).map Token.bare := by
    rw [whole_marked, hwhole, hbare]
  rw [← hremaining]
  exact remaining_congr hsame ((marks_marked _ _).trans hmarks.symm)

/-! ## The law -/

/-- What both dialects make of the tokens `ts'`, which are those of a script and the semicolons that
it lacks, compared with what they make of the script. -/
structure Coherent (offset : Nat) (ts ts' : List Token) : Prop where
  /-- The brackets still match. -/
  brackets : checkBrackets [] ts' = .ok ()
  /-- The tokens cover the canonical text of the script. -/
  text : Token.join ts' = Canonical.join ts (lacking .initial ts)
  /-- The canonical dialect adds nothing. -/
  complete : ∀ mark ∈ lacking .initial ts', mark = false
  /-- The lenient dialect leaves out what was added, and what it leaves out of the script. -/
  leaves : Lenient.redundant [] ts'
    = putBehind true (Lenient.redundant [] ts) (lacking .initial ts)
  /-- Adding semicolons again changes nothing. -/
  idempotent : punctuate offset ts' = ts'
  /-- The lenient dialect keeps the same tokens as of the script. -/
  kept : (Lenient.kept ts').map Token.bare = (Lenient.kept ts).map Token.bare

/-- Both dialects agree on what the semicolons of a script are, whether they are there or not. -/
theorem coherent_punctuate (hplaced : placed offset ts = ts)
    (hbrackets : checkBrackets [] ts = .ok ()) : Coherent offset ts (punctuate offset ts) := by
  have hwhole : punctuate offset ts = placed offset (whole (supplied .initial ts)) := by
    rw [punctuate, whole_supplied]
  have hbare : (punctuate offset ts).map Token.bare
      = (whole (supplied .initial ts)).map Token.bare := by
    rw [hwhole, bare_placed]
  have hmatches : Matches .initial [] := .nil
  -- Nothing is missing any more, and what is redundant are the old semicolons and the added ones.
  have hcomplete : ∀ mark ∈ lacking .initial (punctuate offset ts), mark = false := by
    rw [hwhole]
    exact lacking_whole_supplied ⟨rfl, rfl, rfl, Or.inl rfl⟩ hplaced
  have hleaves : Lenient.redundant [] (punctuate offset ts)
      = putBehind true (Lenient.redundant [] ts) (lacking .initial ts) := by
    rw [redundant_congr hbare, redundant_whole_supplied hmatches]
  refine ⟨?_, ?_, hcomplete, hleaves, ?_, ?_⟩
  · rw [← checkBrackets_supplied .initial] at hbrackets
    exact checkBrackets_congr hbare.symm rfl hbrackets
  · rw [join_congr hbare, join_supplied]
    rfl
  · rw [punctuate, putBehind_of_unmarked _ _ hcomplete, hwhole, placed_placed]
  · exact bare_kept_eq (by rw [hbare, whole_supplied]) hleaves

/-- The tokens of a script of two lines, of which the second one has a semicolon. -/
def twoLines : List Token :=
  placed 0 ([(.other, "f"), (.punctuation, "("), (.punctuation, ")"), (.other, "\n"), (.other, "g"),
    (.punctuation, "("), (.punctuation, ")"), (.punctuation, ";"), (.other, "\n")].map
    fun p : Kind × String => ⟨0, p.1, Text.ofString p.2⟩)

/-- A semicolon is added on the first line, and the lenient dialect leaves it out together with the
one on the second line. -/
theorem coherent_punctuate_twoLines :
    lacking .initial twoLines = [false, false, true, false, false, false, false, false, false] ∧
      Lenient.redundant [] (punctuate 0 twoLines)
        = [false, false, false, true, false, false, false, false, true, false] ∧
      Coherent 0 twoLines (punctuate 0 twoLines) := by
  have hplaced : placed 0 twoLines = twoLines := placed_placed 0 0 _
  have hbrackets : checkBrackets [] twoLines = .ok () := by decide +kernel
  have hcoherent := coherent_punctuate hplaced hbrackets
  have hlacking : lacking .initial twoLines
      = [false, false, true, false, false, false, false, false, false] := by decide +kernel
  refine ⟨hlacking, ?_, hcoherent⟩
  have hredundant : Lenient.redundant [] twoLines
      = [false, false, false, false, false, false, false, true, false] := by decide +kernel
  rw [hcoherent.leaves, hlacking, hredundant]
  rfl

end Dialects.Script
