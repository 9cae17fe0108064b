import Dialects.Proofs.Script.Relexing

/-!
# Semicolons that are put back

The canonical text of a script, token by token (`punctuated`), and what it means that the canonical
text of the lenient script is the same: the tokens left have the semicolons behind them that they
had before, be they added or taken from the script (`Answered`).
-/

namespace Dialects.Script

open CodePoint (scalar)
open Canonical (Context lacking lacksSemicolon)

variable {s s' : LexState} {t u w : Token} {ts us : List Token} {ms : List (Token × Bool)}
  {c c' : Context}

/-! ## The canonical text -/

/-- Whether a semicolon is added after a token, given what is known before it. -/
def lacks (c : Context) (t : Token) (ts : List Token) : Bool :=
  t.isSignificant && lacksSemicolon c t ts

/-- What is known after a token, which need not be significant. -/
def advance (c : Context) (t : Token) (ts : List Token) : Context :=
  if t.isSignificant then c.after t ts else c

/-- The text of the tokens in the canonical dialect. -/
def punctuated (c : Context) (ts : List Token) : Text := Canonical.join ts (lacking c ts)

@[simp]
theorem punctuated_nil : punctuated c [] = [] := rfl

/-- Which tokens lack a semicolon, from the first one on. -/
theorem lacking_cons (c : Context) (t : Token) (ts : List Token) :
    lacking c (t :: ts) = lacks c t ts :: lacking (advance c t ts) ts := by
  rw [lacking, lacks, advance]
  cases t.isSignificant <;> rfl

/-- The semicolon behind a token, if there is to be one. -/
def semicolonIf (mark : Bool) : Text := if mark then [scalar ';'] else []

/-- The canonical text, from the first token on. -/
theorem punctuated_cons (c : Context) (t : Token) (ts : List Token) :
    punctuated c (t :: ts)
      = t.value ++ (semicolonIf (lacks c t ts) ++ punctuated (advance c t ts) ts) := by
  rw [punctuated, lacking_cons, ← List.append_assoc]
  cases lacks c t ts with
  | true => rfl
  | false =>
    rw [semicolonIf, if_neg Bool.false_ne_true, List.append_nil]
    rfl

/-- No semicolon is added in front of one. -/
theorem lacks_before_semicolon (hw : w.isSemicolon = true) (ts : List Token) :
    lacks c t (w :: ts) = false := by
  have hends : Token.lineEnds (w :: ts) = false := by
    refine Bool.eq_false_iff.mpr fun hends => ?_
    have hinsignificant := insignificant_of_lineEnds hends
    rw [significant_of_semicolon hw] at hinsignificant
    contradiction
  rw [lacks, lacksSemicolon, hends, Bool.false_and, Bool.false_and, Bool.false_and, Bool.and_false]

theorem opens_of_semicolon (hw : w.isSemicolon = true) : w.opens? = none ∧ w.closes? = none := by
  obtain ⟨hkind, hvalue⟩ := isSemicolon_iff.mp hw
  rw [Token.opens?, Token.closes?, hkind, hvalue]
  exact ⟨rfl, rfl⟩

/-- No semicolon is added behind one. -/
theorem lacks_semicolon (hw : w.isSemicolon = true) (ts : List Token) : lacks c w ts = false := by
  obtain ⟨hopens, hcloses⟩ := opens_of_semicolon hw
  obtain ⟨-, hvalue⟩ := isSemicolon_iff.mp hw
  have hclosed : c.closed w = none := by
    rw [Context.closed, hopens, hcloses]
  have hends : Canonical.endsStatement w (c.closed w) = false := by
    rw [hclosed, Canonical.endsStatement, hvalue]
    rfl
  rw [lacks, lacksSemicolon, hends, Bool.and_false, Bool.false_and, Bool.and_false]

/-- A semicolon that is there already is not added, wherever it is marked as left out. -/
theorem punctuated_dropped (hw : w.isSemicolon = true) (c : Context) (t : Token)
    (ts : List Token) :
    punctuated c (t :: w :: ts)
      = t.value ++ scalar ';' :: punctuated (advance (advance c t (w :: ts)) w ts) ts := by
  obtain ⟨-, hvalue⟩ := isSemicolon_iff.mp hw
  rw [punctuated_cons, punctuated_cons, lacks_before_semicolon hw, lacks_semicolon hw, hvalue]
  rfl

/-! ## The same text -/

/-- A token without its place. -/
def Token.bare (t : Token) : Kind × Text := (t.kind, t.value)

/-- The tokens `us` are those of `ms` that are left, and each has a semicolon behind it in one
canonical text if it has one in the other. -/
inductive Answered : Context → List (Token × Bool) → Context → List Token → Prop
  | nil {c c' : Context} : Answered c [] c' []
  | kept {c c' : Context} {t u : Token} {ms : List (Token × Bool)} {us : List Token}
      (bare : u.bare = t.bare) (mark : lacks c' u us = lacks c t (whole ms))
      (rest : Answered (advance c t (whole ms)) ms (advance c' u us) us) :
      Answered c ((t, false) :: ms) c' (u :: us)
  | dropped {c c' : Context} {t u w : Token} {ms : List (Token × Bool)} {us : List Token}
      (bare : u.bare = t.bare) (mark : lacks c' u us = true)
      (rest : Answered (advance (advance c t (w :: whole ms)) w (whole ms)) ms
        (advance c' u us) us) :
      Answered c ((t, false) :: (w, true) :: ms) c' (u :: us)

theorem value_of_bare (h : u.bare = t.bare) : u.value = t.value := congrArg Prod.snd h

theorem kind_of_bare (h : u.bare = t.bare) : u.kind = t.kind := congrArg Prod.fst h

/-- Whether a token is significant does not depend on where it stands. -/
theorem significant_of_bare (h : u.bare = t.bare) : u.isSignificant = t.isSignificant := by
  rw [Token.isSignificant, Token.isSignificant, Token.isComment, Token.isComment,
    value_of_bare h, kind_of_bare h]

/-- What is answered gives the same text. -/
theorem Answered.punctuated_eq (h : Answered c ms c' us) (hsound : Sound ms) :
    punctuated c (whole ms) = punctuated c' us := by
  -- a semicolon that is left out is put where one lacks, so that the text stays the same
  induction h with
  | nil => rfl
  | kept bare mark rest ih =>
    rw [whole_cons, punctuated_cons, punctuated_cons, mark, ih hsound.2, value_of_bare bare]
  | dropped bare mark rest ih =>
    rw [whole_cons, whole_cons, punctuated_dropped (hsound.2.1 rfl).1, punctuated_cons, mark,
      ih hsound.2.2, value_of_bare bare]
    rfl

/-! ## From the text to the tokens -/

/-- The canonical text starts as the script does. -/
theorem head_punctuated (h : Lexed s ts) : (punctuated c ts).head? = (Token.join ts).head? := by
  cases h with
  | nil => rfl
  | cons first kind length rest =>
    obtain ⟨d, value, hvalue⟩ := List.exists_cons_of_ne_nil (ne_nil_of_length length)
    rw [punctuated_cons, join_cons, hvalue]
    rfl

/-- Where a script does not start with a semicolon, its canonical text does not either. -/
theorem punctuated_ne_semicolon (h : Lexed s ts)
    (hne : (Token.join ts).head? ≠ some (scalar ';')) (rest : Text) :
    punctuated c ts ≠ scalar ';' :: rest := by
  intro heq
  rw [← head_punctuated (c := c) h, heq] at hne
  exact hne rfl

/-- Only a significant token lacks a semicolon. -/
theorem lacks_iff : lacks c t ts = true ↔ t.isSignificant = true ∧ lacksSemicolon c t ts = true := by
  rw [lacks, Bool.and_eq_true]

/-- A token that lacks a semicolon ends its line. -/
theorem lineEnds_of_lacks (h : lacks c t ts = true) : Token.lineEnds ts = true := by
  obtain ⟨-, hlacks⟩ := lacks_iff.mp h
  rw [lacksSemicolon, Bool.and_eq_true, Bool.and_eq_true, Bool.and_eq_true] at hlacks
  exact hlacks.1.1.1

/-- A line that ends does not go on with a semicolon. -/
theorem head_of_lineEnds (h : Lexed s ts) (hends : Token.lineEnds ts = true) :
    (Token.join ts).head? ≠ some (scalar ';') := by
  -- the first token of the line is a blank or a comment, which starts with no semicolon
  cases h with
  | nil => exact fun heq => by contradiction
  | cons first kind length rest =>
    have hne := ne_nil_of_length length
    have hhead := ne_semicolon_of_insignificant first kind hne (insignificant_of_lineEnds hends)
    obtain ⟨d, value, hvalue⟩ := List.exists_cons_of_ne_nil hne
    rw [join_cons, hvalue]
    rw [hvalue] at hhead
    exact hhead

/-- The first semicolon of the canonical text that the lenient one does not have: what comes in
front of it is the same in both. -/
theorem punctuated_stem (h : Lexed s (whole ms)) (hsound : Sound ms) (hbehind : behind ms ≠ []) :
    ∃ p q r, stem ms = p ++ q ∧ q.head? ≠ some (scalar ';') ∧
      punctuated c (whole ms) = p ++ scalar ';' :: r := by
  induction ms generalizing s c with
  | nil => exact absurd rfl hbehind
  | cons m ms ih =>
    obtain ⟨t, dropped⟩ := m
    cases dropped with
    | true =>
      -- This semicolon is the first one.
      obtain ⟨-, hvalue⟩ := isSemicolon_iff.mp (hsound.1 rfl).1
      refine ⟨[], [], semicolonIf (lacks c t (whole ms)) ++
        punctuated (advance c t (whole ms)) (whole ms), rfl, fun heq => by contradiction, ?_⟩
      rw [whole_cons, punctuated_cons, hvalue]
      rfl
    | false =>
      obtain ⟨a, -, -, -, rest⟩ := h.split
      cases hmark : lacks c t (whole ms) with
      | true =>
        -- The canonical dialect puts the semicolon here; the script does not have one in this
        -- place.
        refine ⟨t.value, stem ms, punctuated (advance c t (whole ms)) (whole ms), rfl,
          fun heq => ?_, ?_⟩
        · refine head_of_lineEnds rest (lineEnds_of_lacks hmark) ?_
          rw [join_whole, List.head?_append, heq]
          rfl
        · rw [whole_cons, punctuated_cons, hmark]
          rfl
      | false =>
        obtain ⟨p, q, r, hstem, hq, hr⟩ := ih rest hsound.2 hbehind
        refine ⟨t.value ++ p, q, r, ?_, hq, ?_⟩
        · rw [stem_kept, hstem, List.append_assoc]
        · rw [whole_cons, punctuated_cons, hmark, hr, List.append_assoc]
          rfl

/-- A token that is also the first one of a text with a semicolon where one is left out, or in
front of that, does not go on behind what is left out. -/
theorem length_le_stem (h : Lexed s (whole ms)) (hsound : Sound ms) (hbehind : behind ms ≠ [])
    {rest : Text} (hjoin : u.value ++ rest = Token.join (remaining ms)) {more : Text}
    (htext : ∃ p q r, stem ms = p ++ q ∧ q.head? ≠ some (scalar ';') ∧
      u.value ++ more = p ++ scalar ';' :: r) : u.value.length ≤ (stem ms).length := by
  refine Decidable.byContradiction fun hgt => ?_
  -- If it went on, it would hold the code point behind what is left out.
  obtain ⟨p, q, r, hstem, hq, htext⟩ := htext
  obtain hnil | ⟨-, hgap⟩ := behind_split h hsound
  · exact hbehind hnil
  rw [join_remaining] at hjoin
  obtain ⟨v, hv, hrest⟩ : ∃ v, u.value = stem ms ++ v ∧
      Token.join (remaining (behind ms)) = v ++ rest := by
    obtain ⟨v, hv, -⟩ | ⟨v, hv, hrest⟩ := List.append_eq_append_iff.mp hjoin
    · rw [hv, List.length_append] at hgt
      exact absurd (Nat.le_add_right _ _) hgt
    · exact ⟨v, hv, hrest⟩
  cases v with
  | nil =>
    rw [hv, List.append_nil] at hgt
    exact hgt (Nat.le_refl _)
  | cons d v =>
    rw [hv, hstem, List.append_assoc, List.append_assoc, List.append_cancel_left_eq] at htext
    cases q with
    | nil =>
      -- That code point would have to be the semicolon.
      obtain rfl := (List.cons.inj htext).1
      rw [hrest] at hgap
      exact hgap.ne_semicolon rfl
    | cons e q =>
      obtain rfl := (List.cons.inj htext).1
      exact hq rfl

/-- The first of the tokens that are read is the one that the first step finds. -/
theorem Lexed.split_cons (h : Lexed s (t :: ts)) :
    ∃ a, Step.first? s (t.value ++ Token.join ts) = some a ∧ t.kind = a.kind ∧
      t.value.length = a.length - 1 + 1 ∧ Lexed (a.after t.value) ts := by
  cases h with
  | cons first kind length rest => exact ⟨_, first, kind, length, rest⟩

/-- A token that does not go on behind what is left out is found in both texts. -/
theorem first_agree {a b : Step} (h : Lexed s (whole ((t, false) :: ms)))
    (hsound : Sound ((t, false) :: ms))
    (first : Step.first? s' (t.value ++ Token.join (whole ms)) = some a)
    (length : t.value.length = a.length - 1 + 1)
    (firstu : Step.first? s' (u.value ++ Token.join us) = some b)
    (lengthu : u.value.length = b.length - 1 + 1)
    (hjoin : Token.join (u :: us) = Token.join (remaining ((t, false) :: ms)))
    (hshort : behind ms ≠ [] → u.value.length ≤ (stem ((t, false) :: ms)).length) : b = a := by
  have hwhole : t.value ++ Token.join (whole ms)
      = stem ((t, false) :: ms) ++ Token.join (whole (behind ms)) := join_whole ((t, false) :: ms)
  have hremaining : u.value ++ Token.join us
      = stem ((t, false) :: ms) ++ Token.join (remaining (behind ms)) :=
    hjoin.trans (join_remaining ((t, false) :: ms))
  rw [hwhole] at first
  rw [hremaining] at firstu
  obtain hnil | ⟨⟨r, hr⟩, hgap⟩ := behind_split h hsound
  · -- Nothing is left out, so that the texts are the same.
    have hnil' : behind ms = [] := hnil
    rw [hnil'] at first firstu
    rw [remaining_nil, ← whole_nil, first] at firstu
    exact (Option.some.inj firstu).symm
  · -- Both texts go on with a border behind the stem, and neither token reaches beyond it.
    have hr' : Token.join (whole (behind ms)) = scalar ';' :: r := hr
    have hle : u.value.length ≤ (stem ((t, false) :: ms)).length := hshort fun hnil => by
      rw [hnil] at hr'
      contradiction
    rw [hr'] at first
    have hne : stem ((t, false) :: ms) ≠ [] := by
      rw [stem_kept]
      exact List.append_ne_nil_of_left_ne_nil (ne_nil_of_length length) _
    have ha : a.length ≤ (stem ((t, false) :: ms)).length := by
      rw [stem_kept, List.length_append]
      omega
    have hagree := (local_first s').agree hne (ne_backslash_of_first first ha)
      (border_semicolon r) hgap.border
      (fun e he => Option.some.inj (first.symm.trans he) ▸ ha)
      (fun e he => by
        obtain rfl := Option.some.inj (firstu.symm.trans he)
        omega)
    exact (Option.some.inj ((first.symm.trans hagree).trans firstu)).symm

/-- If the first token of the lenient text does not go on behind what is left out, it is the one
that it was in the script. -/
theorem matched (h : Lexed s (whole ((t, false) :: ms))) (hsound : Sound ((t, false) :: ms))
    (hfollows : Follows s s' (t :: whole ms)) (hu : Lexed s' (u :: us))
    (hjoin : Token.join (u :: us) = Token.join (remaining ((t, false) :: ms)))
    (hshort : behind ms ≠ [] → u.value.length ≤ (stem ((t, false) :: ms)).length) :
    u.bare = t.bare ∧ Token.join us = Token.join (remaining ms) ∧
      ∃ s₁ s₁', Lexed s₁ (whole ms) ∧ Lexed s₁' us ∧ Follows s₁ s₁' (whole ms) ∧
        (t.isSignificant = true → s₁ = s₁') ∧ s₁.previous ≠ none := by
  obtain ⟨a, first, kind, length, rest⟩ := h.split
  obtain ⟨a', first', kind', length', hsame, hnext⟩ := hfollows.first first kind length
  obtain ⟨b, firstu, kindu, lengthu, restu⟩ := hu.split_cons
  obtain rfl : b = a' :=
    first_agree h hsound first' (length'.symm ▸ length) firstu lengthu hjoin hshort
  have hlengths : u.value.length = t.value.length := by omega
  obtain ⟨hvalue, hrest⟩ := List.append_inj hjoin hlengths
  have hkind : u.kind = t.kind := by rw [kindu, kind', kind]
  refine ⟨Prod.ext hkind hvalue, hrest, _, _, rest, hvalue ▸ restu, hnext, fun hsignificant => ?_,
    getLast_ne_none (ne_nil_of_length length)⟩
  rw [hsame hsignificant]

/-- Behind the same token, two canonical texts that go on alike have a semicolon both or neither. -/
theorem same_mark {d d' : Context} (h : Lexed s ts) (hu : Lexed s' us)
    (hhead : (Token.join us).head? = (Token.join ts).head?)
    (htext : semicolonIf (lacks c t ts) ++ punctuated d ts
      = semicolonIf (lacks c' u us) ++ punctuated d' us) :
    lacks c' u us = lacks c t ts ∧ punctuated d ts = punctuated d' us := by
  -- Only one of them would start with a semicolon.
  cases hm : lacks c t ts with
  | true =>
    have hne := head_of_lineEnds h (lineEnds_of_lacks hm)
    cases hm' : lacks c' u us with
    | true =>
      rw [hm, hm'] at htext
      exact ⟨rfl, (List.cons.inj htext).2⟩
    | false =>
      rw [hm, hm'] at htext
      exact absurd htext.symm (punctuated_ne_semicolon hu (hhead ▸ hne) _)
  | false =>
    cases hm' : lacks c' u us with
    | true =>
      rw [hm, hm'] at htext
      have hne := head_of_lineEnds hu (lineEnds_of_lacks hm')
      exact absurd htext (punctuated_ne_semicolon h (hhead ▸ hne) _)
    | false =>
      rw [hm, hm'] at htext
      exact ⟨rfl, htext⟩

/-- Behind a token that is kept, the lenient text has a token left too. -/
theorem exists_cons_of_join (h : Lexed s (whole ((t, false) :: ms)))
    (hjoin : Token.join us = Token.join (remaining ((t, false) :: ms))) :
    ∃ u us', us = u :: us' := by
  obtain ⟨a, -, -, length, -⟩ := h.split
  refine List.exists_cons_of_ne_nil ?_
  rintro rfl
  obtain ⟨hnil, -⟩ := List.append_eq_nil_iff.mp hjoin.symm
  exact ne_nil_of_length length hnil

/-- Where the lenient text misses a semicolon, its canonical text does not start with one. -/
theorem punctuated_ne_of_dropped (h : Lexed s (whole ((w, true) :: ms)))
    (hsound : Sound ((w, true) :: ms)) (hu : Lexed s' us)
    (hjoin : Token.join us = Token.join (remaining ((w, true) :: ms))) (rest : Text) :
    punctuated c us ≠ scalar ';' :: rest := by
  have hgap := gap_of_dropped h hsound
  rw [remaining_dropped] at hjoin
  rw [← hjoin] at hgap
  exact punctuated_ne_semicolon hu hgap.ne_semicolon rest

/-- Behind a token at which the lenient text misses a semicolon, and behind the semicolon itself in
the canonical text, the lexers still follow each other. -/
theorem follows_dropped (hbare : u.bare = t.bare) (hlacks : lacks c u us = true)
    (hsame : t.isSignificant = true → s = s') (h : Lexed s (whole ((w, true) :: ms)))
    (hsound : Sound ((w, true) :: ms)) (hstarted : s.previous ≠ none) :
    ∃ s₁, Lexed s₁ (whole ms) ∧ Follows s₁ s' (whole ms) := by
  have hsignificant : t.isSignificant = true :=
    (significant_of_bare hbare).symm.trans (lacks_iff.mp hlacks).1
  obtain rfl := hsame hsignificant
  obtain ⟨-, hlexed⟩ := h.of_semicolon (hsound.1 rfl).1
  exact ⟨_, hlexed, Or.inr (adrift_of_dropped h hsound (Or.inl rfl) hstarted)⟩

/-- There are no tokens of an empty text. -/
theorem Lexed.eq_nil (h : Lexed s us) (hjoin : Token.join us = []) : us = [] := by
  cases us with
  | nil => rfl
  | cons u us =>
    obtain ⟨a, -, -, length, -⟩ := h.split_cons
    exact absurd (List.append_eq_nil_iff.mp hjoin).1 (ne_nil_of_length length)

/-- What is left starts as before, unless the first token is left out. -/
theorem head_remaining (h : Lexed s (whole ms)) :
    (Token.join (remaining ms)).head? = (Token.join (whole ms)).head? ∨
      ∃ w ms', ms = (w, true) :: ms' := by
  -- the first token is kept, or it is the one that is left out
  match ms with
  | [] => exact Or.inl rfl
  | (w, true) :: ms => exact Or.inr ⟨w, ms, rfl⟩
  | (x, false) :: ms =>
    obtain ⟨a, -, -, length, -⟩ := h.split
    obtain ⟨d, value, hvalue⟩ := List.exists_cons_of_ne_nil (ne_nil_of_length length)
    rw [remaining_kept, whole_cons, join_cons, join_cons, hvalue]
    exact Or.inl rfl

/-- Equal canonical texts have their semicolons at the same places, and a semicolon that is missing
in the lenient text is put back. -/
theorem answered_of_eq (h : Lexed s (whole ms)) (hsound : Sound ms)
    (hfollows : Follows s s' (whole ms)) (hu : Lexed s' us)
    (hjoin : Token.join us = Token.join (remaining ms))
    (htext : punctuated c (whole ms) = punctuated c' us) : Answered c ms c' us := by
  -- The induction is on the length, for a token and the semicolon behind it go together.
  induction hn : ms.length using Nat.strongRecOn generalizing s s' c c' ms us with
  | ind n ih =>
    match ms with
    | [] =>
      obtain rfl := hu.eq_nil hjoin
      exact .nil
    | (t, true) :: ms =>
      -- The semicolon is missing in the lenient text, and its canonical text cannot start with it.
      obtain ⟨-, hvalue⟩ := isSemicolon_iff.mp (hsound.1 rfl).1
      rw [whole_cons, punctuated_cons, hvalue] at htext
      exact absurd htext.symm (punctuated_ne_of_dropped h hsound hu hjoin _)
    | (t, false) :: ms =>
      have hfollows' : Follows s s' (t :: whole ms) := hfollows
      obtain ⟨u, us, rfl⟩ := exists_cons_of_join h hjoin
      obtain ⟨hbare, hrest, s₁, s₁', hlexed, hlexed', hnext, hsame, hstarted⟩ :=
        matched h hsound hfollows' hu hjoin fun hbehind =>
          length_le_stem h hsound hbehind hjoin
            ((htext.trans (punctuated_cons c' u us)) ▸ punctuated_stem h hsound hbehind)
      rw [List.length_cons] at hn
      obtain hhead | ⟨w, ms, rfl⟩ := head_remaining hlexed
      · -- Both texts go on alike, so that both or neither have a semicolon behind the token.
        rw [← hrest] at hhead
        rw [whole_cons, punctuated_cons, punctuated_cons, value_of_bare hbare,
          List.append_cancel_left_eq] at htext
        obtain ⟨hmark, hrest'⟩ := same_mark hlexed hlexed' hhead htext
        exact .kept hbare hmark (ih _ (by omega) hlexed hsound.2 hnext hlexed' hrest hrest' rfl)
      · -- A semicolon is left out behind the token: it has to be put back.
        rw [whole_cons, whole_cons, punctuated_dropped (hsound.2.1 rfl).1, punctuated_cons,
          value_of_bare hbare, List.append_cancel_left_eq] at htext
        cases hmark : lacks c' u us with
        | false =>
          rw [hmark] at htext
          exact absurd htext.symm (punctuated_ne_of_dropped hlexed hsound.2 hlexed' hrest _)
        | true =>
          rw [hmark] at htext
          rw [List.length_cons] at hn
          obtain ⟨s₂, hlexed₂, hnext₂⟩ := follows_dropped hbare hmark hsame hlexed hsound.2 hstarted
          exact .dropped hbare hmark (ih ms.length (by omega) hlexed₂ hsound.2.2 hnext₂ hlexed'
            hrest (List.cons.inj htext).2 rfl)

end Dialects.Script
