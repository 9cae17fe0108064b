import Dialects.Proofs.Script.Punctuation

/-!
# When every semicolon is put back

A semicolon that is left out is put back if it stands directly behind a significant token behind
which the canonical dialect adds one (`restores`). That is the case for all of them if and only if
the canonical text stays the same: the tokens before a place are known alike in both texts
(`Alike`), so that every other semicolon is added in both or in neither.
-/

namespace Dialects.Script

open CodePoint (scalar)
open Canonical (Context lacksSemicolon)

variable {t u w : Token} {ts us ts₀ us₀ : List Token} {ms : List (Token × Bool)} {c c' : Context}

/-- Whether the canonical dialect puts back every semicolon that is left out: whether each of them
stands directly behind a token that lacks one then. -/
def restores (c : Context) : List (Token × Bool) → Bool
  | [] => true
  | (_, true) :: _ => false
  | (t, false) :: (w, true) :: ms =>
    lacks c t (whole ms) && restores (advance (advance c t (w :: whole ms)) w (whole ms)) ms
  | (t, false) :: ms => restores (advance c t (whole ms)) ms

/-! ## What depends on a token without its place -/

/-- What is asked of the next token does not depend on where it stands. -/
theorem any_congr {p : Token → Bool} (hp : ∀ t u : Token, t.bare = u.bare → p t = p u)
    {o o' : Option Token} (h : o.map Token.bare = o'.map Token.bare) : o.any p = o'.any p := by
  cases o with
  | none =>
    cases o' with
    | none => rfl
    | some u => contradiction
  | some t =>
    cases o' with
    | none => contradiction
    | some u => exact hp t u (Option.some.inj h)

/-- What a token opens does not depend on where it stands. -/
theorem opens_of_bare (h : t.bare = u.bare) : t.opens? = u.opens? := by
  rw [Token.opens?, Token.opens?, value_of_bare h, kind_of_bare h]

/-- What a token closes does not depend on where it stands. -/
theorem closes_of_bare (h : t.bare = u.bare) : t.closes? = u.closes? := by
  rw [Token.closes?, Token.closes?, value_of_bare h, kind_of_bare h]

/-- Whether a token awaits an operand does not depend on where it stands. -/
theorem awaitsOperand_of_bare (h : t.bare = u.bare) :
    Canonical.awaitsOperand t = Canonical.awaitsOperand u := by
  rw [Canonical.awaitsOperand, Canonical.awaitsOperand, value_of_bare h, kind_of_bare h]

/-- Whether a token continues a line does not depend on where it stands. -/
theorem continuesLine_of_bare (h : t.bare = u.bare) :
    Canonical.continuesLine t = Canonical.continuesLine u := by
  rw [Canonical.continuesLine, Canonical.continuesLine, joinsLine, joinsLine, value_of_bare h,
    kind_of_bare h]

/-- Whether a token may end a statement does not depend on where it stands. -/
theorem endsStatement_of_bare (h : t.bare = u.bare) (o : Option Opener) :
    Canonical.endsStatement t o = Canonical.endsStatement u o := by
  rw [Canonical.endsStatement, Canonical.endsStatement, awaitsOperand_of_bare h, value_of_bare h,
    kind_of_bare h]

/-- What a bracket opens depends on the token in front of it, but not on where that stands. -/
theorem classify_congr {b : Bracket} {o o' : Option Token}
    (h : o.map Token.bare = o'.map Token.bare) (label : Bool) :
    Canonical.classify b o label = Canonical.classify b o' label := by
  -- a bracket is classified by the kind and the value of the token in front of it
  have hround := any_congr (p := fun t => t.kind == .keyword &&
    Canonical.controlWords.contains t.value)
    (fun t u heq => by rw [value_of_bare heq, kind_of_bare heq]) h
  have hcurly := any_congr (p := fun t => Canonical.awaitsOperand t ||
    Canonical.objectLeads.contains t.value)
    (fun t u heq => by rw [awaitsOperand_of_bare heq, value_of_bare heq]) h
  cases b with
  | round => simp only [Canonical.classify, hround]
  | square => rfl
  | curly => simp only [Canonical.classify, hcurly]

/-! ## What is known at the same place -/

/-- The next significant token opens no bracket. -/
def Calm (ts : List Token) : Prop := ∀ t ∈ Token.nextSignificant? ts, t.opens? = none

/-- The same is known in front of `ts` and of `us`, apart from the last significant token if that
does not matter. -/
structure Alike (c c' : Context) (ts us : List Token) : Prop where
  openers : c.openers = c'.openers
  conditionals : c.conditionals = c'.conditionals
  afterLabel : c.afterLabel = c'.afterLabel
  last : c.last.map Token.bare = c'.last.map Token.bare ∨ Calm ts ∨ Calm us

/-- Question marks and colons leave the brackets as they are. -/
theorem answer_openers (c : Context) (t : Token) (ts : List Token) :
    (c.answer t ts).openers = c.openers := by
  rw [Context.answer]
  split
  · rfl
  · split
    · rfl
    · split
      · split <;> rfl
      · rfl

/-- What is open behind a token is decided by brackets alone. -/
theorem after_openers (c : Context) (t : Token) (ts : List Token) :
    (c.after t ts).openers = (c.nest t).openers := answer_openers _ t ts

/-- A bracket is opened or closed alike. -/
theorem Alike.nest (h : Alike c c' (t :: ts) (u :: us)) (hbare : t.bare = u.bare)
    (hsignificant : t.isSignificant = true) :
    (c.nest t).openers = (c'.nest u).openers ∧
      (c.nest t).conditionals = (c'.nest u).conditionals := by
  have hu : u.isSignificant = true := significant_of_bare hbare ▸ hsignificant
  rw [Context.nest, Context.nest, opens_of_bare hbare, closes_of_bare hbare]
  cases hopens : u.opens? with
  | none =>
    cases u.closes? with
    | none => exact ⟨h.openers, h.conditionals⟩
    | some b => exact ⟨congrArg List.tail h.openers, congrArg List.tail h.conditionals⟩
  | some b =>
    -- Where the tokens in front may differ, no bracket comes next.
    have hlast : c.last.map Token.bare = c'.last.map Token.bare := by
      obtain hlast | hcalm | hcalm := h.last
      · exact hlast
      · have hnone := hcalm t (nextSignificant_of_significant hsignificant)
        rw [opens_of_bare hbare, hopens] at hnone
        contradiction
      · have hnone := hcalm u (nextSignificant_of_significant hu)
        rw [hopens] at hnone
        contradiction
    refine ⟨?_, congrArg (0 :: ·) h.conditionals⟩
    show Canonical.classify b c.last c.afterLabel :: c.openers = _
    rw [classify_congr hlast, h.afterLabel, h.openers]

/-- A semicolon is added alike where the rest goes on alike. -/
theorem Alike.lacks_eq (h : Alike c c' (t :: ts₀) (u :: us₀)) (hbare : t.bare = u.bare)
    (hends : Token.lineEnds ts = Token.lineEnds us)
    (hnext : (Token.nextSignificant? ts).map Token.bare
      = (Token.nextSignificant? us).map Token.bare) :
    lacks c t ts = lacks c' u us := by
  rw [lacks, lacks, ← significant_of_bare hbare]
  cases hsignificant : t.isSignificant with
  | false => rfl
  | true =>
    obtain ⟨hopeners, -⟩ := h.nest hbare hsignificant
    have hstatements : (c.after t ts).inStatements = (c'.after u us).inStatements := by
      rw [Context.inStatements, Context.inStatements, after_openers, after_openers, hopeners]
    have hclosed : c.closed t = c'.closed u := by
      rw [Context.closed, Context.closed, opens_of_bare hbare, closes_of_bare hbare, h.openers]
    have hcontinues : (Token.nextSignificant? ts).any Canonical.continuesLine
        = (Token.nextSignificant? us).any Canonical.continuesLine :=
      any_congr (fun _ _ => continuesLine_of_bare) hnext
    rw [lacksSemicolon, lacksSemicolon, hends, hstatements, hclosed, hcontinues,
      endsStatement_of_bare hbare]

/-- How a token is spelled does not depend on where it stands. -/
theorem spells_of_bare (h : t.bare = u.bare) (v : String) : t.spells v = u.spells v := by
  rw [Token.spells, Token.spells, value_of_bare h]

/-- Tokens that follow each other without a space stand one place apart. -/
theorem startsChain_congr (ht : placed t.offset (t :: ts) = t :: ts)
    (hu : placed u.offset (u :: us) = u :: us) (hbare : t.bare = u.bare)
    (hmark : t.spells "?" = true)
    (hhead : ts.head?.map Token.bare = us.head?.map Token.bare) :
    Canonical.startsChain t ts = Canonical.startsChain u us := by
  have hone : t.value.length = 1 := by
    rw [Token.spells, beq_iff_eq] at hmark
    rw [hmark]
    rfl
  -- Whether a question mark starts a chain depends on the next token alone.
  have hnext {t : Token} {ts : List Token} (ht : placed t.offset (t :: ts) = t :: ts)
      (hone : t.value.length = 1) : Canonical.startsChain t ts = ts.head?.any (·.spells ".") := by
    cases ts with
    | nil => rfl
    | cons x ts =>
      rw [placed, placed, hone] at ht
      have hx : x.offset = t.offset + 1 :=
        (congrArg Token.offset (List.cons.inj (List.cons.inj ht).2).1).symm
      rw [Canonical.startsChain, hx, beq_self_eq_true, Bool.and_true]
      rfl
  rw [hnext ht hone, hnext hu (value_of_bare hbare ▸ hone)]
  exact any_congr (fun _ _ heq => spells_of_bare heq ".") hhead

/-- Question marks and colons are counted alike in two contexts that count alike so far. -/
theorem answer_congr {d d' : Context} (hopeners : d.openers = d'.openers)
    (hconditionals : d.conditionals = d'.conditionals) (hbare : t.bare = u.bare)
    (hchain : t.spells "?" = true → Canonical.startsChain t ts = Canonical.startsChain u us) :
    (d.answer t ts).conditionals = (d'.answer u us).conditionals ∧
      (d.answer t ts).afterLabel = (d'.answer u us).afterLabel := by
  have hquestion : (t.kind = .operator && t.spells "?" && !Canonical.startsChain t ts)
      = (u.kind = .operator && u.spells "?" && !Canonical.startsChain u us) := by
    rw [kind_of_bare hbare, ← spells_of_bare hbare]
    -- Only a question mark is asked whether it starts a chain.
    cases hmark : t.spells "?" with
    | false => rw [Bool.and_false, Bool.false_and, Bool.false_and]
    | true => rw [hchain hmark]
  have hstatements : d.inStatements = d'.inStatements := by
    rw [Context.inStatements, Context.inStatements, hopeners]
  rw [Context.answer, Context.answer, hquestion, hconditionals, kind_of_bare hbare,
    spells_of_bare hbare, hstatements]
  cases hd : d'.conditionals with
  | nil => exact ⟨rfl, rfl⟩
  | cons n outer =>
    cases (u.kind = .operator && u.spells "?" && !Canonical.startsChain u us : Bool) with
    | true => exact ⟨rfl, rfl⟩
    | false =>
      cases (u.kind = .operator && u.spells ":" : Bool) with
      | false => exact ⟨rfl, rfl⟩
      | true =>
        cases n with
        | zero => exact ⟨rfl, rfl⟩
        | succ n => exact ⟨rfl, rfl⟩

/-- What is known stays alike over a token that is left, whatever it is. -/
theorem Alike.kept (h : Alike c c' (t :: ts) (u :: us)) (hbare : t.bare = u.bare)
    (hchain : t.spells "?" = true → Canonical.startsChain t ts = Canonical.startsChain u us) :
    Alike (advance c t ts) (advance c' u us) ts us := by
  rw [advance, advance, ← significant_of_bare hbare]
  cases hsignificant : t.isSignificant with
  | false =>
    have hu : u.isSignificant = false := significant_of_bare hbare ▸ hsignificant
    refine ⟨h.openers, h.conditionals, h.afterLabel, ?_⟩
    obtain hlast | hcalm | hcalm := h.last
    · exact Or.inl hlast
    · rw [Calm, nextSignificant_of_insignificant hsignificant] at hcalm
      exact Or.inr (Or.inl hcalm)
    · rw [Calm, nextSignificant_of_insignificant hu] at hcalm
      exact Or.inr (Or.inr hcalm)
  | true =>
    obtain ⟨hopeners, hconditionals⟩ := h.nest hbare hsignificant
    obtain ⟨hanswered, hlabel⟩ := answer_congr hopeners hconditionals hbare hchain
    refine ⟨?_, hanswered, hlabel, Or.inl (congrArg some hbare)⟩
    exact ((after_openers c t ts).trans hopeners).trans (after_openers c' u us).symm

/-- A token that awaits no operand is neither a question mark nor a colon that is answered. -/
theorem answer_of_complete (hcomplete : Canonical.awaitsOperand t = false) (d : Context) :
    d.answer t ts = { d with afterLabel := false } := by
  -- neither mark is among the operators that end a statement
  have hmark {v : String} (hv : Text.ofString v ∉ Canonical.postfixOperators) :
      (t.kind = .operator && t.spells v : Bool) = false := by
    refine Bool.eq_false_iff.mpr fun hboth => ?_
    rw [Bool.and_eq_true, decide_eq_true_eq, Token.spells, beq_iff_eq] at hboth
    rw [awaitsOperand_of_operator hboth.1 (hboth.2 ▸ hv)] at hcomplete
    contradiction
  rw [Context.answer, hmark (by decide), hmark (by decide)]
  cases hd : d.conditionals <;> rfl

theorem nest_of_semicolon (hw : w.isSemicolon = true) (d : Context) : d.nest w = d := by
  obtain ⟨hopens, hcloses⟩ := opens_of_semicolon hw
  rw [Context.nest, hopens, hcloses]

theorem complete_of_semicolon (hw : w.isSemicolon = true) : Canonical.awaitsOperand w = false := by
  obtain ⟨hkind, -⟩ := isSemicolon_iff.mp hw
  rw [Canonical.awaitsOperand, hkind]
  rfl

/-- What is known stays alike over a token and a semicolon that is left out, if no bracket comes
next. -/
theorem Alike.dropped (h : Alike c c' (t :: ts₀) (u :: us)) (hbare : t.bare = u.bare)
    (hw : w.isSemicolon = true) (hsignificant : t.isSignificant = true)
    (hcomplete : Canonical.awaitsOperand t = false) (hcalm : Calm ts ∨ Calm us) :
    Alike (advance (advance c t (w :: ts)) w ts) (advance c' u us) ts us := by
  have hu : u.isSignificant = true := significant_of_bare hbare ▸ hsignificant
  have hcomplete' : Canonical.awaitsOperand u = false := awaitsOperand_of_bare hbare ▸ hcomplete
  obtain ⟨hopeners, hconditionals⟩ := h.nest hbare hsignificant
  -- a semicolon neither opens a bracket nor asks or answers anything
  rw [advance, advance, advance, if_pos (significant_of_semicolon hw), if_pos hsignificant,
    if_pos hu, Context.after, Context.after, Context.after, nest_of_semicolon hw,
    answer_of_complete (complete_of_semicolon hw), answer_of_complete hcomplete,
    answer_of_complete hcomplete']
  exact ⟨hopeners, hconditionals, rfl, Or.inr hcalm⟩

/-! ## What the lacking semicolons tell -/

/-- A token that lacks a semicolon awaits no operand. -/
theorem complete_of_lacks (h : lacks c t ts = true) : Canonical.awaitsOperand t = false := by
  obtain ⟨-, hlacks⟩ := lacks_iff.mp h
  rw [lacksSemicolon, Bool.and_eq_true, Bool.and_eq_true] at hlacks
  have hends := hlacks.1.2
  cases hawaits : Canonical.awaitsOperand t with
  | false => rfl
  | true =>
    have hkind : t.kind = .operator := by
      rw [Canonical.awaitsOperand, Bool.and_eq_true] at hawaits
      exact beq_iff_eq.mp hawaits.1
    have hclosed : c.closed t = none := by
      have hopens : t.opens? = none := by rw [Token.opens?, hkind]; rfl
      have hcloses : t.closes? = none := by rw [Token.closes?, hkind]; rfl
      rw [Context.closed, hopens, hcloses]
    rw [Canonical.endsStatement, hclosed, hawaits] at hends
    simp at hends

/-- A token that opens is the opening bracket of its sort. -/
theorem value_of_opens {b : Bracket} (h : t.opens? = some b) :
    t.kind = .punctuation ∧ t.value = [scalar b.opener] := by
  rw [Token.opens?] at h
  split at h
  · next hkind =>
    have hfound := List.find?_some h
    exact ⟨hkind, beq_iff_eq.mp hfound⟩
  · contradiction

/-- A token that closes is the closing bracket of its sort. -/
theorem value_of_closes {b : Bracket} (h : t.closes? = some b) :
    t.kind = .punctuation ∧ t.value = [scalar b.closer] := by
  rw [Token.closes?] at h
  split at h
  · next hkind =>
    have hfound := List.find?_some h
    exact ⟨hkind, beq_iff_eq.mp hfound⟩
  · contradiction

/-- A line that goes on with a bracket needs no semicolon in front of it. -/
theorem calm_of_lacks (h : lacks c t ts = true) : Calm ts := by
  intro u hu
  obtain ⟨-, hlacks⟩ := lacks_iff.mp h
  rw [lacksSemicolon, Bool.and_eq_true, hu, Option.any_some, Bool.not_eq_true'] at hlacks
  have hcontinues := hlacks.2
  cases hopens : u.opens? with
  | none => rfl
  | some b =>
    obtain ⟨-, hvalue⟩ := value_of_opens hopens
    have hmem : ∀ b : Bracket, [scalar b.opener] ∈ Canonical.continuations := by
      intro b
      cases b <;> decide
    rw [Canonical.continuesLine, hvalue, List.contains_iff_mem.mpr (hmem b)] at hcontinues
    contradiction

/-! ## Putting back every semicolon -/

/-- Answered tokens start with the same token. -/
theorem Answered.head_eq (h : Answered c ms c' us) :
    (whole ms).head?.map Token.bare = us.head?.map Token.bare := by
  cases h with
  | nil => rfl
  | kept bare mark rest => exact congrArg some bare.symm
  | dropped bare mark rest => exact congrArg some bare.symm

/-- Whether a token breaks the line does not depend on where it stands. -/
theorem breaksLine_of_bare (h : t.bare = u.bare) : t.breaksLine = u.breaksLine := by
  rw [Token.breaksLine, Token.breaksLine, Token.isComment, Token.isComment, value_of_bare h,
    kind_of_bare h]

/-- Answered tokens end the line at the same place. -/
theorem Answered.lineEnds_eq (h : Answered c ms c' us) :
    Token.lineEnds (whole ms) = Token.lineEnds us := by
  induction h with
  | nil => rfl
  | kept bare mark rest ih =>
    rw [whole_cons, Token.lineEnds, Token.lineEnds, breaksLine_of_bare bare,
      significant_of_bare bare, ih]
  | @dropped c c' t u w ms us bare mark rest ih =>
    have hu : u.isSignificant = true := (lacks_iff.mp mark).1
    have ht : t.isSignificant = true := significant_of_bare bare ▸ hu
    rw [whole_cons, Token.lineEnds, Token.lineEnds, breaksLine_of_bare bare, hu, ht]
    rfl

/-- Answered tokens have the same next significant token. -/
theorem Answered.next_eq (h : Answered c ms c' us) :
    (Token.nextSignificant? (whole ms)).map Token.bare
      = (Token.nextSignificant? us).map Token.bare := by
  induction h with
  | nil => rfl
  | @kept c c' t u ms us bare mark rest ih =>
    rw [whole_cons]
    cases hu : u.isSignificant with
    | true =>
      -- Significant tokens are kept or answered, so that the next one is the same.
      have ht : t.isSignificant = true := significant_of_bare bare ▸ hu
      rw [nextSignificant_of_significant hu, nextSignificant_of_significant ht, Option.map_some,
        Option.map_some, bare]
    | false =>
      have ht : t.isSignificant = false := significant_of_bare bare ▸ hu
      rw [nextSignificant_of_insignificant hu, nextSignificant_of_insignificant ht, ih]
  | @dropped c c' t u w ms us bare mark rest ih =>
    have hu : u.isSignificant = true := (lacks_iff.mp mark).1
    have ht : t.isSignificant = true := significant_of_bare bare ▸ hu
    rw [whole_cons, nextSignificant_of_significant hu, nextSignificant_of_significant ht,
      Option.map_some, Option.map_some, bare]

/-- Tokens that are in place start at the offset. -/
theorem placed_offset {offset : Nat} (h : placed offset (t :: ts) = t :: ts) :
    t.offset = offset := (congrArg Token.offset (List.cons.inj h).1).symm

/-- Behind the first one tokens are in place if all are. -/
theorem placed_tail {offset : Nat} (h : placed offset (t :: ts) = t :: ts) :
    placed (offset + t.value.length) ts = ts := (List.cons.inj h).2

/-- What is answered is put back. -/
theorem Answered.restores_eq (h : Answered c ms c' us) (hsound : Sound ms)
    (halike : Alike c c' (whole ms) us) {o o' : Nat} (hms : placed o (whole ms) = whole ms)
    (hus : placed o' us = us) : restores c ms = true := by
  induction h generalizing o o' with
  | nil => rfl
  | @kept c c' t u ms us bare mark rest ih =>
    have hrest : restores (advance c t (whole ms)) ms = true := by
      refine ih hsound.2 (halike.kept bare.symm fun hmark => ?_) (placed_tail hms) (placed_tail hus)
      refine startsChain_congr ?_ ?_ bare.symm hmark rest.head_eq
      · rw [placed_offset hms]
        exact hms
      · rw [placed_offset hus]
        exact hus
    cases rest with
    | nil => rfl
    | kept _ _ _ => exact hrest
    | dropped _ _ _ => exact hrest
  | @dropped c c' t u w ms us bare mark rest ih =>
    have hu : u.isSignificant = true := (lacks_iff.mp mark).1
    have ht : t.isSignificant = true := significant_of_bare bare ▸ hu
    have hcomplete : Canonical.awaitsOperand t = false :=
      -- Behind a complete token the canonical dialect misses the semicolon in both lists.
      awaitsOperand_of_bare bare ▸ complete_of_lacks mark
    have hnext : Alike (advance (advance c t (w :: whole ms)) w (whole ms)) (advance c' u us)
        (whole ms) us :=
      halike.dropped bare.symm (hsound.2.1 rfl).1 ht hcomplete (Or.inr (calm_of_lacks mark))
    have hrest := ih hsound.2.2 hnext (placed_tail (placed_tail hms)) (placed_tail hus)
    have hlacks : lacks c t (whole ms) = lacks c' u us :=
      halike.lacks_eq bare.symm rest.lineEnds_eq rest.next_eq
    rw [restores, hlacks, mark, hrest]
    rfl

/-- What is put back is answered. -/
theorem answered_of_restores (h : restores c ms = true) (hsound : Sound ms) {o o' : Nat}
    (halike : Alike c c' (whole ms) (placed o' (remaining ms)))
    (hms : placed o (whole ms) = whole ms) : Answered c ms c' (placed o' (remaining ms)) := by
  induction hn : ms.length using Nat.strongRecOn generalizing c c' ms o o' with
  | ind n ih =>
    -- A token that is left where no semicolon is missing behind it.
    have hkept {t : Token} {ms : List (Token × Bool)} (hn : ms.length + 1 = n)
        (hrest : restores (advance c t (whole ms)) ms = true) (hsound : Sound ms)
        (halike : Alike c c' (t :: whole ms) (placed o' (remaining ((t, false) :: ms))))
        (hms : placed o (t :: whole ms) = t :: whole ms)
        (hhead : (whole ms).head?.map Token.bare
          = (placed (o' + t.value.length) (remaining ms)).head?.map Token.bare) :
        Answered c ((t, false) :: ms) c' (placed o' (remaining ((t, false) :: ms))) := by
      have hbare : ({ t with offset := o' } : Token).bare = t.bare := rfl
      have hnext := halike.kept hbare.symm fun hmark => by
        refine startsChain_congr ?_ ?_ hbare.symm hmark hhead
        · rw [placed_offset hms]
          exact hms
        · rw [placed, placed_placed]
      have hanswered := ih ms.length (by omega) hrest hsound hnext (placed_tail hms) rfl
      have hmark := halike.lacks_eq hbare.symm hanswered.lineEnds_eq hanswered.next_eq
      exact .kept hbare hmark.symm hanswered
    rcases ms with _ | ⟨⟨t, _ | _⟩, ms⟩
    · exact .nil
    rcases ms with _ | ⟨⟨w, _ | _⟩, ms⟩
    · exact hkept hn h hsound.2 halike hms rfl
    · exact hkept hn h hsound.2 halike hms rfl
    · rw [restores, Bool.and_eq_true] at h
      obtain ⟨hlacks, hrest⟩ := h
      have hbare : ({ t with offset := o' } : Token).bare = t.bare := rfl
      have hnext := halike.dropped hbare.symm (hsound.2.1 rfl).1 (lacks_iff.mp hlacks).1
        (complete_of_lacks hlacks) (Or.inl (calm_of_lacks hlacks))
      simp only [List.length_cons] at hn
      have hanswered := ih ms.length (by omega) hrest hsound.2.2 hnext
        (placed_tail (placed_tail hms)) rfl
      have hmark := halike.lacks_eq hbare.symm hanswered.lineEnds_eq hanswered.next_eq
      exact .dropped hbare (hmark ▸ hlacks) hanswered
    · contradiction

/-- Semicolons that are put back stand directly behind tokens that can end a statement. -/
theorem fit_of_restores (h : restores c ms = true) : Fit ms := by
  induction hn : ms.length using Nat.strongRecOn generalizing c ms with
  | ind n ih =>
    match ms with
    | [] => exact .nil
    | (t, true) :: ms => contradiction
    | [(t, false)] => exact .kept .nil
    | (t, false) :: (x, false) :: ms =>
      have hrest : restores (advance c t (whole ((x, false) :: ms))) ((x, false) :: ms) = true := h
      rw [List.length_cons] at hn
      exact .kept (ih _ (by omega) hrest rfl)
    | (t, false) :: (w, true) :: ms =>
      rw [restores, Bool.and_eq_true] at h
      simp only [List.length_cons] at hn
      exact .dropped (lacks_iff.mp h.1).1 (complete_of_lacks h.1) (ih _ (by omega) h.2 rfl)

end Dialects.Script
