import Dialects.Proofs.Script.Fused
import Dialects.Proofs.Script.Stability

/-!
# Lists in braces

Behind some reserved words a brace opens a list: the names that are imported or exported, the
pattern of a declaration, or an object that is thrown. The canonical dialect takes it for the start
of a block, so that a line that ends directly inside it is treated as one that ends a statement.
`listText_toCanonical_iff` says exactly when no semicolon is added there.
-/

namespace Dialects.Script

open CodePoint (scalar)
open Canonical (Context continuesLine endsStatement lacksSemicolon)

variable {t u : Token} {ts us : List Token} {c : Context} {lists : List Bool} {led led' : Bool}
  {inside : Bool}

/-! ## Where the lists are -/

/-- Reserved words behind which a brace opens a list. -/
def listLeads : List Text := spellings ["import", "export", "const", "let", "var", "throw"]

/-- Whether a token is such a word. -/
def leadsList (t : Token) : Bool := t.kind == .keyword && listLeads.contains t.value

/-- For each open bracket, innermost first, whether it is the brace of a list. The flag says whether
the last significant token leads a list. -/
def enclose (led : Bool) (lists : List Bool) (t : Token) : List Bool :=
  match t.opens?, t.closes? with
  | some b, _ => (led && b == .curly) :: lists
  | none, some _ => lists.tail
  | none, none => lists

/-- Whether a place stands directly inside the braces of a list, given its open brackets. -/
def inList (lists : List Bool) : Bool := lists.headD false

/-- Whether the last significant token leads a list. -/
def nowLed (led : Bool) (t : Token) : Bool := if t.isSignificant then leadsList t else led

/-- The text that stands directly inside the braces of lists. -/
def listTextFrom (led : Bool) (lists : List Bool) : List Token → Text
  | [] => []
  | t :: ts =>
    (if inList (enclose led lists t) then t.value else []) ++
      listTextFrom (nowLed led t) (enclose led lists t) ts

/-- The text of a script that stands directly inside the braces of lists. -/
def listText (script : Text) : Except Failure Text := (tokens script).map (listTextFrom false [])

/-- Whether a line goes on behind a token that is not its last significant one, or ends with it
where no statement can end, or is continued by the next line. -/
def goesOn (c : Context) (t : Token) (ts : List Token) : Bool :=
  !(t.isSignificant && Token.lineEnds ts && endsStatement t (c.closed t)) ||
    (Token.nextSignificant? ts).any continuesLine

/-- Whether no line that ends directly inside the braces of a list ends as a statement does. -/
def listsGoOn (c : Context) (lists : List Bool) : List Token → Bool
  | [] => true
  | t :: ts =>
    (!inList (enclose (c.last.any leadsList) lists t) || goesOn c t ts) &&
      listsGoOn (advance c t ts) (enclose (c.last.any leadsList) lists t) ts

/-- Whether the lists of a script have no line that ends as a statement does. -/
def sparesLists (script : Text) : Bool :=
  match tokens script with
  | .ok ts => listsGoOn .initial [] ts
  | .error _ => false

/-! ## Lists are taken for blocks -/

/-- The open brackets, as they are known to the canonical dialect and as lists. -/
def Listed (c : Context) (lists : List Bool) : Prop :=
  List.Forall₂ (fun list o => list = true → o = .block) lists c.openers

/-- A brace behind a word that leads a list is taken for the start of a block. -/
theorem classify_of_led (h : c.last.any leadsList = true) :
    Canonical.classify .curly c.last c.afterLabel = .block := by
  cases hlast : c.last with
  | none =>
    rw [hlast] at h
    contradiction
  | some t =>
    rw [hlast, Option.any_some, leadsList, Bool.and_eq_true, beq_iff_eq] at h
    obtain ⟨hkind, hword⟩ := h
    have hawaits : Canonical.awaitsOperand t = false := by
      rw [Canonical.awaitsOperand, hkind]
      rfl
    have hobject : Canonical.objectLeads.contains t.value = false := by
      have hnone : ∀ w ∈ listLeads, Canonical.objectLeads.contains w = false := by decide
      exact hnone t.value (List.contains_iff_mem.mp hword)
    rw [Canonical.classify, Option.any_some, hawaits, hobject]
    split <;> rfl

/-- Whether brackets are those of lists is known from token to token. -/
theorem Listed.advance (h : Listed c lists) (t : Token) (ts : List Token) :
    Listed (advance c t ts) (enclose (c.last.any leadsList) lists t) := by
  rw [Script.advance]
  split
  · rw [Listed, after_openers, Context.nest, enclose]
    cases t.opens? with
    | some b =>
      -- A brace that leads a list is taken for one that opens a list.
      refine .cons (fun hlist => ?_) h
      rw [Bool.and_eq_true, beq_iff_eq] at hlist
      obtain ⟨hled, rfl⟩ := hlist
      exact classify_of_led hled
    | none =>
      cases t.closes? with
      | none => exact h
      | some b =>
        -- A closing bracket takes away the innermost one on both sides.
        rw [Listed] at h
        generalize c.openers = openers at h ⊢
        cases h with
        | nil => exact .nil
        | cons _ hrest => exact hrest
  · next hinsignificant =>
    obtain ⟨hopens, hcloses⟩ := opens_of_insignificant (Bool.eq_false_iff.mpr hinsignificant)
    rw [enclose, hopens, hcloses]
    exact h

/-- Directly inside the braces of a list a semicolon is added at each end of a line where a
statement could end. -/
theorem lacks_in_list (h : Listed c lists)
    (hlist : inList (enclose (c.last.any leadsList) lists t) = true) (ts : List Token) :
    lacks c t ts = !goesOn c t ts := by
  rw [lacks, goesOn, Bool.not_or, Bool.not_not]
  cases hsignificant : t.isSignificant with
  | false => rfl
  | true =>
    have hlisted := h.advance t ts
    rw [Script.advance, if_pos hsignificant, Listed] at hlisted
    have hstatements : (c.after t ts).inStatements = true := by
      rw [Context.inStatements]
      generalize (c.after t ts).openers = openers at hlisted ⊢
      generalize enclose (c.last.any leadsList) lists t = lists' at hlist hlisted
      cases hlisted with
      | nil => rfl
      | cons hblock _ => exact beq_iff_eq.mpr (hblock hlist)
    rw [lacksSemicolon, hstatements, Bool.and_true, Bool.true_and, Bool.true_and]

/-! ## The text with the added semicolons -/

/-- Whether a list starts next does not depend on the two flags. -/
def LedAlike (led led' : Bool) (ts : List Token) : Prop :=
  led = led' ∨ ∀ t, Token.nextSignificant? ts = some t → t.opens? ≠ some .curly

/-- Brackets are those of lists in both texts or in neither. -/
theorem LedAlike.enclose (h : LedAlike led led' (t :: ts)) (lists : List Bool) :
    enclose led lists t = enclose led' lists t := by
  rw [Script.enclose, Script.enclose]
  obtain rfl | hnext := h
  · rfl
  cases hopens : t.opens? with
  | none => cases t.closes? <;> rfl
  | some b =>
    -- A bracket is significant, so that it is the next significant token and not a brace.
    have hsignificant : t.isSignificant = true := by
      refine Bool.of_not_eq_false fun hinsignificant => ?_
      rw [(opens_of_insignificant hinsignificant).1] at hopens
      contradiction
    have hcurly : (b == .curly) = false := by
      refine beq_false_of_ne ?_
      rintro rfl
      exact hnext t (nextSignificant_of_significant hsignificant) hopens
    show (led && b == .curly) :: lists = (led' && b == .curly) :: lists
    rw [hcurly, Bool.and_false, Bool.and_false]

/-- Both texts go on to be led alike. -/
theorem LedAlike.next (h : LedAlike led led' (t :: ts)) :
    LedAlike (nowLed led t) (nowLed led' t) ts := by
  cases hsignificant : t.isSignificant with
  | true =>
    -- a significant token decides what leads the next one, whatever led it itself
    rw [nowLed, nowLed, hsignificant]
    exact Or.inl rfl
  | false =>
    rw [nowLed, nowLed, hsignificant]
    -- any other token leaves both as they were, and the next significant token is the same
    rw [LedAlike, nextSignificant_of_insignificant hsignificant] at h
    exact h

/-- No list starts behind a semicolon that is added. -/
theorem ledAlike_of_lacks (h : lacks c t ts = true) : LedAlike led led' ts := by
  refine Or.inr fun u hu hopens => ?_
  obtain ⟨-, hlacks⟩ := lacks_iff.mp h
  obtain ⟨-, hvalue⟩ := value_of_opens hopens
  have hcontinues : continuesLine u = true := by
    rw [continuesLine, hvalue]
    rfl
  rw [lacksSemicolon, hu, Option.any_some, hcontinues, Bool.not_true, Bool.and_false] at hlacks
  contradiction

/-- What leads a list is the last significant token. -/
theorem last_advance (c : Context) (t : Token) (ts : List Token) :
    (advance c t ts).last.any leadsList = nowLed (c.last.any leadsList) t := by
  rw [advance, nowLed]
  split <;> rfl

/-- The text directly inside the braces of lists grows by the semicolons that are added there. -/
theorem listText_supplied (h : Listed c lists) (hled : LedAlike led (c.last.any leadsList) ts) :
    (listTextFrom (c.last.any leadsList) lists ts).length
        ≤ (listTextFrom led lists (whole (supplied c ts))).length ∧
      (listTextFrom led lists (whole (supplied c ts))
        = listTextFrom (c.last.any leadsList) lists ts ↔ listsGoOn c lists ts = true) := by
  -- That the text is no shorter is what tells it apart once a semicolon was added.
  induction ts generalizing c lists led with
  | nil => exact ⟨Nat.le_refl _, iff_of_true rfl rfl⟩
  | cons t ts ih =>
    rw [listTextFrom, listsGoOn, ← last_advance c t ts]
    have hlisted := h.advance t ts
    have hinside (hlist : inList (enclose (c.last.any leadsList) lists t) = true) :
        goesOn c t ts = !lacks c t ts := by
      rw [lacks_in_list h hlist, Bool.not_not]
    cases hlacks : lacks c t ts with
    | false =>
      rw [supplied_of_complete hlacks, whole_cons, listTextFrom, hled.enclose]
      obtain ⟨hle, hiff⟩ := ih hlisted (last_advance c t ts ▸ hled.next)
      have hgoes : (!inList (enclose (c.last.any leadsList) lists t) || goesOn c t ts) = true := by
        cases hlist : inList (enclose (c.last.any leadsList) lists t) with
        | false => rfl
        | true => rw [hinside hlist, hlacks, Bool.not_false, Bool.or_true]
      rw [hgoes, Bool.true_and, List.append_cancel_left_eq, List.length_append, List.length_append]
      exact ⟨Nat.add_le_add_left hle _, hiff⟩
    | true =>
      -- The semicolon is no bracket, and it takes the place of the word that led a list, if any.
      have hsemicolon : enclose (nowLed led t) (enclose led lists t) semicolon
          = enclose (c.last.any leadsList) lists t := hled.enclose lists
      have hunled : nowLed (nowLed led t) semicolon = false := rfl
      rw [supplied_of_lacks hlacks, whole_cons, whole_cons, listTextFrom, listTextFrom, hsemicolon,
        hunled, hled.enclose]
      have hnext : LedAlike false ((advance c t ts).last.any leadsList) ts :=
        ledAlike_of_lacks hlacks
      obtain ⟨hle, hiff⟩ := ih hlisted hnext
      cases hlist : inList (enclose (c.last.any leadsList) lists t) with
      | false =>
        -- The semicolon stands elsewhere.
        exact ⟨hle, hiff⟩
      | true =>
        -- The semicolon stands in the list, and the text is longer.
        have hgoesOn : goesOn c t ts = false := by rw [hinside hlist, hlacks, Bool.not_true]
        have hone : semicolon.value.length = 1 := rfl
        rw [if_pos rfl, if_pos rfl, hgoesOn, List.append_cancel_left_eq]
        simp only [List.length_append, hone]
        refine ⟨by omega, iff_of_false (fun heq => ?_) (fun hall => by contradiction)⟩
        have hlengths := congrArg List.length heq
        rw [List.length_append, hone] at hlengths
        omega

/-! ## The tokens of the canonical text -/

/-- Whether a token leads a list does not depend on where it stands. -/
theorem leadsList_of_bare (h : u.bare = t.bare) : leadsList u = leadsList t := by
  rw [leadsList, leadsList, kind_of_bare h, value_of_bare h]

/-- Whether a list is led now does not depend on where the token stands. -/
theorem nowLed_of_bare (h : u.bare = t.bare) (led : Bool) : nowLed led u = nowLed led t := by
  rw [nowLed, nowLed, significant_of_bare h, leadsList_of_bare h]

/-- Whether brackets are those of lists does not depend on where the token stands. -/
theorem enclose_of_bare (h : u.bare = t.bare) (led : Bool) (lists : List Bool) :
    enclose led lists u = enclose led lists t := by
  rw [enclose, enclose, opens_of_bare h, closes_of_bare h]

theorem leadsList_of_kind (h : t.kind ≠ .keyword) : leadsList t = false := by
  rw [leadsList, beq_false_of_ne h]
  rfl

/-- In the text of a template no list starts or ends. -/
theorem Piece.list (h : Piece t) (lists : List Bool) :
    enclose false lists t = lists ∧ nowLed false t = false := by
  constructor
  · rw [enclose, h.opens.1, h.opens.2]
  · -- a piece is text or a semicolon, and neither is a keyword
    have hkind : t.kind ≠ .keyword := by
      obtain hkind | hsemicolon := h.kind
      · rw [hkind]
        decide
      · rw [(isSemicolon_iff.mp hsemicolon).1]
        decide
    rw [nowLed, leadsList_of_kind hkind, ite_self]

/-- Nothing that leads into the text of a template leads a list. -/
theorem kind_of_entry (hinside : inside = true → t.kind = .template ∨ t.kind = .other)
    (hends : endsInTemplate inside t = true) : t.kind ≠ .keyword := by
  intro hkeyword
  -- in a template only its text and what ends it are found, and in code only a backtick or a brace
  cases inside with
  | true =>
    rw [hkeyword] at hinside
    obtain hkind | hkind := hinside rfl <;> contradiction
  | false =>
    rw [endsInTemplate, hkeyword] at hends
    contradiction

/-- Whether pieces of the text of a template are one token or several is of no account. -/
theorem Fused.listText (h : Fused inside us ts) (hled : inside = true → led = false)
    (lists : List Bool) : listTextFrom led lists us = listTextFrom led lists ts := by
  induction h generalizing led lists with
  | nil => rfl
  | @same inside t u ts us bare text entry rest ih =>
    rw [listTextFrom, listTextFrom, enclose_of_bare bare, nowLed_of_bare bare, value_of_bare bare]
    refine congrArg _ (ih (fun hends => ?_) _)
    -- What leads into the text of a template is significant, and no word that leads a list.
    rw [nowLed, leadsList_of_kind (kind_of_entry text hends)]
    cases hinside : inside with
    | true => rw [hled hinside, ite_self]
    | false => rw [if_pos (entry hinside hends)]
  | alone ht hu value rest ih =>
    obtain rfl := hled rfl
    rw [listTextFrom, listTextFrom, (ht.list lists).1, (ht.list lists).2, (hu.list lists).1,
      (hu.list lists).2, value, ih fun _ => rfl]
  | @joined t u w ts us ht hu hw value rest ih =>
    obtain rfl := hled rfl
    -- The rest of the tokens is compared with the second part of the piece in front of it.
    have hrest : listTextFrom false lists (w :: us) = listTextFrom false lists ts :=
      ih (fun _ => rfl) lists
    rw [listTextFrom, (hw.list lists).1, (hw.list lists).2] at hrest
    rw [listTextFrom, listTextFrom, (ht.list lists).1, (ht.list lists).2, (hu.list lists).1,
      (hu.list lists).2, ← hrest, value, ← List.append_assoc]
    cases inList lists <;> rfl

/-- Saving a script adds no semicolon directly inside the braces of lists if and only if no line
that ends there ends as a statement does. -/
theorem listText_toCanonical_iff {script canonical : Text}
    (h : toCanonical script = .ok canonical) :
    listText canonical = listText script ↔ sparesLists script = true := by
  cases htokens : tokens script with
  | error f =>
    rw [toCanonical, htokens] at h
    contradiction
  | ok ts =>
    obtain rfl := Except.ok.inj ((toCanonical_eq htokens).symm.trans h)
    obtain ⟨us, hus, hfused⟩ := tokens_punctuated htokens
    have hlisted : Listed .initial [] := .nil
    have hled : LedAlike false (Context.initial.last.any leadsList) ts := Or.inl rfl
    obtain ⟨-, hiff⟩ := listText_supplied hlisted hled
    have hcanonical : listText (punctuated .initial ts)
        = .ok (listTextFrom false [] (whole (supplied .initial ts))) := by
      rw [listText, hus]
      -- Where the tokens differ is the text of templates, which belongs to no list.
      exact congrArg Except.ok (hfused.listText (fun hinside => by contradiction) [])
    rw [hcanonical, listText, sparesLists, htokens, ← hiff]
    show Except.ok _ = Except.ok _ ↔ _
    rw [Except.ok.injEq]
    rfl

/-- A line of the pattern ends with a comma and the other one goes on behind it, so that the only
semicolon is added behind the declaration. -/
theorem listText_toCanonical_pattern :
    toCanonical (Text.ofString "const\x7ba,\nb\x7d=c\n")
        = .ok (Text.ofString "const\x7ba,\nb\x7d=c;\n") ∧
      sparesLists (Text.ofString "const\x7ba,\nb\x7d=c\n") = true ∧
      listText (Text.ofString "const\x7ba,\nb\x7d=c;\n")
        = listText (Text.ofString "const\x7ba,\nb\x7d=c\n") := by
  have hcanonical : toCanonical (Text.ofString "const\x7ba,\nb\x7d=c\n")
      = .ok (Text.ofString "const\x7ba,\nb\x7d=c;\n") := eq_ok_of_toOption (by decide +kernel)
  have hspares : sparesLists (Text.ofString "const\x7ba,\nb\x7d=c\n") = true := by decide +kernel
  exact ⟨hcanonical, hspares, (listText_toCanonical_iff hcanonical).mpr hspares⟩

/-- The name that is imported ends its line as a statement does, and a semicolon is added behind
it. -/
theorem not_listText_toCanonical_import :
    toCanonical (Text.ofString "import\x7b\na\n\x7dfrom'm'\n")
        = .ok (Text.ofString "import\x7b\na;\n\x7dfrom'm';\n") ∧
      listText (Text.ofString "import\x7b\na\n\x7dfrom'm'\n")
        = .ok (Text.ofString "\x7b\na\n") ∧
      listText (Text.ofString "import\x7b\na;\n\x7dfrom'm';\n")
        = .ok (Text.ofString "\x7b\na;\n") ∧
      listText (Text.ofString "import\x7b\na;\n\x7dfrom'm';\n")
        ≠ listText (Text.ofString "import\x7b\na\n\x7dfrom'm'\n") := by
  have hcanonical : toCanonical (Text.ofString "import\x7b\na\n\x7dfrom'm'\n")
      = .ok (Text.ofString "import\x7b\na;\n\x7dfrom'm';\n") :=
    eq_ok_of_toOption (by decide +kernel)
  have hbefore : listText (Text.ofString "import\x7b\na\n\x7dfrom'm'\n")
      = .ok (Text.ofString "\x7b\na\n") := eq_ok_of_toOption (by decide +kernel)
  have hbehind : listText (Text.ofString "import\x7b\na;\n\x7dfrom'm';\n")
      = .ok (Text.ofString "\x7b\na;\n") := eq_ok_of_toOption (by decide +kernel)
  refine ⟨hcanonical, hbefore, hbehind, fun heq => ?_⟩
  rw [hbefore, hbehind] at heq
  have htexts := Except.ok.inj heq
  revert htexts
  decide

end Dialects.Script
