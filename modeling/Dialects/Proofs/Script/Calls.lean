import Dialects.Proofs.Script.Nesting
import Dialects.Proofs.Script.Stability

/-!
# Calls that end a statement

The bracket that closes a call ends a statement unless it closes the head of a control statement.
Which of the two it is has been decided when the bracket was opened, from the token in front of it
alone, and nothing between the brackets changes that (`lacks_closer_eq`). A call on a member whose
name is one of the reserved words that a head follows is therefore taken for such a head, and no
semicolon is added behind it (`lacking_memberCall`).
-/

namespace Dialects.Script

open Canonical (Context lacking lacksSemicolon classify)

variable {t name opener closer : Token} {ts us rest before arguments after : List Token}
  {c d : Context} {b : Bracket}

/-- Whether the token is a reserved word that a head in round brackets follows. -/
def Token.isControlWord (t : Token) : Bool :=
  t.kind == .keyword && Canonical.controlWords.contains t.value

/-! ## What is known behind some tokens -/

/-- The last significant token is known, be it one of these or one in front of them. -/
theorem reach_last (c : Context) (ts rest : List Token) :
    (reach c ts rest).last = (ts.filter Token.isSignificant).getLast?.or c.last := by
  induction ts generalizing c with
  | nil => rfl
  | cons t ts ih =>
    rw [reach, ih, advance]
    -- blank space and comments leave the last token as it is
    cases hsignificant : t.isSignificant with
    | false => rw [List.filter_cons_of_neg (by rw [hsignificant]; decide), if_neg (by decide)]
    | true =>
      rw [List.filter_cons_of_pos hsignificant, if_pos rfl, List.getLast?_cons]
      cases (ts.filter Token.isSignificant).getLast? <;> rfl

theorem conditionals_ne_nil_of_opens (hopens : t.opens? = some b) (c : Context)
    (rest : List Token) : (advance c t rest).conditionals ≠ [] := by
  have hnest : (c.nest t).conditionals = 0 :: c.conditionals := by rw [Context.nest, hopens]
  obtain ⟨m, hm⟩ := answer_conditionals hnest t rest
  rw [advance, if_pos (significant_of_isBracket (isBracket_of_opens hopens))]
  exact hm ▸ List.cons_ne_nil m _

/-- What is known behind a bracket that opens and well-nested ones inside: which bracket it is, and
what is open around it. -/
theorem openers_of_arguments (hopens : opener.opens? = some b)
    (harguments : WellNested (arguments.filter Token.isBracket)) (c : Context)
    (rest : List Token) :
    (reach c (opener :: arguments) rest).openers
      = classify b c.last c.afterLabel :: c.openers := by
  rw [reach, openers_of_wellNested harguments (conditionals_ne_nil_of_opens hopens c _),
    openers_of_opens hopens]

/-! ## Brackets that close -/

/-- A round bracket that closes can end a statement unless it closes the head of a control
statement. -/
theorem endsStatement_closer (hcloses : closer.closes? = some .round) (label : Bool)
    (last : Option Token) :
    Canonical.endsStatement closer (some (classify .round last label))
      = !last.any Token.isControlWord := by
  obtain ⟨hkind, hvalue⟩ := value_of_closes hcloses
  have hopen : Canonical.openEnds.contains closer.value = false := by
    rw [hvalue]
    decide
  have hcomplete : Canonical.awaitsOperand closer = false := by
    rw [Canonical.awaitsOperand, hkind]
    rfl
  have hround : classify .round last label
      = if last.any Token.isControlWord then .head else .group := rfl
  rw [Canonical.endsStatement, hopen, hcomplete, hkind, hround]
  cases last.any Token.isControlWord <;> rfl

/-- Where a line ends with a round bracket that closes, and the next line does not go on with it, a
semicolon is added if statements stand around the brackets and they are not the head of a control
statement. -/
theorem lacks_closer_eq (hopens : opener.opens? = some .round)
    (hcloses : closer.closes? = some .round)
    (harguments : WellNested (arguments.filter Token.isBracket))
    (hends : Token.lineEnds after = true)
    (hnext : (Token.nextSignificant? after).any Canonical.continuesLine = false) (c : Context) :
    lacks (reach c (opener :: arguments) (closer :: after)) closer after
      = (c.inStatements && !c.last.any Token.isControlWord) := by
  have hopeners := openers_of_arguments hopens harguments c (closer :: after)
  generalize reach c (opener :: arguments) (closer :: after) = d at hopeners ⊢
  have hnone : closer.opens? = none := opens_of_closes hcloses
  -- What the bracket closes is what was noted when it was opened.
  have hclosed : d.closed closer = some (classify .round c.last c.afterLabel) := by
    rw [Context.closed, hnone, hcloses]
    exact congrArg List.head? hopeners
  -- Behind the bracket the same brackets are open as in front of the pair.
  have hstatements : (d.after closer after).inStatements = c.inStatements := by
    have hafter : (d.after closer after).openers = c.openers := by
      rw [after_openers, Context.nest, hnone, hcloses]
      exact congrArg List.tail hopeners
    rw [Context.inStatements, hafter, Context.inStatements]
  rw [lacks, significant_of_isBracket (isBracket_of_closes hcloses), lacksSemicolon, hends,
    hstatements, hclosed, endsStatement_closer hcloses, hnext, Bool.true_and, Bool.true_and,
    Bool.not_false, Bool.and_true]

/-! ## Calls on a member -/

/-- The tokens `ts` have a line that ends with a call on a member, where statements stand, and that
the next line does not go on with. -/
structure MemberCall (ts before : List Token) (name opener : Token) (arguments : List Token)
    (closer : Token) (after : List Token) : Prop where
  tokens : ts = before ++ opener :: arguments ++ closer :: after
  /-- In front of the arguments stands the name of the member, behind a dot. -/
  member : ∃ front dot, before.filter Token.isSignificant = front ++ [dot, name] ∧
    dot.spells "." = true
  opens : opener.opens? = some .round
  closes : closer.closes? = some .round
  /-- The two brackets are a pair. -/
  nested : WellNested (arguments.filter Token.isBracket)
  /-- No bracket is open around the call, or the innermost one holds statements. -/
  statement : (reach .initial before (opener :: arguments ++ closer :: after)).inStatements = true
  ends : Token.lineEnds after = true
  next : (Token.nextSignificant? after).any Canonical.continuesLine = false

/-- Behind such a call a semicolon is added, unless the name of the member is a reserved word that a
head in round brackets follows. -/
theorem lacking_memberCall {script : Text} (htokens : tokens script = .ok ts)
    (h : MemberCall ts before name opener arguments closer after) :
    toCanonical script = .ok (Canonical.join ts (lacking .initial ts)) ∧
      (lacking .initial ts)[(before ++ opener :: arguments).length]?
        = some (!name.isControlWord) := by
  obtain ⟨front, dot, hmember, -⟩ := h.member
  refine ⟨toCanonical_eq htokens, ?_⟩
  have hlast : (reach .initial before (opener :: arguments ++ closer :: after)).last
      = some name := by
    rw [reach_last, hmember, List.getLast?_append]
    rfl
  have hlacks := lacks_closer_eq h.opens h.closes h.nested h.ends h.next
    (reach .initial before (opener :: arguments ++ closer :: after))
  rw [h.statement, hlast, Bool.true_and, Option.any_some] at hlacks
  rw [h.tokens, ← List.head?_drop, lacking_drop, lacking_cons, reach_append, List.head?_cons,
    hlacks]

/-- A mark of punctuation. -/
def Token.mark (offset : Nat) (s : String) : Token := ⟨offset, .punctuation, Text.ofString s⟩

/-- The tokens of the line `p.then(f)`, with any name in place of `then`. -/
def memberLine (name : Token) : List Token :=
  [⟨0, .other, Text.ofString "p"⟩, Token.mark 1 ".", name] ++
    Token.mark (2 + name.value.length) "(" ::
      [⟨3 + name.value.length, .other, Text.ofString "f"⟩] ++
    Token.mark (4 + name.value.length) ")" ::
      [⟨5 + name.value.length, .other, Text.ofString "\n"⟩]

theorem memberCall_memberLine (hsignificant : name.isSignificant = true)
    (hbracket : name.isBracket = false) :
    MemberCall (memberLine name) [⟨0, .other, Text.ofString "p"⟩, Token.mark 1 ".", name] name
      (Token.mark (2 + name.value.length) "(")
      [⟨3 + name.value.length, .other, Text.ofString "f"⟩]
      (Token.mark (4 + name.value.length) ")")
      [⟨5 + name.value.length, .other, Text.ofString "\n"⟩] where
  tokens := rfl
  member := by
    refine ⟨[⟨0, .other, Text.ofString "p"⟩], Token.mark 1 ".", ?_, rfl⟩
    rw [List.filter_cons_of_pos rfl, List.filter_cons_of_pos rfl,
      List.filter_cons_of_pos hsignificant]
    rfl
  opens := rfl
  closes := rfl
  nested := .nil
  statement := by
    -- There is no bracket in front of the call.
    rw [Context.inStatements, openers_of_wellNested _ (List.cons_ne_nil 0 [])]
    · rfl
    · rw [List.filter_cons_of_neg (by decide), List.filter_cons_of_neg (by decide),
        List.filter_cons_of_neg (by rw [hbracket]; decide)]
      exact .nil
  ends := rfl
  next := rfl

/-- A call of `then` on a line of its own. -/
theorem lacking_memberCall_then :
    tokens (Text.ofString "p.then(f)\n") = .ok (memberLine ⟨2, .other, Text.ofString "then"⟩) ∧
      (lacking .initial (memberLine ⟨2, .other, Text.ofString "then"⟩))[5]? = some true ∧
      toCanonical (Text.ofString "p.then(f)\n") = .ok (Text.ofString "p.then(f);\n") := by
  have htokens : tokens (Text.ofString "p.then(f)\n")
      = .ok (memberLine ⟨2, .other, Text.ofString "then"⟩) := eq_ok_of_toOption (by decide +kernel)
  obtain ⟨htext, hmark⟩ := lacking_memberCall htokens (memberCall_memberLine rfl rfl)
  exact ⟨htokens, hmark, htext.trans (congrArg Except.ok (by decide +kernel))⟩

/-- A call of `catch` is taken for the head of a handler, so that its line stays without a
semicolon. -/
theorem not_lacking_memberCall_catch :
    tokens (Text.ofString "p.catch(f)\n")
        = .ok (memberLine ⟨2, .keyword, Text.ofString "catch"⟩) ∧
      (∀ t ∈ memberLine ⟨2, .keyword, Text.ofString "catch"⟩, t.kind ≠ .template) ∧
      (∃ before name opener arguments closer after,
        MemberCall (memberLine ⟨2, .keyword, Text.ofString "catch"⟩) before name opener arguments
          closer after ∧
        (lacking .initial (memberLine ⟨2, .keyword, Text.ofString "catch"⟩))[
          (before ++ opener :: arguments).length]? = some false) ∧
      toCanonical (Text.ofString "p.catch(f)\n") = .ok (Text.ofString "p.catch(f)\n") := by
  have htokens : tokens (Text.ofString "p.catch(f)\n")
      = .ok (memberLine ⟨2, .keyword, Text.ofString "catch"⟩) :=
    eq_ok_of_toOption (by decide +kernel)
  refine ⟨htokens, by decide, ?_, ?_⟩
  · exact ⟨_, _, _, _, _, _, memberCall_memberLine rfl rfl, by decide +kernel⟩
  · rw [toCanonical_eq htokens]
    exact congrArg Except.ok (by decide +kernel)

end Dialects.Script
