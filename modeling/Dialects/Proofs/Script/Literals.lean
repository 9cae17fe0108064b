import Dialects.Proofs.Script.Fused
import Dialects.Proofs.Script.Stability

/-!
# Literals of a script

The literals of a script are its strings, its regular expressions and its template literals. A
template literal is all from a backtick to the one that closes it, interpolations and the literals
in them included. Saving a script leaves all of them as they are if and only if no semicolon is
added in one of them (`literals_toCanonical_iff`); such a one is always a template literal
(`template_of_added`).
-/

namespace Dialects.Script

open CodePoint (scalar)
open Canonical (Context)

variable {α β : Type} {token : α → Token} {token' : β → Token} {f : α → Text} {g : β → Text}
  {pending : List (List α)} {pending' : List (List β)} {inside : Bool} {t u : Token}
  {ts us : List Token} {ms : List (Token × Bool)} {x : α} {y : β} {xs : List α} {ys : List β}

/-! ## What the literals are -/

/-- Whether a token in code is a string or a regular expression. -/
def isQuoted (t : Token) : Bool :=
  t.kind == .other &&
    match t.value.head? with
    | some (.scalar c) => ['"', '\'', '/'].contains c
    | _ => false

/-- The literals that end with a token, and the template literals that are open behind it, given
those that are open in front of it, innermost first. -/
def collect (token : α → Token) (inside : Bool) (pending : List (List α)) (x : α) :
    List (List α) × List (List α) :=
  let grown := pending.map (· ++ [x])
  if inside then if (token x).spells "`" then (grown.take 1, grown.tail) else ([], grown)
  else if (token x).kind = .template then ([], [x] :: grown)
  else if isQuoted (token x) then ([[x]], grown)
  else ([], grown)

/-- The literals that end among some tokens, in the order in which they end. A template literal
that stays open is none. -/
def literalsFrom (token : α → Token) (pending : List (List α)) (inside : Bool) :
    List α → List (List α)
  | [] => []
  | x :: xs =>
    (collect token inside pending x).1 ++
      literalsFrom token (collect token inside pending x).2 (endsInTemplate inside (token x)) xs

/-- The literals of a script. -/
def literals (script : Text) : Except Failure (List Text) :=
  (tokens script).map fun ts => (literalsFrom id [] false ts).map Token.join

/-- Whether the canonical dialect adds no semicolon in a literal of the script. -/
def sparesLiterals (script : Text) : Bool :=
  match tokens script with
  | .ok ts =>
    (literalsFrom Prod.fst [] false (supplied .initial ts)).all fun literal =>
      literal.all (!·.2)
  | .error _ => false

/-! ## Literals as texts -/

/-- What becomes of the texts of literals that grow. -/
theorem map_grown (f : α → Text) (pending : List (List α)) (x : α) :
    (pending.map (· ++ [x])).map (List.flatMap f)
      = (pending.map (List.flatMap f)).map (· ++ f x) := by
  rw [List.map_map, List.map_map]
  refine List.map_congr_left fun literal _ => ?_
  show (literal ++ [x]).flatMap f = literal.flatMap f ++ f x
  rw [List.flatMap_append, List.flatMap_singleton]

theorem quoted_of_bare (h : u.bare = t.bare) : isQuoted u = isQuoted t := by
  rw [isQuoted, isQuoted, kind_of_bare h, value_of_bare h]

theorem endsInTemplate_of_bare (h : u.bare = t.bare) (inside : Bool) :
    endsInTemplate inside u = endsInTemplate inside t := by
  rw [endsInTemplate, endsInTemplate, kind_of_bare h, spells_of_bare h, spells_of_bare h,
    spells_of_bare h]

/-- Tokens of the same sort and the same text lead to literals of the same texts. -/
theorem collect_congr (hbare : (token x).bare = (token' y).bare) (hvalue : f x = g y)
    (hpending : pending.map (List.flatMap f) = pending'.map (List.flatMap g)) (inside : Bool) :
    (collect token inside pending x).1.map (List.flatMap f)
        = (collect token' inside pending' y).1.map (List.flatMap g) ∧
      (collect token inside pending x).2.map (List.flatMap f)
        = (collect token' inside pending' y).2.map (List.flatMap g) := by
  have hgrown : (pending.map (· ++ [x])).map (List.flatMap f)
      = (pending'.map (· ++ [y])).map (List.flatMap g) := by
    rw [map_grown, map_grown, hpending, hvalue]
  have hsingle : [x].flatMap f = [y].flatMap g := by
    rw [List.flatMap_singleton, List.flatMap_singleton, hvalue]
  -- Both sides take the same branch: in the text of a template or in code, at a token that ends
  -- a literal, opens one, or does neither.
  rw [collect, collect, kind_of_bare hbare, spells_of_bare hbare, quoted_of_bare hbare]
  cases inside with
  | true =>
    cases (token' y).spells "`" with
    | true =>
      refine ⟨?_, ?_⟩
      · show (List.take 1 _).map _ = (List.take 1 _).map _
        rw [List.map_take, List.map_take, hgrown]
      · show (List.tail _).map _ = (List.tail _).map _
        rw [List.map_tail, List.map_tail, hgrown]
    | false => exact ⟨rfl, hgrown⟩
  | false =>
    by_cases hkind : (token' y).kind = .template
    · rw [if_neg Bool.false_ne_true, if_neg Bool.false_ne_true, if_pos hkind, if_pos hkind]
      exact ⟨rfl, congrArg₂ List.cons hsingle hgrown⟩
    · rw [if_neg Bool.false_ne_true, if_neg Bool.false_ne_true, if_neg hkind, if_neg hkind]
      cases isQuoted (token' y) with
      | true => exact ⟨congrArg (· :: []) hsingle, hgrown⟩
      | false => exact ⟨rfl, hgrown⟩

theorem literalsFrom_congr
    (h : List.Forall₂ (fun x y => (token x).bare = (token' y).bare ∧ f x = g y) xs ys)
    (hpending : pending.map (List.flatMap f) = pending'.map (List.flatMap g)) :
    (literalsFrom token pending inside xs).map (List.flatMap f)
      = (literalsFrom token' pending' inside ys).map (List.flatMap g) := by
  -- the induction is on both lists at once, which have the same tokens but for their places
  induction h generalizing pending pending' inside with
  | nil => rfl
  | cons hxy _ ih =>
    obtain ⟨hended, hopen⟩ := collect_congr hxy.1 hxy.2 hpending inside
    rw [literalsFrom, literalsFrom, List.map_append, List.map_append, hended,
      endsInTemplate_of_bare hxy.1, ih hopen]

/-- In the text of a template a piece of it only adds to what is open. -/
theorem literalsFrom_piece (h : Piece t) (pending : List (List Token)) (ts : List Token) :
    literalsFrom id pending true (t :: ts)
      = literalsFrom id (pending.map (· ++ [t])) true ts := by
  -- a piece is no backtick, and thus ends no literal
  have hcollect : collect id true pending t = ([], pending.map (· ++ [t])) := by
    show (if t.spells "`" then _ else _) = _
    rw [h.spells.1]
    rfl
  rw [literalsFrom, hcollect]
  show [] ++ literalsFrom id _ (endsInTemplate true t) ts = _
  rw [h.endsInTemplate, List.nil_append]

/-- Whether pieces of text are one token or several does not change a literal. -/
theorem Fused.literals {pending pending' : List (List Token)} (h : Fused inside us ts)
    (hpending : pending.map Token.join = pending'.map Token.join) :
    (literalsFrom id pending inside us).map Token.join
      = (literalsFrom id pending' inside ts).map Token.join := by
  have hgrown {pending : List (List Token)} (t : Token) :
      (pending.map (· ++ [t])).map Token.join = (pending.map Token.join).map (· ++ t.value) :=
    map_grown Token.value pending t
  induction h generalizing pending pending' with
  | nil => rfl
  | @same inside t u ts us bare text entry rest ih =>
    have hcollect : (collect id inside pending u).1.map Token.join
          = (collect id inside pending' t).1.map Token.join ∧
        (collect id inside pending u).2.map Token.join
          = (collect id inside pending' t).2.map Token.join :=
      collect_congr bare (value_of_bare bare) hpending inside
    rw [literalsFrom, literalsFrom, List.map_append, List.map_append]
    refine congrArg₂ List.append hcollect.1 ?_
    show (literalsFrom id _ (endsInTemplate inside u) us).map _ = _
    rw [endsInTemplate_of_bare bare]
    exact ih hcollect.2
  | alone ht hu value rest ih =>
    rw [literalsFrom_piece ht, literalsFrom_piece hu]
    refine ih ?_
    rw [hgrown, hgrown, hpending, value]
  | @joined t u w ts us ht hu hw value rest ih =>
    -- The token is read as its first part and the rest of it, which is in front of the others.
    have hopen : (pending.map (· ++ [t])).map Token.join
        = (pending'.map (· ++ [t])).map Token.join := by
      rw [hgrown, hgrown, hpending]
    have hrest := ih hopen
    rw [literalsFrom_piece ht, ← hrest, literalsFrom_piece hu, literalsFrom_piece hw]
    refine literalsFrom_congr (f := Token.value) (g := Token.value) ?_ ?_
    · exact List.forall₂_same.mpr fun v _ => ⟨rfl, rfl⟩
    · show (pending.map (· ++ [u])).map Token.join
        = ((pending.map (· ++ [t])).map (· ++ [w])).map Token.join
      rw [hgrown, hgrown, hgrown, value]
      generalize pending.map Token.join = texts
      rw [List.map_map]
      refine List.map_congr_left fun literal _ => ?_
      exact (List.append_assoc _ _ _).symm

/-! ## Literals with added semicolons -/

/-- The text of a token that is not added. -/
def ownText (m : Token × Bool) : Text := if m.2 then [] else m.1.value

/-- The literals of the canonical text are those of the script, with the added semicolons. -/
theorem literalsFrom_whole (ms : List (Token × Bool)) :
    (literalsFrom id [] inside (whole ms)).map Token.join
      = (literalsFrom Prod.fst [] inside ms).map (List.flatMap fun m => m.1.value) := by
  refine literalsFrom_congr (f := Token.value) (g := fun m : Token × Bool => m.1.value) ?_ rfl
  exact List.forall₂_map_left_iff.mpr (List.forall₂_same.mpr fun m _ => ⟨rfl, rfl⟩)

/-- A semicolon ends no literal and leads into none, nor out of one. -/
theorem collect_semicolon (ht : (token x).isSemicolon = true) (inside : Bool)
    (pending : List (List α)) :
    collect token inside pending x = ([], pending.map (· ++ [x])) ∧
      endsInTemplate inside (token x) = inside := by
  obtain ⟨hkind, hvalue⟩ := isSemicolon_iff.mp ht
  -- a semicolon spells none of the marks of a template
  have hspells {w : String} (hw : [scalar ';'] ≠ Text.ofString w) : (token x).spells w = false := by
    rw [Token.spells, hvalue]
    exact beq_false_of_ne hw
  rw [collect, endsInTemplate, isQuoted, hkind, hspells (w := "`") (by decide),
    hspells (w := "$\x7b") (by decide)]
  cases inside <;> exact ⟨rfl, rfl⟩

/-- Without the added semicolons they are the literals of the script. -/
theorem literalsFrom_remaining {pending : List (List (Token × Bool))}
    {pending' : List (List Token)} (hsound : Sound ms)
    (hpending : pending.map (List.flatMap ownText) = pending'.map Token.join) :
    (literalsFrom Prod.fst pending inside ms).map (List.flatMap ownText)
      = (literalsFrom id pending' inside (remaining ms)).map Token.join := by
  induction ms generalizing pending pending' inside with
  | nil => rfl
  | cons m ms ih =>
    obtain ⟨t, dropped⟩ := m
    cases dropped with
    | true =>
      -- An added semicolon is in the literals around it, but is not their own text.
      have hsemicolon : (Prod.fst (t, true)).isSemicolon = true := (hsound.1 rfl).1
      obtain ⟨hcollect, hmode⟩ := collect_semicolon hsemicolon inside pending
      rw [remaining_dropped, literalsFrom, hcollect, hmode]
      refine ih hsound.2 ?_
      rw [map_grown, ← hpending]
      show (pending.map (List.flatMap ownText)).map (· ++ []) = _
      simp only [List.append_nil, List.map_id']
    | false =>
      have hbare : (Prod.fst (t, false)).bare = (id t).bare := rfl
      have hvalue : ownText (t, false) = t.value := rfl
      have hcollect : (collect Prod.fst inside pending (t, false)).1.map (List.flatMap ownText)
            = (collect id inside pending' t).1.map Token.join ∧
          (collect Prod.fst inside pending (t, false)).2.map (List.flatMap ownText)
            = (collect id inside pending' t).2.map Token.join :=
        collect_congr (f := ownText) (g := Token.value) hbare hvalue hpending inside
      rw [remaining_kept, literalsFrom, literalsFrom, List.map_append, List.map_append]
      exact congrArg₂ List.append hcollect.1 (ih hsound.2 hcollect.2)

/-! ## Where no semicolon is added -/

/-- What holds of template literals when they are opened, and goes on to hold while they grow, holds
of them when they are closed. -/
theorem forall_literalsFrom {p q : List α → Prop} (hclosed : ∀ literal, p literal → q literal)
    (hgrown : ∀ x ∈ xs, ∀ literal, p literal → p (literal ++ [x]))
    (hopened : ∀ x ∈ xs, (token x).kind = .template → p [x])
    (hquoted : ∀ x ∈ xs, isQuoted (token x) = true → q [x])
    (hpending : ∀ literal ∈ pending, p literal) :
    ∀ literal ∈ literalsFrom token pending inside xs, q literal := by
  induction xs generalizing pending inside with
  | nil => exact fun literal hliteral => by contradiction
  | cons x xs ih =>
    obtain ⟨hgrow, hgrown⟩ := List.forall_mem_cons.mp hgrown
    obtain ⟨hopen, hopened⟩ := List.forall_mem_cons.mp hopened
    obtain ⟨hquote, hquoted⟩ := List.forall_mem_cons.mp hquoted
    have hmap : ∀ literal ∈ pending.map (· ++ [x]), p literal := by
      intro literal hliteral
      obtain ⟨before, hbefore, rfl⟩ := List.mem_map.mp hliteral
      exact hgrow before (hpending before hbefore)
    have hcollect : (∀ literal ∈ (collect token inside pending x).1, q literal) ∧
        ∀ literal ∈ (collect token inside pending x).2, p literal := by
      rw [collect]
      -- A backtick in text, any other token there, a backtick in code, a quoted literal, the rest.
      split_ifs with _ _ hkind hq
      · exact ⟨fun literal h => hclosed literal (hmap literal (List.mem_of_mem_take h)),
          fun literal h => hmap literal (List.mem_of_mem_tail h)⟩
      · exact ⟨fun literal h => by contradiction, hmap⟩
      · exact ⟨fun literal h => by contradiction, List.forall_mem_cons.mpr ⟨hopen hkind, hmap⟩⟩
      · exact ⟨fun literal h => List.mem_singleton.mp h ▸ hquote hq, hmap⟩
      · exact ⟨fun literal h => by contradiction, hmap⟩
    intro literal hliteral
    rw [literalsFrom] at hliteral
    rcases List.mem_append.mp hliteral with hended | hlater
    · exact hcollect.1 literal hended
    · exact ih hgrown hopened hquoted hcollect.2 literal hlater

/-- The literals consist of the tokens. -/
theorem mem_of_literal {p : α → Prop} (hxs : ∀ x ∈ xs, p x) :
    ∀ literal ∈ literalsFrom token [] inside xs, ∀ x ∈ literal, p x := by
  have hsingle : ∀ x ∈ xs, ∀ y ∈ [x], p y := fun x hx y hy => List.mem_singleton.mp hy ▸ hxs x hx
  refine forall_literalsFrom (fun literal h => h) (fun x hx literal h y hy => ?_)
    (fun x hx _ => hsingle x hx) (fun x hx _ => hsingle x hx) (fun literal h => by contradiction)
  rcases List.mem_append.mp hy with hy | hy
  · exact h y hy
  · exact hsingle x hx y hy

/-- Only semicolons are added. -/
theorem semicolon_of_added (hsound : Sound ms) :
    ∀ m ∈ ms, m.2 = true → m.1.isSemicolon = true := by
  induction ms with
  | nil => exact fun m hm => by contradiction
  | cons m ms ih =>
    exact List.forall_mem_cons.mpr ⟨fun hadded => (hsound.1 hadded).1, ih hsound.2⟩

/-- A semicolon is never added in a string or in a regular expression: the literal that one is added
in starts with a backtick of the script. -/
theorem template_of_added (hsound : Sound ms) :
    ∀ literal ∈ literalsFrom Prod.fst [] false ms, literal.all (!·.2) = false →
      ∃ t rest, literal = (t, false) :: rest ∧ t.kind = .template := by
  have hkind : ∀ m ∈ ms, m.1.kind ≠ .punctuation → m = (m.1, false) := by
    rintro ⟨t, added⟩ hm hother
    cases added with
    | true => exact absurd (isSemicolon_iff.mp (semicolon_of_added hsound _ hm rfl)).1 hother
    | false => rfl
  refine forall_literalsFrom (p := fun literal =>
      ∃ t rest, literal = (t, false) :: rest ∧ t.kind = .template)
    (fun literal h _ => h) ?_ ?_ ?_ (fun literal h => by contradiction)
  · rintro m hm literal ⟨t, rest, rfl, ht⟩
    exact ⟨t, rest ++ [m], rfl, ht⟩
  · intro m hm ht
    refine ⟨m.1, [], ?_, ht⟩
    rw [← hkind m hm (by rw [ht]; decide)]
  · -- A string or a regular expression is one token, which was not added.
    intro m hm hq hadded
    rw [isQuoted, Bool.and_eq_true, beq_iff_eq] at hq
    rw [hkind m hm (by rw [hq.1]; decide)] at hadded
    contradiction

/-- A literal is the same with the added semicolons and without if none is added in it. -/
theorem literal_eq_iff (hms : ∀ m ∈ ms, m.2 = true → m.1.isSemicolon = true) :
    ms.flatMap (fun m => m.1.value) = ms.flatMap ownText ↔ ms.all (!·.2) = true := by
  have hlength (ms : List (Token × Bool)) :
      (ms.flatMap ownText).length ≤ (ms.flatMap fun m => m.1.value).length := by
    induction ms with
    | nil => exact Nat.le_refl _
    | cons m ms ih =>
      rw [List.flatMap_cons, List.flatMap_cons, List.length_append, List.length_append]
      refine Nat.add_le_add ?_ ih
      rw [ownText]
      split
      · exact Nat.zero_le _
      · exact Nat.le_refl _
  induction ms with
  | nil => exact iff_of_true rfl rfl
  | cons m ms ih =>
    obtain ⟨t, added⟩ := m
    obtain ⟨hm, hrest⟩ := List.forall_mem_cons.mp hms
    rw [List.flatMap_cons, List.flatMap_cons, List.all_cons]
    cases added with
    | true =>
      -- The text with the semicolon is longer.
      refine iff_of_false (fun heq => ?_) (fun hall => by contradiction)
      obtain ⟨-, hvalue⟩ := isSemicolon_iff.mp (hm rfl)
      have hlengths := congrArg List.length heq
      rw [List.length_append, List.length_append, hvalue] at hlengths
      have hle := hlength ms
      have hnone : (ownText (t, true)).length = 0 := rfl
      have hone : [scalar ';'].length = 1 := rfl
      omega
    | false =>
      show t.value ++ _ = t.value ++ _ ↔ _
      rw [List.append_cancel_left_eq]
      exact ih hrest

/-- Saving a script leaves all its literals as they are if and only if no semicolon is added in one
of them. -/
theorem literals_toCanonical_iff {script canonical : Text}
    (h : toCanonical script = .ok canonical) :
    literals canonical = literals script ↔ sparesLiterals script = true := by
  cases htokens : tokens script with
  | error f =>
    rw [toCanonical, htokens] at h
    contradiction
  | ok ts =>
    obtain rfl := Except.ok.inj ((toCanonical_eq htokens).symm.trans h)
    obtain ⟨us, hus, hfused⟩ := tokens_punctuated htokens
    have hsound := sound_supplied .initial ts
    -- The literals of the canonical text hold the added semicolons, those of the script do not.
    have hcanonical : literals (punctuated .initial ts) = .ok
        ((literalsFrom Prod.fst [] false (supplied .initial ts)).map
          (List.flatMap fun m => m.1.value)) := by
      rw [literals, hus, ← literalsFrom_whole]
      exact congrArg Except.ok (hfused.literals rfl)
    have hscript : literals script = .ok
        ((literalsFrom Prod.fst [] false (supplied .initial ts)).map (List.flatMap ownText)) := by
      have hnone : ([] : List (List (Token × Bool))).map (List.flatMap ownText)
          = ([] : List (List Token)).map Token.join := rfl
      rw [literals, htokens, literalsFrom_remaining hsound hnone, remaining_supplied]
      rfl
    rw [hcanonical, hscript, sparesLiterals, htokens, Except.ok.injEq, List.map_inj_left,
      List.all_eq_true]
    refine forall₂_congr fun literal hliteral => literal_eq_iff ?_
    exact mem_of_literal (semicolon_of_added hsound) literal hliteral

/-- A semicolon is added behind a template literal, and the string in it ends first. -/
theorem literals_toCanonical_interpolation :
    toCanonical (Text.ofString "`$\x7b'1'\x7d`\n") = .ok (Text.ofString "`$\x7b'1'\x7d`;\n") ∧
      sparesLiterals (Text.ofString "`$\x7b'1'\x7d`\n") = true ∧
      literals (Text.ofString "`$\x7b'1'\x7d`\n")
        = .ok [Text.ofString "'1'", Text.ofString "`$\x7b'1'\x7d`"] ∧
      literals (Text.ofString "`$\x7b'1'\x7d`;\n")
        = literals (Text.ofString "`$\x7b'1'\x7d`\n") := by
  have hcanonical : toCanonical (Text.ofString "`$\x7b'1'\x7d`\n")
      = .ok (Text.ofString "`$\x7b'1'\x7d`;\n") := eq_ok_of_toOption (by decide +kernel)
  have hspares : sparesLiterals (Text.ofString "`$\x7b'1'\x7d`\n") = true := by decide +kernel
  have hliterals : literals (Text.ofString "`$\x7b'1'\x7d`\n")
      = .ok [Text.ofString "'1'", Text.ofString "`$\x7b'1'\x7d`"] :=
    eq_ok_of_toOption (by decide +kernel)
  exact ⟨hcanonical, hspares, hliterals, (literals_toCanonical_iff hcanonical).mpr hspares⟩

/-- The line break in a template literal is taken for the end of a line of code, and the literal
goes on behind a semicolon that it did not have. -/
theorem not_literals_toCanonical_template :
    toCanonical (Text.ofString "`\n$\x7b1\x7d`") = .ok (Text.ofString "`;\n$\x7b1\x7d`;") ∧
      literals (Text.ofString "`\n$\x7b1\x7d`") = .ok [Text.ofString "`\n$\x7b1\x7d`"] ∧
      literals (Text.ofString "`;\n$\x7b1\x7d`;") = .ok [Text.ofString "`;\n$\x7b1\x7d`"] ∧
      literals (Text.ofString "`;\n$\x7b1\x7d`;")
        ≠ literals (Text.ofString "`\n$\x7b1\x7d`") := by
  have hcanonical : toCanonical (Text.ofString "`\n$\x7b1\x7d`")
      = .ok (Text.ofString "`;\n$\x7b1\x7d`;") := eq_ok_of_toOption (by decide +kernel)
  have hbefore : literals (Text.ofString "`\n$\x7b1\x7d`")
      = .ok [Text.ofString "`\n$\x7b1\x7d`"] := eq_ok_of_toOption (by decide +kernel)
  have hbehind : literals (Text.ofString "`;\n$\x7b1\x7d`;")
      = .ok [Text.ofString "`;\n$\x7b1\x7d`"] := eq_ok_of_toOption (by decide +kernel)
  refine ⟨hcanonical, hbefore, hbehind, fun heq => ?_⟩
  rw [hbefore, hbehind] at heq
  have htexts := Except.ok.inj heq
  revert htexts
  decide

end Dialects.Script
