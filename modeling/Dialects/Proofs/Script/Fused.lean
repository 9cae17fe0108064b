import Dialects.Proofs.Script.Brackets
import Dialects.Proofs.Script.Templates

/-!
# The tokens of the canonical text

A semicolon that is added in the text of a template literal is no token: it becomes part of the
text, and the pieces of text beside it become one token with it. But for that, the tokens of the
canonical text are those of the script and the added semicolons (`Fused`). The canonical text of a
script can therefore always be cut into tokens, and its brackets match (`tokens_punctuated`).
-/

namespace Dialects.Script

open CodePoint (scalar)
open Canonical (Context)
open Text (spanLength)

variable {s s' : LexState} {t u w : Token} {ts us : List Token} {ms : List (Token × Bool)}
  {c : Context} {a : Step} {rest x : Text} {inside : Bool}

/-- A piece of the text of a template, which may be less than the token there. -/
structure Piece (t : Token) : Prop where
  ne : t.value ≠ []
  plain : ∀ d ∈ t.value, Lexeme.isPlainInTemplate d = true
  kind : t.kind = .template ∨ t.isSemicolon = true

/-- The tokens `us` are the tokens `ts`, but for pieces of the text of a template that are one token
in `us`. Of the place in front of them it is known whether it is in such text; no brackets or words
are read there, and what leads into it is significant. -/
inductive Fused : Bool → List Token → List Token → Prop
  | nil {inside : Bool} : Fused inside [] []
  | same {inside : Bool} {t u : Token} {ts us : List Token} (bare : u.bare = t.bare)
      (text : inside = true → t.kind = .template ∨ t.kind = .other)
      (entry : inside = false → endsInTemplate inside t = true → t.isSignificant = true)
      (rest : Fused (endsInTemplate inside t) us ts) : Fused inside (u :: us) (t :: ts)
  | alone {t u : Token} {ts us : List Token} (ht : Piece t) (hu : Piece u)
      (value : u.value = t.value) (rest : Fused true us ts) : Fused true (u :: us) (t :: ts)
  | joined {t u w : Token} {ts us : List Token} (ht : Piece t) (hu : Piece u) (hw : Piece w)
      (value : u.value = t.value ++ w.value) (rest : Fused true (w :: us) ts) :
      Fused true (u :: us) (t :: ts)

/-! ## Pieces of text -/

theorem Piece.spells (h : Piece t) : t.spells "`" = false ∧ t.spells "$\x7b" = false := by
  -- a piece of the text has only code points that stand for themselves
  have hno {d : CodePoint} (hd : Lexeme.isPlainInTemplate d = false) (hmem : d ∈ t.value) :
      False := by
    rw [h.plain d hmem] at hd
    contradiction
  constructor
  · refine Bool.eq_false_iff.mpr fun hspells => ?_
    rw [spells_backtick] at hspells
    exact hno (d := scalar '`') (by decide) (hspells ▸ List.mem_cons_self)
  · refine Bool.eq_false_iff.mpr fun hspells => ?_
    rw [spells_interpolation] at hspells
    exact hno (d := scalar '$') (by decide) (hspells ▸ List.mem_cons_self)

/-- Behind a piece of the text of a template the text goes on. -/
theorem Piece.endsInTemplate (h : Piece t) : endsInTemplate true t = true := by
  rw [Script.endsInTemplate, if_pos rfl, h.spells.1, h.spells.2]
  rfl

theorem Piece.opens (h : Piece t) : t.opens? = none ∧ t.closes? = none := by
  obtain hkind | hsemicolon := h.kind
  · have hother : t.kind ≠ .punctuation := by
      rw [hkind]
      decide
    exact ⟨if_neg hother, if_neg hother⟩
  · exact opens_of_semicolon hsemicolon

theorem piece_semicolon : Piece semicolon where
  ne := List.cons_ne_nil _ _
  plain := by
    intro d hd
    obtain rfl := List.mem_singleton.mp hd
    rfl
  kind := Or.inr semicolon_isSemicolon

/-- The text of a template goes on up to the first code point that has a meaning in it. -/
theorem first_of_plain (hs : s.mode = .template) (hne : x ≠ [])
    (hplain : ∀ d ∈ x, Lexeme.isPlainInTemplate d = true) (rest : Text) :
    Step.first? s (x ++ rest) = some ⟨.template,
      x.length + spanLength Lexeme.isPlainInTemplate rest, .template, s.interpolations⟩ := by
  obtain ⟨d, x, rfl⟩ := List.exists_cons_of_ne_nil hne
  have hd := hplain d List.mem_cons_self
  simp only [Lexeme.isPlainInTemplate, Bool.and_eq_true, bne_iff_ne] at hd
  have hspan := Text.spanLength_append_of_all hplain rest
  have hpos : 0 < (d :: x).length + spanLength Lexeme.isPlainInTemplate rest :=
    Nat.lt_of_lt_of_le (Nat.succ_pos _) (Nat.le_add_right _ _)
  rw [Step.first?, hs]
  show Step.inTemplate? s (d :: (x ++ rest)) = _
  rw [inTemplate_of_ne hd.1.1 hd.1.2 hd.2, ← List.cons_append, hspan,
    positive_eq_some.mpr ⟨rfl, hpos⟩]
  rfl

/-- What precedes the text of a template is of no account in it. -/
theorem Lexed.text_congr (h : Lexed s ts) (hs : s.mode = .template) (hs' : s'.mode = .template)
    (hinter : s.interpolations = s'.interpolations) : Lexed s' ts := by
  obtain ⟨mode, k, previous⟩ := s
  obtain ⟨mode', k', previous'⟩ := s'
  obtain rfl : mode = .template := hs
  obtain rfl : mode' = .template := hs'
  obtain rfl : k = k' := hinter
  -- the first step is the same in both states, as it depends on mode and interpolations
  cases h with
  | nil => exact .nil
  | cons first kind length rest => exact .cons first kind length rest

/-- Where the text does not go on with plain code points, a piece of it is a token. -/
theorem Lexed.fuse_alone (ht : Piece t) (hs : s.mode = .template) (h : Lexed s us)
    (hfused : Fused true us ts)
    (hstops : spanLength Lexeme.isPlainInTemplate (Token.join us) = 0) :
    ∃ us', Lexed s us' ∧ Token.join us' = t.value ++ Token.join us ∧ Fused true us' (t :: ts) := by
  refine ⟨⟨0, .template, t.value⟩ :: us,
    .cons (first_of_plain hs ht.ne ht.plain _) rfl ?_ (h.text_congr hs rfl rfl), rfl,
    .alone ht ⟨ht.ne, ht.plain, Or.inl rfl⟩ rfl hfused⟩
  have hpos : 1 ≤ t.value.length := List.length_pos_iff.mpr ht.ne
  show t.value.length = t.value.length + _ - 1 + 1
  -- the run of plain code points ends with the piece
  rw [hstops]
  omega

/-- Where it does, the next token is a run of plain code points too, and the piece goes on with
it. -/
theorem Lexed.fuse_plain {w : Token} (ht : Piece t) (hs : s.mode = .template)
    (h : Lexed s (w :: us)) (hfused : Fused true (w :: us) ts) {d : CodePoint} {value : Text}
    (hvalue : w.value = d :: value) (hd : Lexeme.isPlainInTemplate d = true) :
    ∃ us', Lexed s us' ∧ Token.join us' = t.value ++ Token.join (w :: us) ∧
      Fused true us' (t :: ts) := by
  obtain ⟨b, first, kind, length, rest⟩ := h.split_cons
  have hpos : 1 ≤ t.value.length := List.length_pos_iff.mpr ht.ne
  have hafter (n : Nat) (value : Text) :
      (Step.after ⟨.template, n, .template, s.interpolations⟩ value).mode = .template := rfl
  -- The lexer finds a run of plain code points here, so that the token is one.
  have hrun := first_of_plain (x := [d]) hs (List.cons_ne_nil _ _)
    (fun e he => List.mem_singleton.mp he ▸ hd) (value ++ Token.join us)
  rw [hvalue] at first
  obtain rfl := Option.some.inj (first.symm.trans hrun)
  have hlength : w.value.length
      = spanLength Lexeme.isPlainInTemplate (w.value ++ Token.join us) := by
    rw [length, hvalue, List.cons_append, Text.spanLength_cons_of_pos hd, List.length_singleton]
    show 1 + _ - 1 + 1 = _
    omega
  have hplain : ∀ e ∈ w.value, Lexeme.isPlainInTemplate e = true :=
    all_of_length_le (Nat.le_of_eq hlength)
  have hw : Piece w := ⟨ne_nil_of_length length, hplain, Or.inl kind⟩
  have hu : Piece ⟨0, .template, t.value ++ w.value⟩ := by
    refine ⟨List.append_ne_nil_of_left_ne_nil ht.ne _, fun e he => ?_, Or.inl rfl⟩
    obtain he | he := List.mem_append.mp he
    · exact ht.plain e he
    · exact hplain e he
  refine ⟨⟨0, .template, t.value ++ w.value⟩ :: us,
    .cons (a := ⟨.template, t.value.length + w.value.length, .template, s.interpolations⟩)
      ?_ rfl ?_ ?_, ?_, .joined ht hu hw rfl hfused⟩
  · show Step.first? s (t.value ++ w.value ++ Token.join us) = _
    rw [List.append_assoc, first_of_plain hs ht.ne ht.plain, ← hlength]
  · show (t.value ++ w.value).length = t.value.length + w.value.length - 1 + 1
    rw [List.length_append]
    omega
  · exact rest.text_congr (hafter _ _) (hafter _ _) rfl
  · rw [join_cons, join_cons, List.append_assoc]

/-- A piece of text in front of tokens in the text of a template becomes one with the first of them
or a token of its own. -/
theorem Lexed.fuse (ht : Piece t) (hs : s.mode = .template) (h : Lexed s us)
    (hfused : Fused true us ts) :
    ∃ us', Lexed s us' ∧ Token.join us' = t.value ++ Token.join us ∧ Fused true us' (t :: ts) := by
  cases us with
  | nil => exact h.fuse_alone ht hs hfused rfl
  | cons w us =>
    obtain ⟨b, -, -, length, -⟩ := h.split_cons
    obtain ⟨d, value, hvalue⟩ := List.exists_cons_of_ne_nil (ne_nil_of_length length)
    -- whether the text goes on with the piece is a matter of the next code point
    cases hd : Lexeme.isPlainInTemplate d with
    | false =>
      refine h.fuse_alone ht hs hfused ?_
      rw [join_cons, hvalue, List.cons_append, Text.spanLength_cons_of_neg hd]
    | true => exact h.fuse_plain ht hs hfused hvalue hd

/-! ## The token in front of an added semicolon -/

/-- A backtick or a closing brace is read alike in code whatever follows it. -/
theorem first_of_lead {b : Bool} {d : CodePoint} (hs : s.mode = .code b)
    (hd : d = scalar '`' ∨ d = scalar '\x7d') (x y : Text) :
    Step.first? s (d :: x) = Step.first? s (d :: y) := by
  obtain rfl | rfl := hd
  · have hquote (z : Text) : Step.first? s (scalar '`' :: z)
        = some ⟨.template, 1, .template, s.interpolations⟩ :=
      first_other hs (fun _ => shebang_of_ne (by decide) _) rfl rfl rfl
    rw [hquote, hquote]
  · have hrules (z : Text) : byRules? s (scalar '\x7d' :: z)
        = some ⟨.punctuation, 1, .code false, s.interpolations⟩ := by
      rw [byRules?]
      cases s.afterWord <;> rfl
    have hbrace (z : Text) : Step.first? s (scalar '\x7d' :: z)
        = Step.afterOperand? s (scalar '\x7d' :: z) :=
      first_other hs (fun _ => shebang_of_ne (by decide) _) rfl rfl rfl
    rw [hbrace, hbrace, afterOperand_eq, afterOperand_eq, hrules, hrules]
    rfl

/-- In code only a backtick and the end of an interpolation lead into the text of a template. -/
theorem lead_of_code {b : Bool} (hs : s.mode = .code b)
    (h : Step.first? s (t.value ++ rest) = some a) (hlength : t.value.length = a.length - 1 + 1)
    (hmode : a.mode = .template) :
    ∃ d, t.value = [d] ∧
      (d = scalar '`' ∧ a.kind = .template ∨ d = scalar '\x7d' ∧ a.kind = .other) := by
  -- What leads into the text is a single code point.
  have hvalue {d : CodePoint} (hhead : (t.value ++ rest).head? = some d) (hone : a.length = 1) :
      t.value = [d] := by
    obtain ⟨x, heq⟩ := List.head?_eq_some_iff.mp hhead
    exact value_of_length_one heq (by rw [hlength, hone])
  have hafter (hfound : Step.afterOperand? s (t.value ++ rest) = some a) :
      ∃ d, t.value = [d] ∧
        (d = scalar '`' ∧ a.kind = .template ∨ d = scalar '\x7d' ∧ a.kind = .other) := by
    rcases afterOperand_cases hfound with ⟨hbrace, rfl⟩ | ⟨hquote, rfl⟩ | hrule
    · exact ⟨_, hvalue hbrace rfl, Or.inr ⟨rfl, rfl⟩⟩
    · exact ⟨_, hvalue hquote rfl, Or.inl ⟨rfl, rfl⟩⟩
    · -- No rule for code leads into the text.
      obtain ⟨r, -, -, ha⟩ := byRules_cases hrule
      rw [ha] at hmode
      contradiction
  obtain ⟨htext, -⟩ | ⟨-, ⟨-, -, n, -, rfl⟩ | hbefore | hfound⟩ := first_cases h
  · rw [hs] at htext
    contradiction
  · contradiction
  · obtain ⟨n, -, rfl⟩ | ⟨-, ⟨n, -, rfl⟩ | ⟨-, ⟨-, n, -, rfl⟩ | ⟨-, hfound⟩⟩⟩ :=
      beforeOperand_cases hbefore
    · contradiction
    · contradiction
    · contradiction
    · exact hafter hfound
  · exact hafter hfound

/-- A token that leads into the text of a template is read alike whatever follows it, unless it is
plain text itself or a dollar sign in front of a brace. -/
theorem first_of_template (h : Step.first? s (t.value ++ rest) = some a) (hkind : t.kind = a.kind)
    (hlength : t.value.length = a.length - 1 + 1) (hmode : a.mode = .template) :
    (s.mode = .template ∧ a.interpolations = s.interpolations ∧ Piece t) ∨
      ∀ z : Text, z.head? ≠ some (scalar '\x7b') → Step.first? s (t.value ++ z) = some a := by
  obtain ⟨hs, htext⟩ | ⟨⟨b, hs⟩, -⟩ := first_cases h
  · -- The text of a template goes on: of the five ways in which it does, two leave it.
    rw [Step.inTemplate?.eq_def] at htext
    split at htext
    · obtain rfl := Option.some.inj htext
      contradiction
    · next d x heq =>
      obtain rfl := Option.some.inj htext
      obtain ⟨e, f, hvalue⟩ := List.length_eq_two.mp hlength
      rw [hvalue] at heq ⊢
      obtain rfl := (List.cons.inj heq).1
      refine Or.inr fun z _ => ?_
      rw [Step.first?, hs]
      rfl
    · obtain rfl := Option.some.inj htext
      contradiction
    · next x _ heq =>
      obtain rfl := Option.some.inj htext
      rw [value_of_length_one heq hlength]
      refine Or.inr fun z hz => ?_
      rw [Step.first?, hs]
      cases z with
      | nil => rfl
      | cons e z =>
        show Step.inTemplate? s (scalar '$' :: e :: z) = _
        rw [Step.inTemplate?.eq_def]
        split
        · next heq => exact absurd (List.cons.inj heq).1 (by decide)
        · next heq => exact absurd (List.cons.inj heq).1 (by decide)
        · next heq => exact absurd (congrArg some (List.cons.inj (List.cons.inj heq).2).1) hz
        · rfl
        · next hno => exact absurd rfl (hno _)
    · obtain ⟨n, hn, rfl⟩ := Option.map_eq_some_iff.mp htext
      obtain ⟨rfl, hpos⟩ := positive_eq_some.mp hn
      refine Or.inl ⟨hs, rfl, ne_nil_of_length hlength, ?_, Or.inl hkind⟩
      refine all_of_length_le (y := rest) (Nat.le_of_eq (hlength.trans ?_))
      exact Nat.sub_add_cancel hpos
  · obtain ⟨d, hvalue, hd⟩ := lead_of_code hs h hlength hmode
    rw [hvalue] at h ⊢
    exact Or.inr fun z _ => h ▸ first_of_lead hs (hd.imp And.left And.left) z rest

/-! ## The tokens of the canonical text -/

/-- What leads into the text of a template is significant. -/
theorem significant_of_lead (h : Step.first? s (t.value ++ rest) = some a) (hkind : t.kind = a.kind)
    (hlength : t.value.length = a.length - 1 + 1) (hcode : decide (s.mode = .template) = false)
    (hends : endsInTemplate (s.mode = .template) t = true) : t.isSignificant = true := by
  rw [endsInTemplate_iff h hkind hlength, decide_eq_true_iff] at hends
  cases hs : s.mode with
  | template =>
    rw [hs] at hcode
    contradiction
  | code b =>
    obtain ⟨d, hvalue, hd⟩ := lead_of_code hs h hlength hends
    refine Bool.of_not_eq_false fun hinsignificant => ?_
    rcases insignificant_iff.mp hinsignificant with hblank | hcomment
    · rw [hvalue] at hblank
      rcases hd with ⟨rfl, -⟩ | ⟨rfl, -⟩ <;> contradiction
    · rw [← hkind, hcomment] at hd
      rcases hd with ⟨-, hd⟩ | ⟨-, hd⟩ <;> contradiction

/-- A token that is read alike in both lists is the same token of both. -/
theorem Fused.same_of_first (h : Fused (a.mode = .template) us ts)
    (hfirst : Step.first? s (t.value ++ rest) = some a) (hkind : t.kind = a.kind)
    (hlength : t.value.length = a.length - 1 + 1) :
    Fused (s.mode = .template) (t :: us) (t :: ts) := by
  -- in a template the token is one of its own kinds
  refine .same rfl (fun hinside => ?_) (significant_of_lead hfirst hkind hlength) ?_
  · rw [Step.first?, of_decide_eq_true hinside] at hfirst
    rw [hkind]
    exact kind_of_inTemplate hfirst
  · rw [endsInTemplate_iff hfirst hkind hlength]
    exact h

/-- A semicolon that is added in the text of a template becomes part of the text, and so does the
token in front of it if it is a piece of the text. -/
theorem Lexed.fuse_semicolon (h : Lexed (a.after t.value) us) (hfused : Fused true us ts)
    (hfirst : Step.first? s (t.value ++ rest) = some a) (hkind : t.kind = a.kind)
    (hlength : t.value.length = a.length - 1 + 1) (hmode : a.mode = .template) :
    ∃ vs, Lexed s vs ∧ Token.join vs = t.value ++ (semicolon.value ++ Token.join us) ∧
      Fused (s.mode = .template) vs (t :: semicolon :: ts) := by
  have hafter : (a.after t.value).mode = .template := hmode
  obtain ⟨vs, hvs, hjoin, hfused'⟩ := h.fuse piece_semicolon hafter hfused
  obtain ⟨hs, hinter, hpiece⟩ | hlead := first_of_template hfirst hkind hlength hmode
  · obtain ⟨ws, hws, hjoin', hfused''⟩ := (hvs.text_congr hafter hs hinter).fuse hpiece hs hfused'
    refine ⟨ws, hws, by rw [hjoin', hjoin], ?_⟩
    rw [hs]
    exact hfused''
  · -- The token leads into the text, and no brace follows that would change how it is read.
    have hread : Step.first? s (t.value ++ Token.join vs) = some a := by
      refine hlead _ ?_
      rw [hjoin]
      exact fun heq => absurd (Option.some.inj heq) (by decide)
    refine ⟨t :: vs, .cons hread hkind hlength hvs, by rw [join_cons, hjoin], ?_⟩
    refine Fused.same_of_first ?_ hread hkind hlength
    rw [hmode]
    exact hfused'

/-- The tokens of a script and the semicolons that are added are the tokens of the canonical text,
but for the semicolons in the text of templates. -/
theorem Lexed.fused (h : Lexed s' ts) (hfollows : Follows s s' ts) (c : Context) :
    ∃ us, Lexed s us ∧ Token.join us = Token.join (whole (Script.supplied c ts)) ∧
      Fused (s.mode = .template) us (whole (Script.supplied c ts)) := by
  -- The state `s'` is that of the lexer without the semicolons, `s` that of the lexer with them.
  induction ts generalizing s s' c with
  | nil => exact ⟨[], .nil, rfl, .nil⟩
  | cons t ts ih =>
    obtain ⟨a', first', kind', length', rest'⟩ := h.split_cons
    obtain ⟨a, first, hkind, hlength, hsame, hnext⟩ := hfollows.first_back first' kind' length'
    have kind : t.kind = a.kind := kind'.trans hkind
    have length : t.value.length = a.length - 1 + 1 := hlength ▸ length'
    obtain ⟨ms, hms, -⟩ := supplied_cons c t ts
    have hfirst (hmode : lacks c t ts = true → a.mode ≠ .template) :
        Step.first? s (t.value ++ Token.join (whole ms)) = some a :=
      first_supplied h first kind length hmode hms
    cases hlacks : lacks c t ts with
    | false =>
      obtain ⟨us, hus, hjoin, hfused⟩ := ih rest' hnext (advance c t ts)
      have hread := hfirst fun hlacks' => by
        rw [hlacks] at hlacks'
        contradiction
      rw [supplied_of_complete hlacks] at hms ⊢
      obtain rfl := (List.cons.inj hms).2
      refine ⟨t :: us, .cons (hjoin ▸ hread) kind length hus, ?_,
        hfused.same_of_first hread kind length⟩
      rw [join_cons, hjoin, whole_cons, join_cons]
    | true =>
      -- The token is significant, so that both are in the same state until the semicolon is missed.
      obtain rfl := hsame (lacks_iff.mp hlacks).1
      cases hmode : a'.mode with
      | code b =>
        obtain ⟨us, hus, hjoin, hfused⟩ :=
          ih rest' (Or.inr (adrift_of_lacks hlacks length' hmode)) (advance c t ts)
        have hread := hfirst fun _ => by
          rw [hmode]
          exact fun heq => by contradiction
        rw [supplied_of_lacks hlacks] at hms ⊢
        obtain rfl := (List.cons.inj hms).2
        rw [whole_cons, whole_cons]
        -- In code the semicolon is a token of its own.
        have hafter : (a'.after t.value).mode = .code b := hmode
        have hsemicolon := first_semicolon_of_code (x := Token.join us) hafter
        refine ⟨t :: semicolon :: us, .cons ?_ kind length (.cons hsemicolon rfl rfl hus), ?_,
          (hfused.same_of_first (t := semicolon) hsemicolon rfl rfl).same_of_first hread kind
            length⟩
        · rw [join_cons, hjoin]
          exact hread
        · rw [join_cons, join_cons, hjoin, join_cons, join_cons]
      | template =>
        obtain ⟨us, hus, hjoin, hfused⟩ := ih rest' (Or.inl rfl) (advance c t ts)
        have hafter : (a'.after t.value).mode = .template := hmode
        rw [hafter] at hfused
        rw [supplied_of_lacks hlacks, whole_cons, whole_cons, join_cons, join_cons, ← hjoin]
        exact hus.fuse_semicolon hfused first kind length hmode

theorem Fused.placed (h : Fused inside us ts) (offset : Nat) :
    Fused inside (placed offset us) ts := by
  have hplaced {u : Token} (hu : Piece u) (offset : Nat) : Piece { u with offset := offset } :=
    ⟨hu.ne, hu.plain, hu.kind⟩
  -- only the offsets change, and no rule looks at them
  induction h generalizing offset with
  | nil => exact .nil
  | same bare text entry rest ih => exact .same bare text entry (ih _)
  | alone ht hu value rest ih => exact .alone ht (hplaced hu _) value (ih _)
  | @joined t u w ts us ht hu hw value rest ih =>
    have hrest := ih (offset + t.value.length)
    rw [Script.placed, Nat.add_assoc, ← List.length_append, ← value] at hrest
    exact .joined ht (hplaced hu _) (hplaced hw (offset + t.value.length)) value hrest

/-! ## Brackets -/

theorem Piece.isBracket (h : Piece t) : t.isBracket = false := by
  rw [Token.isBracket, h.opens.1, h.opens.2]
  rfl

theorem Fused.brackets (h : Fused inside us ts) :
    (us.filter Token.isBracket).map Token.bare = (ts.filter Token.isBracket).map Token.bare := by
  have hskip {t : Token} (ht : Piece t) (ts : List Token) :
      (t :: ts).filter Token.isBracket = ts.filter Token.isBracket :=
    List.filter_cons_of_neg (Bool.eq_false_iff.mp ht.isBracket)
  induction h with
  | nil => rfl
  | @same inside t u ts us bare text entry rest ih =>
    have hbracket : u.isBracket = t.isBracket := by
      rw [Token.isBracket, Token.isBracket, opens_of_bare bare, closes_of_bare bare]
    rw [List.filter_cons, List.filter_cons, hbracket]
    cases t.isBracket with
    | true => exact congrArg₂ List.cons bare ih
    | false => exact ih
  | alone ht hu value rest ih => rw [hskip ht, hskip hu, ih]
  | joined ht hu hw value rest ih => rw [hskip ht, hskip hu, ← ih, hskip hw]

/-- The canonical text of a script can be cut into tokens. -/
theorem tokens_punctuated {script : Text} (h : tokens script = .ok ts) :
    ∃ us, tokens (punctuated .initial ts) = .ok us ∧
      Fused false us (whole (supplied .initial ts)) := by
  obtain ⟨hlex, hbrackets⟩ := tokens_eq_ok.mp h
  obtain ⟨hlexed, -, -⟩ := lexed_of_lexFrom hlex
  obtain ⟨us, hus, hjoin, hfused⟩ := hlexed.fused (s := .initial) (Or.inl rfl) .initial
  refine ⟨placed 0 us, tokens_eq_ok.mpr ⟨?_, ?_⟩, hfused.placed 0⟩
  · rw [lex, ← join_supplied, ← hjoin]
    exact lexFrom_join hus 0
  · -- The brackets are those of the script, wherever they stand.
    rw [← checkBrackets_supplied .initial, ← checkBrackets_filter] at hbrackets
    rw [← checkBrackets_filter]
    exact checkBrackets_congr (hfused.placed 0).brackets.symm rfl hbrackets

end Dialects.Script
