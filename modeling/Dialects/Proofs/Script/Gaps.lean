import Dialects.Proofs.Script.Edges

/-!
# The first token when a semicolon is left out

A token of code that ends in front of one text is also the first one in front of another text, if no
lexeme goes on there (`code_unchanged`).

So if the first token of a text ends in front of a semicolon, it is still the first one when the
semicolon is left out (`first_unchanged`). Three cases have to be excluded: blank space, which goes
on behind the semicolon, a slash or an angle bracket alone, which may then start a comment or a
longer operator, and an open comment, which may be closed by an asterisk and a slash that meet.
-/

namespace Dialects.Script

open CodePoint (scalar)
open Text (Stops spanLength)

variable {x y z t : Text} {s : LexState} {a : Step}

/-- A run that ends in front of a code point of its class ends earlier. -/
theorem spanLength_append_congr {p : CodePoint → Bool} {u w : Text} {c : CodePoint}
    (h : spanLength p (u ++ c :: w) ≤ u.length) (hc : p c = true) (v : Text) :
    spanLength p (u ++ v) = spanLength p (u ++ c :: w) := by
  induction u with
  | nil =>
    rw [List.nil_append, Text.spanLength_cons_of_pos hc] at h
    contradiction
  | cons d u ih =>
    rw [List.cons_append, List.cons_append]
    cases hd : p d with
    | true =>
      rw [List.cons_append, Text.spanLength_cons_of_pos hd] at h
      rw [Text.spanLength_cons_of_pos hd, Text.spanLength_cons_of_pos hd,
        ih (Nat.le_of_succ_le_succ h)]
    | false => rw [Text.spanLength_cons_of_neg hd, Text.spanLength_cons_of_neg hd]

/-! ## The first line -/

/-- A line that ends in front of a semicolon ends with a line feed. -/
theorem lineAfter_unchanged {lead : Text} {n : Nat}
    (h : lineAfter? lead (x ++ scalar ';' :: t) = some n) (hle : n ≤ x.length) (z : Text) :
    lineAfter? lead (x ++ z) = some n := by
  -- The lead is part of `x`, since a line that ends there is at least as long.
  obtain ⟨hlead, rfl⟩ := lineAfter_eq_some.mp h
  have hlong : lead.length ≤ x.length := Nat.le_trans (Nat.le_add_left _ _) hle
  have hshort : lead <+: x :=
    List.prefix_of_prefix_length_le hlead (List.prefix_append x _) hlong
  refine lineAfter_eq_some.mpr ⟨hshort.trans (List.prefix_append x z), ?_⟩
  rw [List.drop_append_of_le_length hlong] at hle ⊢
  rw [List.drop_append_of_le_length hlong, Lexeme.lineLength, Lexeme.lineLength,
    spanLength_append_congr (p := (· ≠ Text.newline)) (w := t) (c := scalar ';')
      (Nat.le_of_add_le_add_right (b := lead.length) ?_) rfl]
  rw [List.length_drop, Nat.sub_add_cancel hlong]
  exact hle

/-- The first line of a program is the same with any rest behind it. -/
theorem shebang_unchanged {n : Nat} (h : Lexeme.shebang? (x ++ scalar ';' :: t) = some n)
    (hle : n ≤ x.length) (z : Text) : Lexeme.shebang? (x ++ z) = some n := by
  rw [shebang_eq] at h ⊢
  cases hshort : lineAfter? [scalar '#', scalar '!', scalar '/'] (x ++ scalar ';' :: t) with
  | some m =>
    rw [hshort] at h
    obtain rfl := Option.some.inj h
    rw [lineAfter_unchanged hshort hle]
    rfl
  | none =>
    -- The longer lead lies in `x` as a whole, so that the shorter one is not found there either.
    rw [hshort] at h
    have hlong : lineAfter? [scalar '#', scalar '!', scalar ' ', scalar '/']
        (x ++ scalar ';' :: t) = some n := h
    obtain ⟨hlead, hlength⟩ := lineAfter_eq_some.mp hlong
    have hspace : [scalar '#', scalar '!', scalar ' ', scalar '/'] <+: x := by
      refine List.prefix_of_prefix_length_le hlead (List.prefix_append x _) ?_
      exact Nat.le_trans (Nat.le_of_add_left_le (Nat.le_of_eq hlength)) hle
    have hnone : lineAfter? [scalar '#', scalar '!', scalar '/'] (x ++ z) = none := by
      obtain ⟨rest, rfl⟩ := hspace
      rfl
    rw [hnone, lineAfter_unchanged hlong hle]
    rfl

/-! ## What the rules find -/

/-- What starts with no mark of a comment, regular expression, template or interpolation is found
by the rules. -/
theorem byRules_of_first {b : Bool} {c : CodePoint} (hs : s.mode = .code b)
    (hline : s.previous = none → Lexeme.shebang? (c :: x) = none)
    (hblank : c.isBlank = false) (hslash : c ≠ scalar '/') (hangle : c ≠ scalar '<')
    (hbrace : c ≠ scalar '}') (hquote : c ≠ scalar '`')
    (h : Step.first? s (c :: x) = some a) : byRules? s (c :: x) = some a := by
  -- Neither blank space nor a comment starts with `c`.
  have hnoblank : Lexeme.blank? (c :: x) = none := by
    cases hn : Lexeme.blank? (c :: x) with
    | none => rfl
    | some n =>
      obtain ⟨d, rest, heq, hd⟩ := head_of_blank hn
      rw [(List.cons.inj heq).1, hd] at hblank
      contradiction
  have hnocomment : Lexeme.comment? (c :: x) = none := by
    cases hn : Lexeme.comment? (c :: x) with
    | none => rfl
    | some n =>
      obtain ⟨d, rest, heq, hd⟩ := head_of_comment hn
      obtain rfl := (List.cons.inj heq).1
      obtain rfl | rfl := hd
      · contradiction
      · contradiction
  rw [first_other hs hline hnoblank hnocomment (beq_false_of_ne hslash)] at h
  obtain ⟨hhead, -⟩ | ⟨hhead, -⟩ | hfound := afterOperand_cases h
  · exact absurd (Option.some.inj hhead) hbrace
  · exact absurd (Option.some.inj hhead) hquote
  · exact hfound

/-- A backslash alone is not what has been found in front of a semicolon. -/
theorem ne_backslash_of_first (h : Step.first? s (x ++ scalar ';' :: t) = some a)
    (hle : a.length ≤ x.length) : x ≠ [scalar '\\'] := by
  rintro rfl
  cases hs : s.mode with
  | template =>
    rw [Step.first?, hs] at h
    obtain rfl := Option.some.inj h
    contradiction
  | code b =>
    rw [List.cons_append, List.nil_append] at h
    have hfound := byRules_of_first hs (fun _ => rfl) (by decide) (by decide) (by decide)
      (by decide) (by decide) h
    rw [byRules_backslash] at hfound
    contradiction

/-! ## What goes on behind the semicolon -/

/-- What stands for itself in a template is read together with the semicolon behind it. -/
theorem two_le_of_inTemplate {c : CodePoint} (hc : Lexeme.isPlainInTemplate c = true)
    (h : Step.inTemplate? s (c :: scalar ';' :: t) = some a) : 2 ≤ a.length := by
  have hne := hc
  simp only [Lexeme.isPlainInTemplate, Bool.and_eq_true, bne_iff_ne] at hne
  obtain ⟨⟨hquote, hslash⟩, hdollar⟩ := hne
  rw [inTemplate_of_ne hquote hslash hdollar] at h
  obtain ⟨n, hn, rfl⟩ := Option.map_eq_some_iff.mp h
  obtain ⟨rfl, -⟩ := positive_eq_some.mp hn
  -- the semicolon stands for itself as well, so that the run reaches behind it
  rw [Text.spanLength_cons_of_pos hc, Text.spanLength_cons_of_pos rfl]
  exact Nat.le_add_left 2 _

/-- In a template the same is found without the semicolon. -/
theorem inTemplate_unchanged (hz : Gap z) (hx : x ≠ [])
    (h : Step.inTemplate? s (x ++ scalar ';' :: t) = some a) (hle : a.length ≤ x.length) :
    Step.inTemplate? s (x ++ z) = some a := by
  obtain ⟨c, x, rfl⟩ := List.exists_cons_of_ne_nil hx
  -- A backtick ends the text, whatever comes next.
  by_cases hquote : c = scalar '`'
  · subst hquote
    exact h
  -- An escape takes the next code point with it, so that `x` has to hold both.
  by_cases hslash : c = scalar '\\'
  · subst hslash
    cases x with
    | nil =>
      obtain rfl := Option.some.inj h
      contradiction
    | cons d x => exact h
  -- A dollar sign is a token of its own unless a brace comes next.
  by_cases hdollar : c = scalar '$'
  · subst hdollar
    cases x with
    | nil =>
      have hsame : Step.inTemplate? s (scalar '$' :: scalar ';' :: t)
          = some ⟨.template, 1, .template, s.interpolations⟩ :=
        inTemplate_dollar fun rest heq => by
          have hhead := (List.cons.inj heq).1
          contradiction
      rw [List.cons_append, List.nil_append, hsame] at h
      rw [← h]
      exact inTemplate_dollar (hz.border.ne_cons rfl)
    | cons d x =>
      by_cases hd : d = scalar '{'
      · subst hd
        exact h
      · have hbrace (t : Text) := inTemplate_dollar (s := s) (x := d :: x ++ t)
          fun rest heq => hd (List.cons.inj heq).1
        rw [← h]
        exact (hbrace z).trans (hbrace _).symm
  · -- A run of plain code points would go on with the semicolon, so that it ends earlier.
    have hplain (t : Text) := inTemplate_of_ne (s := s) hquote hslash hdollar (x ++ t)
    have hrun : Step.inTemplate? s (c :: x ++ scalar ';' :: t) = _ := hplain (scalar ';' :: t)
    rw [hrun] at h
    obtain ⟨n, hn, rfl⟩ := Option.map_eq_some_iff.mp h
    obtain ⟨rfl, hpos⟩ := positive_eq_some.mp hn
    have hsame := spanLength_append_congr (u := c :: x) hle rfl z
    have hfound : Step.inTemplate? s (c :: x ++ z) = _ := hplain z
    rw [hfound, Option.map_eq_some_iff]
    exact ⟨_, positive_eq_some.mpr ⟨hsame, hsame ▸ hpos⟩, rfl⟩

/-- An angle bracket, a slash or an asterisk directly in front of a semicolon is an operator. -/
theorem kind_of_single (h : Step.first? s (x ++ scalar ';' :: t) = some a)
    (hle : a.length ≤ x.length) (hx : x = [scalar '<'] ∨ x = [scalar '/'] ∨ x = [scalar '*']) :
    a.kind = .operator := by
  have hrules : byRules? s (x ++ scalar ';' :: t)
      = some ⟨.operator, 1, .code true, s.interpolations⟩ := by
    rw [byRules?]
    obtain rfl | rfl | rfl := hx <;> cases s.afterWord <;> rfl
  have hafter : Step.afterOperand? s (x ++ scalar ';' :: t) = byRules? s (x ++ scalar ';' :: t) := by
    obtain rfl | rfl | rfl := hx
    all_goals exact afterOperand_of_border rfl
  have hfound (hf : Step.afterOperand? s (x ++ scalar ';' :: t) = some a) : a.kind = .operator := by
    rw [hafter, hrules] at hf
    obtain rfl := Option.some.inj hf
    rfl
  have hone : x.length = 1 := by obtain rfl | rfl | rfl := hx <;> rfl
  obtain ⟨-, htemplate⟩ | ⟨-, ⟨-, -, n, hline, -⟩ | hbefore | hf⟩ := first_cases h
  · -- In the text of a template the token would go on with the semicolon.
    have htwo : 2 ≤ a.length := by
      obtain rfl | rfl | rfl := hx
      all_goals exact two_le_of_inTemplate (by decide) htemplate
    omega
  · obtain rfl | rfl | rfl := hx <;> contradiction
  · obtain ⟨n, hn, -⟩ | ⟨-, ⟨n, hn, -⟩ | ⟨-, ⟨-, n, hn, ha⟩ | ⟨-, hf⟩⟩⟩ :=
      beforeOperand_cases hbefore
    · obtain rfl | rfl | rfl := hx <;> contradiction
    · obtain rfl | rfl | rfl := hx <;> contradiction
    · -- A regular expression has two slashes.
      obtain ⟨rest, m, k, -, -, hm, -, hlength⟩ := regularExpression_eq_some hn
      have hpos := (patternLength_bounds hm).1
      have han : a.length = n := congrArg Step.length ha
      omega
    · exact hfound hf
  · exact hfound hf

/-- No operator that no equals sign extends has a border behind its first code point. -/
theorem closedOperator_bound (hz : Border z) (hx : x ≠ []) {n : Nat}
    (h : closedOperator? (x ++ z) = some n) : n ≤ x.length := by
  obtain ⟨o, ho, hn⟩ := List.exists_of_findSome?_eq_some h
  have htail : ∀ o ∈ Lexeme.closedOperators, ∀ c ∈ (Text.ofString o).tail,
      c.isBorder = false := by decide
  have hblind : Blind (Lexeme.exactly? o) := blind_exactly (htail o ho)
  rw [hblind.append hx hz] at hn
  exact hblind.le hn

/-- A pair of code points is found within two of them. -/
theorem two_le_of_pair {c : CodePoint} (hx : x ≠ []) (hne : z.head? = some c → x ≠ [c])
    (h : [c, c] <+: x ++ z) : 2 ≤ x.length := by
  obtain ⟨rest, heq⟩ := h
  match x with
  | [d] =>
    obtain ⟨rfl, rfl⟩ := List.cons.inj heq
    exact absurd rfl (hne rfl)
  | d :: d' :: x => exact Nat.le_add_left 2 _

/-- Of the operators that an equals sign may extend, only two have a border behind the first code
point; for each of them `z` would have to start with it. -/
theorem openOperator_bound (hz : Border z) (hx : x ≠ []) (hstar : z.head? ≠ some (scalar '*'))
    (hangle : z.head? = some (scalar '<') → x ≠ [scalar '<']) {n : Nat}
    (h : openOperator? (x ++ z) = some n) : n ≤ x.length := by
  obtain ⟨o, ho, hn⟩ := List.exists_of_findSome?_eq_some h
  have htail : ∀ o ∈ Lexeme.openOperators, o = "<<" ∨ o = "**" ∨
      ∀ c ∈ (Text.ofString o).tail, c.isBorder = false := by decide
  obtain rfl | rfl | hborder := htail o ho
  · obtain ⟨hpair, rfl⟩ := exactly_eq_some.mp hn
    exact two_le_of_pair (c := scalar '<') hx hangle hpair
  · obtain ⟨hpair, rfl⟩ := exactly_eq_some.mp hn
    exact two_le_of_pair (c := scalar '*') hx (fun heq => absurd heq hstar) hpair
  · have hblind : Blind (Lexeme.exactly? o) := blind_exactly hborder
    rw [hblind.append hx hz] at hn
    exact hblind.le hn

/-- An operator does not go on behind what stands in front of a border, unless that is an angle
bracket alone. -/
theorem operator_bound (hz : Border z) (hx : x ≠ []) (hstar : z.head? ≠ some (scalar '*'))
    (hangle : z.head? = some (scalar '<') → x ≠ [scalar '<']) {n : Nat}
    (h : Lexeme.operator? (x ++ z) = some n) : n ≤ x.length := by
  by_cases hfeed : ∃ rest, x ++ z = scalar '\\' :: scalar '\n' :: rest
  · obtain ⟨rest, heq⟩ := hfeed
    rw [heq, operator_backslash] at h
    obtain rfl := Option.some.inj h
    exact List.length_pos_iff.mpr hx
  rw [operator_of_ne fun rest heq => hfeed ⟨rest, heq⟩] at h
  cases hclosed : closedOperator? (x ++ z) with
  | some m =>
    rw [hclosed] at h
    obtain rfl := Option.some.inj h
    exact closedOperator_bound hz hx hclosed
  | none =>
    rw [hclosed] at h
    obtain ⟨m, hm, -⟩ := Option.map_eq_some_iff.mp h
    have hle : m ≤ x.length := openOperator_bound hz hx hstar hangle hm
    -- An equals sign belongs to the operator only if it stands in `x`.
    have hextended : extended? (x ++ z) = some n := h
    rw [extended_border hz hm hle] at hextended
    have hsign := headIs_le (· == scalar '=') (x.drop m)
    rw [List.length_drop] at hsign
    obtain rfl := Option.some.inj hextended
    split <;> split at hsign <;> omega

/-- A string that is found ends in front of the border. -/
theorem string_bound {b : Bool} (hs : s.mode = .code b)
    (h : Step.first? s (x ++ y) = some a) (hle : a.length ≤ x.length) (hx : x ≠ [])
    {n : Nat} (hn : Lexeme.string? (x ++ z) = some n) : n ≤ x.length := by
  obtain ⟨c, x, rfl⟩ := List.exists_cons_of_ne_nil hx
  obtain ⟨mark, rest, m, hmark, heq, -⟩ := string_eq_some hn
  obtain rfl : c = scalar mark := (List.cons.inj heq).1
  have hne : ∀ d ∈ [scalar '/', scalar '<', scalar '}', scalar '`', scalar '#'],
      scalar mark ≠ d := by
    obtain rfl | rfl := hmark <;> decide
  have hnoblank : (scalar mark).isBlank = false := by obtain rfl | rfl := hmark <;> rfl
  have hfound := byRules_of_first hs (fun _ => shebang_of_ne (hne _ (by decide)) _) hnoblank
    (hne _ (by decide)) (hne _ (by decide)) (hne _ (by decide)) (hne _ (by decide)) h
  have hstring : Lexeme.string? (scalar mark :: x ++ y) = some a.length :=
    byRules_quote hmark hfound
  rw [fixed_string hstring hle z] at hn
  obtain rfl := Option.some.inj hn
  exact hle

/-- A comment does not go on in front of `z` if none did in front of `y`. -/
theorem comment_bound {b : Bool} (hs : s.mode = .code b)
    (h : Step.first? s (x ++ y) = some a) (hle : a.length ≤ x.length) (hx : x ≠ [])
    (hz : Border z) (hstar : z.head? ≠ some (scalar '*'))
    (hslash : z.head? = some (scalar '/') → x ≠ [scalar '/'])
    (hline : ∀ v, x = scalar '/' :: scalar '/' :: v → Lexeme.lineLength (v ++ y) ≤ v.length →
      Lexeme.lineLength (v ++ z) ≤ v.length)
    (hblock : ∀ v, x = scalar '/' :: scalar '*' :: v → (Lexeme.blockLength? (v ++ z)).isSome →
      (Lexeme.blockLength? (v ++ y)).isSome)
    {n : Nat} (hn : Lexeme.comment? (x ++ z) = some n) : n ≤ x.length := by
  obtain ⟨c, x, rfl⟩ := List.exists_cons_of_ne_nil hx
  -- A comment in front of `y` would have been the first token.
  have horig {m : Nat} (hc : c = scalar '/')
      (hm : Lexeme.comment? (c :: x ++ y) = some m) : m ≤ (c :: x).length := by
    obtain ⟨b', -, hfound⟩ := first_comment hs (by rw [hc]; rfl) hm
    rw [hfound] at h
    obtain rfl := Option.some.inj h
    exact hle
  obtain ⟨rest, rfl, heq⟩ | ⟨rest, rfl, heq⟩ | hother := comment_cases c (x ++ z)
  · -- A comment up to the end of the line.
    cases x with
    | nil =>
      have hsecond : z = scalar '/' :: rest := heq
      rw [hsecond] at hslash
      exact absurd rfl (hslash rfl)
    | cons d x =>
      obtain ⟨rfl, rfl⟩ := List.cons.inj heq
      have hends := hline x rfl (Nat.le_of_add_le_add_right (b := 2) (horig rfl rfl))
      obtain rfl := Option.some.inj hn
      exact Nat.add_le_add_right hends 2
  · -- A comment up to an asterisk and a slash.
    cases x with
    | nil =>
      have hsecond : z = scalar '*' :: rest := heq
      rw [hsecond] at hstar
      exact absurd rfl hstar
    | cons d x =>
      obtain ⟨rfl, rfl⟩ := List.cons.inj heq
      obtain ⟨m, hm, rfl⟩ := Option.map_eq_some_iff.mp hn
      have hclosed := hblock x rfl (by rw [← Option.mem_def] at hm; exact Option.isSome_of_mem hm)
      obtain ⟨m', hm'⟩ := Option.isSome_iff_exists.mp hclosed
      have hbound : m' + 2 ≤ x.length + 2 := horig rfl (Option.map_eq_some_iff.mpr ⟨m', hm', rfl⟩)
      have hsame := fixed_blockLength hm' (Nat.le_of_add_le_add_right hbound) z
      obtain rfl := Option.some.inj (hm.symm.trans hsame)
      exact hbound
  · -- The mark that starts a comment in a web page does not depend on what follows it.
    have hpage : Lexeme.comment? (c :: x ++ z) = Lexeme.exactly? "<!--" (c :: x ++ z) :=
      comment_of_ne hother
    rw [hpage, blind_pageComment.append hx hz] at hn
    exact blind_pageComment.le hn

/-! ## The first token -/

/-- A run ends before a code point outside its class. -/
theorem spanLength_le_of_mem {p : CodePoint → Bool} {c : CodePoint} (hc : c ∈ x)
    (hp : p c = false) (z : Text) : spanLength p (x ++ z) ≤ x.length := by
  induction x with
  | nil => contradiction
  | cons d x ih =>
    rw [List.cons_append]
    cases hd : p d with
    | false =>
      rw [Text.spanLength_cons_of_neg hd]
      exact Nat.zero_le _
    | true =>
      rw [Text.spanLength_cons_of_pos hd]
      obtain rfl | hmem := List.mem_cons.mp hc
      · rw [hp] at hd
        contradiction
      · exact Nat.succ_le_succ (ih hmem)

/-- No lexeme goes on behind `x`. Only those are named that are not blind to what follows. -/
structure Ends (x z : Text) : Prop where
  border : Border z
  blank : ∀ n, Lexeme.blank? (x ++ z) = some n → n ≤ x.length
  comment : ∀ n, Lexeme.comment? (x ++ z) = some n → n ≤ x.length
  operator : ∀ n, Lexeme.operator? (x ++ z) = some n → n ≤ x.length
  string : ∀ n, Lexeme.string? (x ++ z) = some n → n ≤ x.length

/-- What a rule finds ends in front of the border. -/
theorem Ends.rule (hz : Ends x z) (hx : x ≠ []) :
    ∀ r ∈ rules, ∀ n, r.length? (x ++ z) = some n → n ≤ x.length := by
  -- a rule that sees nothing of what comes behind the border ends in front of it
  have hblind {f : Text → Option Nat} (hf : Blind f) (n : Nat) (hn : f (x ++ z) = some n) :
      n ≤ x.length := by
    rw [hf.append hx hz.border] at hn
    exact hf.le hn
  exact forall_rules (p := fun _ f => ∀ n, f (x ++ z) = some n → n ≤ x.length) hz.blank hz.comment
    (hblind blind_number) (hblind blind_longMark) hz.operator (hblind (blind_oneOf _))
    (hblind (blind_oneOf _)) (fun _ ws _ _ => hblind (blind_word ws)) (hblind blind_methodPath)
    (hblind blind_name) hz.string (hblind blind_privateName)

/-- What is found behind an operand ends in front of the border. -/
theorem Ends.afterOperand (hz : Ends x z) (hx : x ≠ []) {c : Step}
    (hc : Step.afterOperand? s (x ++ z) = some c) : c.length ≤ x.length := by
  have hone : 1 ≤ x.length := List.length_pos_iff.mpr hx
  obtain ⟨-, rfl⟩ | ⟨-, rfl⟩ | hfound := afterOperand_cases hc
  · exact hone
  · exact hone
  · obtain ⟨r, hr, hn, -⟩ := byRules_cases hfound
    exact hz.rule hx r hr _ hn

section Code

variable (h : Step.first? s (x ++ y) = some a) (hle : a.length ≤ x.length) (hx : x ≠ [])
  (hslash : x ≠ [scalar '\\']) (hy : Border y) (hz : Ends x z)

include hle hx hslash hy hz

/-- Behind an operand the same is found with the other rest. -/
theorem afterOperand_unchanged (hafter : Step.afterOperand? s (x ++ y) = some a) :
    Step.afterOperand? s (x ++ z) = some a := by
  rw [← hafter]
  -- Two results agree as soon as neither goes on behind `x`.
  refine ((local_afterOperand s).agree hx hslash hy hz.border ?_
    fun c hc => hz.afterOperand hx hc).symm
  rw [hafter]
  intro c hc
  obtain rfl := Option.some.inj hc
  exact hle

/-- What is a regular expression now was one before, for there was no comment before either. -/
theorem regularExpression_bound (hbefore : Step.beforeOperand? s (x ++ y) = some a)
    (hhead : (x ++ z).head? = some (scalar '/')) (hnone : Lexeme.comment? (x ++ z) = none) {n : Nat}
    (hn : Lexeme.regularExpression? (x ++ z) = some n) : n ≤ x.length := by
  obtain ⟨rest, rfl⟩ : ∃ rest, x = scalar '/' :: rest := by
    cases x with
    | nil => exact absurd rfl hx
    | cons c rest => exact ⟨rest, congrArg (· :: rest) (Option.some.inj hhead)⟩
  obtain ⟨m, hm, ha⟩ | ⟨-, ⟨m, hm, ha⟩ | ⟨-, ⟨-, m, hm, ha⟩ | ⟨hno, -⟩⟩⟩ :=
    beforeOperand_cases hbefore
  · contradiction
  · -- A comment in front of `y` would be one in front of `z`.
    rw [ha] at hle
    have hagree := local_comment.agree hx hslash hy hz.border
      (fun k hk => Option.some.inj (hm.symm.trans hk) ▸ hle)
      (fun k hk => by rw [hnone] at hk; contradiction)
    rw [hm, hnone] at hagree
    contradiction
  · rw [ha] at hle
    have hsame := regularExpression_border hy hz.border hm hle
    obtain rfl := Option.some.inj (hn.symm.trans hsame)
    exact hle
  · exact absurd rfl hno

/-- In front of an operand the same is found with the other rest. -/
theorem beforeOperand_unchanged (hbefore : Step.beforeOperand? s (x ++ y) = some a) :
    Step.beforeOperand? s (x ++ z) = some a := by
  rw [← hbefore]
  refine ((local_beforeOperand s).agree hx hslash hy hz.border ?_ fun c hc => ?_).symm
  · rw [hbefore]
    intro c hc
    obtain rfl := Option.some.inj hc
    exact hle
  obtain ⟨n, hn, rfl⟩ | ⟨-, ⟨n, hn, rfl⟩ | ⟨hnone, ⟨hhead, n, hn, rfl⟩ | ⟨-, hafter⟩⟩⟩ :=
    beforeOperand_cases hc
  · exact hz.blank n hn
  · exact hz.comment n hn
  · exact regularExpression_bound hle hx hslash hy hz hbefore hhead hnone hn
  · exact hz.afterOperand hx hafter

include h

/-- In code a token that ends in front of `y` is also the first one in front of `z`, if no lexeme
goes on there. -/
theorem code_unchanged {b : Bool} (hs : s.mode = .code b)
    (hline : s.previous = none → s.mode = .code false →
      Lexeme.shebang? (x ++ z) = Lexeme.shebang? (x ++ y)) :
    Step.first? s (x ++ z) = some a := by
  obtain ⟨mode, k, previous⟩ := s
  obtain rfl : mode = .code b := hs
  cases b with
  | true => exact beforeOperand_unchanged hle hx hslash hy hz h
  | false =>
    rw [first_code, opensLine_border hx hy] at h
    rw [first_code, opensLine_border hx hz.border]
    -- Apart from the first line, the same function finds the token before and after.
    have hrest (hfound : (if LexState.atLineStart ⟨.code false, k, previous⟩ && Step.opensLine x then
          Step.beforeOperand? ⟨.code false, k, previous⟩ (x ++ y)
        else Step.afterOperand? ⟨.code false, k, previous⟩ (x ++ y)) = some a) :
        (if LexState.atLineStart ⟨.code false, k, previous⟩ && Step.opensLine x then
          Step.beforeOperand? ⟨.code false, k, previous⟩ (x ++ z)
        else Step.afterOperand? ⟨.code false, k, previous⟩ (x ++ z)) = some a := by
      split at hfound
      · next hc =>
        rw [if_pos hc]
        exact beforeOperand_unchanged hle hx hslash hy hz hfound
      · next hc =>
        rw [if_neg hc]
        exact afterOperand_unchanged hle hx hslash hy hz hfound
    cases previous with
    | some c => exact hrest h
    -- The very first line of a script counts as a comment.
    | none =>
      rw [hline rfl rfl]
      cases hfound : Lexeme.shebang? (x ++ y) with
      | some n =>
        rw [hfound] at h
        exact h
      | none =>
        rw [hfound] at h
        exact hrest h

end Code

/-! ## When a semicolon is left out -/

/-- What comes before a semicolon that is left out, and the blank space or comment that comes
behind it, do not make one token. -/
structure Apart (x t z : Text) : Prop where
  ne_nil : x ≠ []
  gap : Gap z
  blank : ∀ c ∈ z.head?, c.isBlank = true → ∃ d ∈ x, d.isBlank = false
  angle : z.head? = some (scalar '<') → x ≠ [scalar '<']
  slash : z.head? = some (scalar '/') → x ≠ [scalar '/']
  block : ∀ v, x = scalar '/' :: scalar '*' :: v → (Lexeme.blockLength? (v ++ z)).isSome →
    (Lexeme.blockLength? (v ++ scalar ';' :: t)).isSome

/-- Blank space ends in front of the border. -/
theorem Apart.blank_bound (hx : Apart x t z) {n : Nat} (h : Lexeme.blank? (x ++ z) = some n) :
    n ≤ x.length := by
  obtain ⟨rfl, -⟩ := positive_eq_some.mp h
  cases z with
  | nil =>
    rw [List.append_nil]
    exact Text.spanLength_le _ x
  | cons c z =>
    cases hc : c.isBlank with
    | true =>
      obtain ⟨d, hd, hblank⟩ := hx.blank c rfl hc
      exact spanLength_le_of_mem hd hblank _
    | false =>
      refine Decidable.byContradiction fun hlong => ?_
      rw [eq_true_of_lt_spanLength (Nat.lt_of_not_le hlong)] at hc
      contradiction

section Dropped

variable {b : Bool} (hs : s.mode = .code b)
  (h : Step.first? s (x ++ scalar ';' :: t) = some a) (hle : a.length ≤ x.length)
  (hx : Apart x t z)

include hs h hle hx

/-- Where the texts are apart, what is found ends in front of the border. -/
theorem Apart.ends : Ends x z where
  border := hx.gap.border
  blank _ hn := hx.blank_bound hn
  comment _ hn :=
    comment_bound hs h hle hx.ne_nil hx.gap.border hx.gap.ne_star hx.slash
      (fun _ _ hline => Nat.le_trans (Nat.le_of_eq (spanLength_append_congr hline rfl z)) hline)
      hx.block hn
  operator _ hn :=
    operator_bound hx.gap.border hx.ne_nil hx.gap.ne_star hx.angle hn
  string _ hn := string_bound hs h hle hx.ne_nil hn

/-- The first line of a script is the only one that may start with a number sign and an
exclamation mark. -/
theorem shebang_none (hline : Lexeme.shebang? (x ++ scalar ';' :: t) = none) :
    Lexeme.shebang? (x ++ z) = none := by
  obtain ⟨c, x, rfl⟩ := List.exists_cons_of_ne_nil hx.ne_nil
  by_cases hc : c = scalar '#'
  · subst hc
    match x with
    -- The exclamation mark would be the first code point of `z`.
    | [] =>
      rw [List.cons_append, List.nil_append, Lexeme.shebang?]
      · exact fun rest heq => hx.gap.border.ne_cons rfl _ (List.cons.inj heq).2
      · exact fun rest heq => hx.gap.border.ne_cons rfl _ (List.cons.inj heq).2
    | d :: x =>
      by_cases hd : d = scalar '!'
      · subst hd
        -- No token starts with a number sign and an exclamation mark.
        have hfound := byRules_of_first hs (fun _ => hline) rfl (by decide) (by decide) (by decide)
          (by decide) h
        rw [show (scalar '!' :: x).append (scalar ';' :: t) = scalar '!' :: (x ++ scalar ';' :: t)
          from rfl, byRules_hash] at hfound
        contradiction
      · rw [List.cons_append, List.cons_append, Lexeme.shebang?]
        · exact fun rest heq => hd (List.cons.inj (List.cons.inj heq).2).1
        · exact fun rest heq => hd (List.cons.inj (List.cons.inj heq).2).1
  · exact shebang_of_ne hc _

end Dropped

/-- A token that ends in front of a semicolon stays the first one when that is left out. -/
theorem first_unchanged (h : Step.first? s (x ++ scalar ';' :: t) = some a)
    (hle : a.length ≤ x.length) (hx : Apart x t z) : Step.first? s (x ++ z) = some a := by
  cases hs : s.mode with
  | template =>
    rw [Step.first?, hs] at h ⊢
    exact inTemplate_unchanged hx.gap hx.ne_nil h hle
  | code b =>
    refine code_unchanged h hle hx.ne_nil (ne_backslash_of_first h hle) (border_semicolon t)
      (hx.ends hs h hle) hs fun hstart hmode => ?_
    cases hline : Lexeme.shebang? (x ++ scalar ';' :: t) with
    | none => exact shebang_none hs h hle hx hline
    | some n =>
      rw [first_shebang hmode hstart hline] at h
      obtain rfl := Option.some.inj h
      exact shebang_unchanged hline hle z

end Dialects.Script
