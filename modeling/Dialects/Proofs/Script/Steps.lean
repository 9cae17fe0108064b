import Dialects.Proofs.Script.Nearby

/-!
# The first token of a text

The first token in front of a border is the same whatever follows the border, unless it goes on
behind it.
-/

namespace Dialects.Script

open CodePoint (scalar)
open Text (Stops spanLength)

variable {x y z : Text} {s : LexState}

/-! ## Templates -/

/-- The plain text of a template goes up to a backtick, a backslash or a dollar sign. -/
theorem inTemplate_of_ne {c : CodePoint} (hquote : c ≠ scalar '`') (hslash : c ≠ scalar '\\')
    (hdollar : c ≠ scalar '$') (t : Text) :
    Step.inTemplate? s (c :: t) =
      (Lexeme.positive? (spanLength Lexeme.isPlainInTemplate (c :: t))).map
        fun n => ⟨.template, n, .template, s.interpolations⟩ := by
  rw [Step.inTemplate?]
  · rintro rest heq
    exact hquote (List.cons.inj heq).1
  · rintro d rest heq
    exact hslash (List.cons.inj heq).1
  · rintro rest heq
    exact hdollar (List.cons.inj heq).1
  · rintro rest heq
    exact hdollar (List.cons.inj heq).1

/-- A dollar sign without a brace belongs to the text of a template. -/
theorem inTemplate_dollar (h : ∀ rest, x ≠ scalar '{' :: rest) :
    Step.inTemplate? s (scalar '$' :: x) = some ⟨.template, 1, .template, s.interpolations⟩ := by
  rw [Step.inTemplate?]
  intro rest heq
  exact h rest heq

/-- The plain text of a template is found nearby. -/
theorem local_plainInTemplate (s : LexState) : Local Step.length fun t =>
    (Lexeme.positive? (spanLength Lexeme.isPlainInTemplate t)).map
      fun n => (⟨.template, n, .template, s.interpolations⟩ : Step) :=
  (local_run Lexeme.isPlainInTemplate).map fun _ => rfl

/-- No token of a template ends behind the text. -/
theorem inTemplate_le {a : Step} (ha : Step.inTemplate? s x = some a) : a.length ≤ x.length := by
  rw [Step.inTemplate?.eq_def] at ha
  split at ha
  · obtain rfl := Option.some.inj ha
    exact Nat.succ_le_succ (Nat.zero_le _)
  · obtain rfl := Option.some.inj ha
    exact Nat.succ_le_succ (Nat.succ_le_succ (Nat.zero_le _))
  · obtain rfl := Option.some.inj ha
    exact Nat.succ_le_succ (Nat.succ_le_succ (Nat.zero_le _))
  · obtain rfl := Option.some.inj ha
    exact Nat.succ_le_succ (Nat.zero_le _)
  · exact (local_plainInTemplate s).le ha

/-- What is found in a template is found nearby. -/
theorem local_inTemplate (s : LexState) : Local Step.length (Step.inTemplate? s) := by
  have hrun := local_plainInTemplate s
  refine ⟨fun {x y z} hx hslash hy hz hfy hfz => ?_, inTemplate_le⟩
  match x with
  | [c] =>
    by_cases hdollar : c = scalar '$'
    · -- A dollar sign alone is followed by no brace, for that is no border.
      subst hdollar
      have hbrace {t : Text} (ht : Border t) := inTemplate_dollar (s := s) (ht.ne_cons (by decide))
      exact (hbrace hy).trans (hbrace hz).symm
    by_cases hquote : c = scalar '`'
    · subst hquote
      rfl
    have hc : c ≠ scalar '\\' := fun heq => hslash (congrArg (· :: []) heq)
    have hplain (t : Text) := inTemplate_of_ne (s := s) hquote hc hdollar t
    simp only [List.cons_append, List.nil_append, hplain] at hfy hfz ⊢
    exact hrun.agree hx hslash hy hz hfy hfz
  | c :: d :: x =>
    by_cases hdollar : c = scalar '$'
    · subst hdollar
      by_cases hd : d = scalar '{'
      · subst hd
        rfl
      · have hbrace (t : Text) := inTemplate_dollar (s := s) (x := d :: x ++ t)
          fun rest heq => hd (List.cons.inj heq).1
        exact (hbrace y).trans (hbrace z).symm
    by_cases hquote : c = scalar '`'
    · subst hquote
      rfl
    by_cases hc : c = scalar '\\'
    · subst hc
      rfl
    have hplain (t : Text) := inTemplate_of_ne (s := s) hquote hc hdollar t
    simp only [List.cons_append, hplain] at hfy hfz ⊢
    exact hrun.agree hx hslash hy hz hfy hfz

/-! ## Code -/

/-- What holds of the functions behind the rules holds of every rule. -/
theorem forall_rules {p : Kind → (Text → Option Nat) → Prop} (hblank : p .other Lexeme.blank?)
    (hcomment : p .comment Lexeme.comment?) (hnumber : p .other Lexeme.number?)
    (hmark : p .punctuation Lexeme.longMark?) (hoperator : p .operator Lexeme.operator?)
    (hlead : p .punctuation (Lexeme.oneOf? ['{', '(', '[', ';', ',']))
    (htrail : p .punctuation (Lexeme.oneOf? ['}', ')', ']', '.']))
    (hword : ∀ (kind : Kind) (ws : List Text), kind ≠ .comment → [] ∉ ws →
      p kind (Lexeme.word? ws))
    (hpath : p .other Lexeme.methodPath?) (hname : p .other Lexeme.name?)
    (hstring : p .other Lexeme.string?) (hprivate : p .other Lexeme.privateName?) :
    ∀ r ∈ rules, p r.kind r.length? := by
  intro r hr
  simp only [rules, List.mem_cons, List.not_mem_nil, or_false] at hr
  obtain rfl | rfl | rfl | rfl | rfl | rfl | rfl | rfl | rfl | rfl | rfl | rfl | rfl | rfl | rfl |
    rfl | rfl | rfl := hr
  · exact hblank
  · exact hcomment
  · exact hnumber
  · exact hmark
  · exact hoperator
  · exact hlead
  · exact htrail
  · exact hword _ _ (by decide) (by decide)
  · exact hword _ _ (by decide) (by decide)
  · exact hword _ _ (by decide) (by decide)
  · exact hword _ _ (by decide) (by decide)
  · exact hword _ _ (by decide) (by decide)
  · exact hword _ _ (by decide) (by decide)
  · exact hword _ _ (by decide) (by decide)
  · exact hpath
  · exact hname
  · exact hstring
  · exact hprivate

/-- Each rule finds nearby what it finds. -/
theorem local_rule : ∀ r ∈ rules, Local id r.length? :=
  forall_rules (p := fun _ f => Local id f) local_blank local_comment blind_number.local
    blind_longMark.local local_operator (blind_oneOf _).local (blind_oneOf _).local
    (fun _ ws _ _ => (blind_word ws).local) blind_methodPath.local blind_name.local local_string
    blind_privateName.local

/-- A choice of a single code point. -/
theorem Local.head {α : Type} {size : α → Nat} {f : Text → Option α} {a : α} (ha : size a ≤ 1)
    (hf : Local size f) (p : CodePoint → Bool) (b : Bool) :
    Local size fun t => if Lexeme.headIs p t && b then some a else f t := by
  refine ⟨fun {x y z} hx hslash hy hz hfy hfz => ?_, fun {x c} hc => ?_⟩
  · simp only [headIs_append p hx] at hfy hfz ⊢
    split
    · rfl
    · next hp =>
      simp only [hp] at hfy hfz
      exact hf.agree hx hslash hy hz hfy hfz
  · split at hc
    · next hp =>
      obtain rfl := Option.some.inj hc
      cases x with
      | nil => contradiction
      | cons c x => exact Nat.le_trans ha (Nat.succ_le_succ (Nat.zero_le _))
    · exact hf.le hc

/-- The first rule for code that finds something. -/
def byRules? (s : LexState) (t : Text) : Option Step :=
  rules.findSome? fun r =>
    if r.atWordStart && s.afterWord then none
    else (r.length? t).map fun n => ⟨r.kind, n, .code r.expectsOperand, s.interpolations⟩

/-- The rules for code together find nearby what they find. -/
theorem local_byRules (s : LexState) : Local Step.length (byRules? s) := by
  refine local_findSome fun r hr => ?_
  cases r.atWordStart && s.afterWord with
  | true => exact local_none
  | false => exact (local_rule r hr).map fun _ => rfl

/-- Behind an operand a brace may end an interpolation and a backtick may start a template; else the
rules decide. -/
theorem afterOperand_eq (t : Text) :
    Step.afterOperand? s t =
      if Lexeme.headIs (· == scalar '}') t && s.interpolations ≠ 0 then
        some ⟨.other, 1, .template, s.interpolations - 1⟩
      else if Lexeme.headIs (· == scalar '`') t && true then
        some ⟨.template, 1, .template, s.interpolations⟩
      else byRules? s t := by
  rw [Bool.and_true]
  rfl

/-- What is found behind an operand is found nearby. -/
theorem local_afterOperand (s : LexState) : Local Step.length (Step.afterOperand? s) := by
  have heq : Step.afterOperand? s = _ := funext afterOperand_eq
  rw [heq]
  refine Local.head ?_ (Local.head ?_ (local_byRules s) _ _) _ _
  · exact Nat.le_refl 1
  · exact Nat.le_refl 1

/-- In front of an operand blank space and comments are passed over, and a slash starts a regular
expression. -/
theorem beforeOperand_eq (t : Text) :
    Step.beforeOperand? s t =
      ((Lexeme.blank? t).map (fun n => ⟨.other, n, .code true, s.interpolations⟩) <|>
        (Lexeme.comment? t).map (fun n => ⟨.comment, n, .code true, s.interpolations⟩) <|>
        if Lexeme.headIs (· == scalar '/') t then
          (Lexeme.regularExpression? t).map fun n => ⟨.other, n, .code false, s.interpolations⟩
        else Step.afterOperand? s t) := by
  rw [Step.beforeOperand?]
  -- the first rule that finds something decides
  cases Lexeme.blank? t with
  | some n => rfl
  | none => cases Lexeme.comment? t <;> rfl

/-- A rule with the rest of its step filled in. -/
theorem Local.step {f : Text → Option Nat} (hf : Local id f) (kind : Kind) (mode : Mode) (k : Nat) :
    Local Step.length fun t => (f t).map fun n => ⟨kind, n, mode, k⟩ :=
  hf.map fun _ => rfl

/-- What is found in front of an operand is found nearby. -/
theorem local_beforeOperand (s : LexState) : Local Step.length (Step.beforeOperand? s) := by
  have heq : Step.beforeOperand? s = _ := funext beforeOperand_eq
  rw [heq]
  refine (local_blank.step _ _ _).orElse ((local_comment.step _ _ _).orElse ?_)
  exact Local.ite (fun hx _ => headIs_append _ hx _) (local_regularExpression.step _ _ _)
    (local_afterOperand s)

/-- Whether a text opens a line can be seen in front of a border. -/
theorem opensLine_border (hx : x ≠ []) (hy : Border y) :
    Step.opensLine (x ++ y) = Step.opensLine x := by
  -- The text starts with the mark just if it starts with it as a lexeme.
  have hpage : Text.startsWith (x ++ y) (Text.ofString "<!--")
      = Text.startsWith x (Text.ofString "<!--") := by
    have hfound := blind_pageComment.append hx hy
    rw [Lexeme.exactly?, Lexeme.exactly?] at hfound
    rw [Bool.eq_iff_iff]
    constructor
    · intro h
      rw [if_pos h] at hfound
      split at hfound
      · assumption
      · contradiction
    · intro h
      rw [if_pos h] at hfound
      split at hfound
      · assumption
      · contradiction
  rw [Step.opensLine, Step.opensLine, headIs_append _ hx, hpage]

/-- Behind an operand the first line of a program and the start of a line are looked at first. -/
theorem first_code (k : Nat) (previous : Option CodePoint) (t : Text) :
    Step.first? ⟨.code false, k, previous⟩ t =
      ((if previous.isNone then
          (Lexeme.shebang? t).map fun n => ⟨.comment, n, .code false, k⟩
        else none) <|>
        if LexState.atLineStart ⟨.code false, k, previous⟩ && Step.opensLine t then
          Step.beforeOperand? ⟨.code false, k, previous⟩ t
        else Step.afterOperand? ⟨.code false, k, previous⟩ t) := by
  rw [Step.first?]
  -- only at the beginning of a script there may be a line for the interpreter
  cases previous.isNone with
  | false => rfl
  | true => cases Lexeme.shebang? t <;> rfl

/-- The first token of a text depends on what follows a border only if it goes on there. -/
theorem local_first (s : LexState) : Local Step.length (Step.first? s) := by
  obtain ⟨mode, k, previous⟩ := s
  match mode with
  | .template => exact local_inTemplate _
  | .code true => exact local_beforeOperand _
  | .code false =>
    have heq : Step.first? ⟨.code false, k, previous⟩ = _ := funext (first_code k previous)
    rw [heq]
    refine Local.orElse ?_ (Local.ite (fun hx hy => ?_) (local_beforeOperand _)
      (local_afterOperand _))
    · cases previous.isNone with
      | false => exact local_none
      | true => exact local_shebang.step _ _ _
    · rw [opensLine_border hx hy]

/-! ## Blank space and comments -/

theorem head_of_blank {n : Nat} (h : Lexeme.blank? x = some n) :
    ∃ c rest, x = c :: rest ∧ c.isBlank = true := by
  obtain ⟨-, hpos⟩ := positive_eq_some.mp h
  cases x with
  | nil => contradiction
  | cons c x =>
    refine ⟨c, x, rfl, ?_⟩
    -- the run of blanks is not empty, so that it has a first code point
    cases hc : c.isBlank with
    | true => rfl
    | false =>
      rw [Text.spanLength_cons_of_neg hc] at hpos
      contradiction

/-- Blank space is all blanks up to the next other code point. -/
theorem blank_cons {c : CodePoint} (hc : c.isBlank = true) (x : Text) :
    Lexeme.blank? (c :: x) = some (spanLength CodePoint.isBlank (c :: x)) := by
  refine positive_eq_some.mpr ⟨rfl, ?_⟩
  rw [Text.spanLength_cons_of_pos hc]
  exact Nat.succ_pos _

/-- A comment starts with a slash or a less-than sign. -/
theorem head_of_comment {n : Nat} (h : Lexeme.comment? x = some n) :
    ∃ c rest, x = c :: rest ∧ (c = scalar '/' ∨ c = scalar '<') := by
  cases x with
  | nil => contradiction
  | cons c x =>
    refine ⟨c, x, rfl, ?_⟩
    -- a comment in code starts with a slash, and one of a page with an angle
    obtain ⟨rest, rfl, -⟩ | ⟨rest, rfl, -⟩ | hother := comment_cases c x
    · exact Or.inl rfl
    · exact Or.inl rfl
    · rw [comment_of_ne hother] at h
      obtain ⟨⟨rest, heq⟩, -⟩ := exactly_eq_some.mp h
      exact Or.inr (List.cons.inj heq).1.symm

/-- A border is neither a brace nor a backtick, so that the rules decide. -/
theorem afterOperand_of_border {c : CodePoint} (hc : c.isBorder = true) :
    Step.afterOperand? s (c :: x) = byRules? s (c :: x) := by
  have hhead {d : CodePoint} (hd : d.isBorder = false) :
      Lexeme.headIs (· == d) (c :: x) = false := by
    refine beq_false_of_ne fun heq => ?_
    rw [heq, hd] at hc
    contradiction
  rw [afterOperand_eq, hhead (by decide), hhead (by decide)]
  rfl

/-- In code the first token is found by one of two functions. -/
theorem first_of_code {b : Bool} (hs : s.mode = .code b)
    (hline : s.previous = none → Lexeme.shebang? x = none) :
    Step.first? s x = Step.beforeOperand? s x ∨
      b = false ∧ Step.first? s x = Step.afterOperand? s x := by
  obtain ⟨mode, k, previous⟩ := s
  obtain rfl : mode = .code b := hs
  cases b with
  | true => exact Or.inl rfl
  | false =>
    -- The text does not start with the first line of a script.
    have hnone : (if previous.isNone then
        (Lexeme.shebang? x).map fun n => (⟨.comment, n, .code false, k⟩ : Step) else none)
        = none := by
      cases previous with
      | none => rw [hline rfl]; rfl
      | some c => rfl
    rw [first_code, hnone]
    cases LexState.atLineStart ⟨.code false, k, previous⟩ && Step.opensLine x with
    | true => exact Or.inl rfl
    | false => exact Or.inr ⟨rfl, rfl⟩

/-- How blank space in code is read. Whether a slash may start a regular expression behind it
depends on where it starts. -/
theorem first_blank_eq {b : Bool} {n : Nat} (hs : s.mode = .code b)
    (h : Lexeme.blank? x = some n) :
    Step.first? s x = some ⟨.other, n, .code (b || s.atLineStart), s.interpolations⟩ := by
  obtain ⟨c, rest, rfl, hc⟩ := head_of_blank h
  have hborder : c.isBorder = true := by simp [CodePoint.isBorder, hc]
  have hnone : Lexeme.shebang? (c :: rest) = none :=
    shebang_of_ne (fun heq => by rw [heq] at hc; contradiction) rest
  -- Both functions find the blank space; they differ in the state behind it.
  have hbefore : Step.beforeOperand? s (c :: rest)
      = some ⟨.other, n, .code true, s.interpolations⟩ := by
    rw [beforeOperand_eq, h]
    rfl
  have hafter : Step.afterOperand? s (c :: rest)
      = some ⟨.other, n, .code false, s.interpolations⟩ := by
    rw [afterOperand_of_border hborder, byRules?, rules, List.findSome?_cons]
    simp [h]
  have hopens : Step.opensLine (c :: rest) = true := by simp [Step.opensLine, Lexeme.headIs, hc]
  obtain ⟨mode, k, previous⟩ := s
  obtain rfl : mode = .code b := hs
  cases b with
  | true => exact hbefore
  | false =>
    have hline : (if previous.isNone then
        (Lexeme.shebang? (c :: rest)).map fun n => (⟨.comment, n, .code false, k⟩ : Step) else none)
        = none := by
      rw [hnone]
      split <;> rfl
    rw [first_code, hline, hopens, Bool.and_true, Bool.false_or]
    cases LexState.atLineStart ⟨.code false, k, previous⟩ with
    | true => exact hbefore
    | false => exact hafter

/-- Blank space is found first in code. -/
theorem first_blank {b : Bool} {n : Nat} (hs : s.mode = .code b) (h : Lexeme.blank? x = some n) :
    ∃ b', (b = true → b' = true) ∧
      Step.first? s x = some ⟨.other, n, .code b', s.interpolations⟩ :=
  ⟨b || s.atLineStart, fun hb => by rw [hb, Bool.true_or], first_blank_eq hs h⟩

/-- Where there is no blank space, a comment is found first in code. -/
theorem first_comment {b : Bool} {n : Nat} (hs : s.mode = .code b)
    (hblank : Lexeme.blank? x = none) (h : Lexeme.comment? x = some n) :
    ∃ b', (b = true → b' = true) ∧
      Step.first? s x = some ⟨.comment, n, .code b', s.interpolations⟩ := by
  obtain ⟨c, rest, rfl, hc⟩ := head_of_comment h
  have hborder : c.isBorder = true := by obtain rfl | rfl := hc <;> decide
  have hne : c ≠ scalar '#' := by obtain rfl | rfl := hc <;> decide
  obtain hbefore | ⟨hb, hafter⟩ := first_of_code hs fun _ => shebang_of_ne hne rest
  · refine ⟨true, fun _ => rfl, ?_⟩
    rw [hbefore, beforeOperand_eq, hblank, h]
    rfl
  · refine ⟨false, fun htrue => by rw [hb] at htrue; contradiction, ?_⟩
    rw [hafter, afterOperand_of_border hborder, byRules?, rules,
      List.findSome?_cons, List.findSome?_cons]
    simp [hblank, h]

/-- What is neither blank space nor a comment and does not start with a slash is read alike after
an operand and before one. -/
theorem first_other {b : Bool} (hs : s.mode = .code b)
    (hline : s.previous = none → Lexeme.shebang? x = none) (hblank : Lexeme.blank? x = none)
    (hcomment : Lexeme.comment? x = none) (hslash : Lexeme.headIs (· == scalar '/') x = false) :
    Step.first? s x = Step.afterOperand? s x := by
  obtain hbefore | ⟨-, hafter⟩ := first_of_code hs hline
  · rw [hbefore, beforeOperand_eq, hblank, hcomment, hslash]
    rfl
  · exact hafter

/-- How the first line is read that starts with a number sign and an exclamation mark. -/
theorem first_shebang {n : Nat} (hmode : s.mode = .code false) (hstart : s.previous = none)
    (h : Lexeme.shebang? x = some n) :
    Step.first? s x = some ⟨.comment, n, .code false, s.interpolations⟩ := by
  obtain ⟨mode, k, previous⟩ := s
  obtain rfl : mode = .code false := hmode
  obtain rfl : previous = none := hstart
  rw [first_code, h]
  rfl

/-- What is found behind an operand depends on the interpolations and on whether a word comes
before. -/
theorem afterOperand_congr {s' : LexState} (hinter : s.interpolations = s'.interpolations)
    (hword : s.afterWord = s'.afterWord) (t : Text) :
    Step.afterOperand? s t = Step.afterOperand? s' t := by
  rw [afterOperand_eq, afterOperand_eq, byRules?, byRules?, hinter, hword]

/-- A text that is not a first line of its own is read alike at the start of a script and at the
start of a line. -/
theorem first_of_line {k : Nat} (h : Lexeme.shebang? x = none) :
    Step.first? ⟨.code false, k, none⟩ x = Step.first? ⟨.code false, k, some Text.newline⟩ x := by
  have hafter : Step.afterOperand? ⟨.code false, k, none⟩ x
      = Step.afterOperand? ⟨.code false, k, some Text.newline⟩ x := afterOperand_congr rfl rfl x
  have hbefore : Step.beforeOperand? ⟨.code false, k, none⟩ x
      = Step.beforeOperand? ⟨.code false, k, some Text.newline⟩ x := by
    rw [beforeOperand_eq, beforeOperand_eq, hafter]
  rw [first_code, first_code, hafter, hbefore, h]
  rfl

/-! ## Where a token comes from -/

/-- What the rules find is what one of them finds. -/
theorem byRules_cases {a : Step} (h : byRules? s x = some a) :
    ∃ r ∈ rules, r.length? x = some a.length ∧
      a = ⟨r.kind, a.length, .code r.expectsOperand, s.interpolations⟩ := by
  obtain ⟨r, hr, hfound⟩ := List.exists_of_findSome?_eq_some h
  split at hfound
  · contradiction
  · obtain ⟨n, hn, rfl⟩ := Option.map_eq_some_iff.mp hfound
    exact ⟨r, hr, hn, rfl⟩

/-- Behind an operand a brace, a backtick or a rule has been found. -/
theorem afterOperand_cases {a : Step} (h : Step.afterOperand? s x = some a) :
    (x.head? = some (scalar '}') ∧ a = ⟨.other, 1, .template, s.interpolations - 1⟩) ∨
      (x.head? = some (scalar '`') ∧ a = ⟨.template, 1, .template, s.interpolations⟩) ∨
      byRules? s x = some a := by
  have hhead {c : CodePoint} (hc : Lexeme.headIs (· == c) x = true) : x.head? = some c := by
    cases x with
    | nil => contradiction
    | cons d x => exact congrArg some (beq_iff_eq.mp hc)
  rw [afterOperand_eq] at h
  split at h
  · next hbrace =>
    exact Or.inl ⟨hhead (Bool.and_eq_true_iff.mp hbrace).1, (Option.some.inj h).symm⟩
  split at h
  · next hquote =>
    exact Or.inr (Or.inl ⟨hhead (Bool.and_eq_true_iff.mp hquote).1, (Option.some.inj h).symm⟩)
  · exact Or.inr (Or.inr h)

/-- In front of an operand blank space, a comment, a regular expression or what may stand behind an
operand has been found. -/
theorem beforeOperand_cases {a : Step} (h : Step.beforeOperand? s x = some a) :
    (∃ n, Lexeme.blank? x = some n ∧ a = ⟨.other, n, .code true, s.interpolations⟩) ∨
      Lexeme.blank? x = none ∧
        ((∃ n, Lexeme.comment? x = some n ∧ a = ⟨.comment, n, .code true, s.interpolations⟩) ∨
          Lexeme.comment? x = none ∧
            ((x.head? = some (scalar '/') ∧ ∃ n, Lexeme.regularExpression? x = some n ∧
                a = ⟨.other, n, .code false, s.interpolations⟩) ∨
              x.head? ≠ some (scalar '/') ∧ Step.afterOperand? s x = some a)) := by
  rw [beforeOperand_eq] at h
  cases hblank : Lexeme.blank? x with
  | some n =>
    rw [hblank] at h
    exact Or.inl ⟨n, rfl, (Option.some.inj h).symm⟩
  | none =>
    refine Or.inr ⟨rfl, ?_⟩
    cases hcomment : Lexeme.comment? x with
    | some n =>
      rw [hblank, hcomment] at h
      exact Or.inl ⟨n, rfl, (Option.some.inj h).symm⟩
    | none =>
      refine Or.inr ⟨rfl, ?_⟩
      rw [hblank, hcomment] at h
      cases x with
      | nil => exact Or.inr ⟨fun hhead => by contradiction, h⟩
      | cons c x =>
        by_cases hc : c = scalar '/'
        · subst hc
          obtain ⟨n, hn, rfl⟩ := Option.map_eq_some_iff.mp h
          exact Or.inl ⟨rfl, n, hn, rfl⟩
        · have hslash : Lexeme.headIs (· == scalar '/') (c :: x) = false := beq_false_of_ne hc
          rw [hslash] at h
          exact Or.inr ⟨fun hhead => hc (Option.some.inj hhead), h⟩

/-- In a template, text of the template or the start of an interpolation has been found. -/
theorem kind_of_inTemplate {a : Step} (h : Step.inTemplate? s x = some a) :
    a.kind = .template ∨ a.kind = .other := by
  rw [Step.inTemplate?.eq_def] at h
  split at h
  · obtain rfl := Option.some.inj h
    exact Or.inl rfl
  · obtain rfl := Option.some.inj h
    exact Or.inl rfl
  · obtain rfl := Option.some.inj h
    exact Or.inr rfl
  · obtain rfl := Option.some.inj h
    exact Or.inl rfl
  · obtain ⟨n, -, rfl⟩ := Option.map_eq_some_iff.mp h
    exact Or.inl rfl

/-- A template is left with a backtick, or for an interpolation. -/
theorem inTemplate_leaves {a : Step} (h : Step.inTemplate? s x = some a)
    (hmode : a.mode ≠ .template) :
    (x.head? = some (scalar '`') ∧ a.length = 1) ∨
      (∃ rest, x = scalar '$' :: scalar '{' :: rest) ∧ a.length = 2 := by
  rw [Step.inTemplate?.eq_def] at h
  split at h
  · obtain rfl := Option.some.inj h
    exact Or.inl ⟨rfl, rfl⟩
  · obtain rfl := Option.some.inj h
    contradiction
  · next rest =>
    obtain rfl := Option.some.inj h
    exact Or.inr ⟨⟨rest, rfl⟩, rfl⟩
  · obtain rfl := Option.some.inj h
    contradiction
  · obtain ⟨n, -, rfl⟩ := Option.map_eq_some_iff.mp h
    contradiction

/-- The first token in code is the first line, or it is found before or after an operand. -/
theorem first_cases {a : Step} (h : Step.first? s x = some a) :
    (s.mode = .template ∧ Step.inTemplate? s x = some a) ∨
      (∃ b, s.mode = .code b) ∧
        ((s.previous = none ∧ s.mode = .code false ∧ ∃ n, Lexeme.shebang? x = some n ∧
            a = ⟨.comment, n, .code false, s.interpolations⟩) ∨
          Step.beforeOperand? s x = some a ∨ Step.afterOperand? s x = some a) := by
  cases hs : s.mode with
  | template =>
    refine Or.inl ⟨rfl, ?_⟩
    rw [Step.first?, hs] at h
    exact h
  | code b =>
    refine Or.inr ⟨⟨b, rfl⟩, ?_⟩
    cases hline : Lexeme.shebang? x with
    | none =>
      obtain hbefore | ⟨-, hafter⟩ := first_of_code hs fun _ => hline
      · exact Or.inr (Or.inl (hbefore ▸ h))
      · exact Or.inr (Or.inr (hafter ▸ h))
    | some n =>
      -- Such a first line counts only at the very start, and not where an operand is due.
      obtain ⟨mode, k, previous⟩ := s
      obtain rfl : mode = .code b := hs
      cases b with
      | true => exact Or.inr (Or.inl h)
      | false =>
        rw [first_code, hline] at h
        cases previous with
        | none => exact Or.inl ⟨rfl, rfl, n, rfl, (Option.some.inj h).symm⟩
        | some c =>
          right
          cases hopens : LexState.atLineStart ⟨.code false, k, some c⟩ && Step.opensLine x with
          | true =>
            rw [hopens] at h
            exact Or.inl h
          | false =>
            rw [hopens] at h
            exact Or.inr h

/-- A token that is a comment was found as one, or is the first line. -/
theorem comment_of_kind {a : Step} (h : Step.first? s x = some a) (hkind : a.kind = .comment) :
    Lexeme.comment? x = some a.length ∨
      s.previous = none ∧ s.mode = .code false ∧ (Lexeme.shebang? x).isSome := by
  have hafter {a : Step} (h : Step.afterOperand? s x = some a) (hkind : a.kind = .comment) :
      Lexeme.comment? x = some a.length := by
    obtain ⟨-, rfl⟩ | ⟨-, rfl⟩ | hrules := afterOperand_cases h
    · contradiction
    · contradiction
    · obtain ⟨r, hr, hlength, ha⟩ := byRules_cases hrules
      have hrule : r.kind = .comment := by
        rw [ha] at hkind
        exact hkind
      -- Among the rules there is one for comments.
      have honly : ∀ r ∈ rules, r.kind = .comment → r.length? = Lexeme.comment? := by
        refine forall_rules (p := fun kind f => kind = .comment → f = Lexeme.comment?) ?_
          (fun _ => rfl) ?_ ?_ ?_ ?_ ?_ (fun kind ws hne _ hkind => absurd hkind hne) ?_ ?_ ?_ ?_
        all_goals exact fun hkind => by contradiction
      rw [← honly r hr hrule]
      exact hlength
  obtain ⟨-, htemplate⟩ | ⟨-, ⟨hstart, hmode, n, hline, -⟩ | hbefore | hfound⟩ := first_cases h
  · obtain hk | hk := kind_of_inTemplate htemplate <;> rw [hk] at hkind <;> contradiction
  · exact Or.inr ⟨hstart, hmode, by rw [hline]; rfl⟩
  · obtain ⟨n, -, rfl⟩ | ⟨-, ⟨n, hn, rfl⟩ | ⟨-, ⟨-, n, -, rfl⟩ | ⟨-, hfound⟩⟩⟩ :=
      beforeOperand_cases hbefore
    · contradiction
    · exact Or.inl hn
    · contradiction
    · exact Or.inl (hafter hfound hkind)
  · exact Or.inl (hafter hfound hkind)

/-- A semicolon is found by the rules as punctuation. -/
theorem byRules_semicolon :
    byRules? s (scalar ';' :: x) = some ⟨.punctuation, 1, .code true, s.interpolations⟩ := by
  rw [byRules?]
  cases s.afterWord <;> rfl

/-- A semicolon in code is a token of its own. -/
theorem first_semicolon_of_code {b : Bool} (hs : s.mode = .code b) :
    Step.first? s (scalar ';' :: x) = some ⟨.punctuation, 1, .code true, s.interpolations⟩ := by
  rw [first_other hs (fun _ => rfl) rfl rfl rfl, afterOperand_of_border rfl, byRules_semicolon]

/-- What is read as a semicolon stands in code. -/
theorem first_semicolon {a : Step} (h : Step.first? s (scalar ';' :: x) = some a)
    (hkind : a.kind = .punctuation) :
    (∃ b, s.mode = .code b) ∧ a = ⟨.punctuation, 1, .code true, s.interpolations⟩ := by
  obtain ⟨-, htemplate⟩ | ⟨⟨b, hcode⟩, -⟩ := first_cases h
  · obtain hk | hk := kind_of_inTemplate htemplate <;> rw [hk] at hkind <;> contradiction
  · rw [first_semicolon_of_code hcode] at h
    exact ⟨⟨b, hcode⟩, (Option.some.inj h).symm⟩

end Dialects.Script
