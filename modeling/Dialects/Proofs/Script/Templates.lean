import Dialects.Proofs.Script.Insertion
import Dialects.Proofs.Script.Supplied

/-!
# Semicolons in templates

Whether a place is in the text of a template literal can be told from the tokens in front of it
(`endsInTemplate`). A semicolon that is added there becomes part of the text. Everywhere else it is
a token of its own, and the tokens around it are read as before (`Lexed.supplied`).
-/

namespace Dialects.Script

open CodePoint (scalar)
open Canonical (Context)

variable {s s' : LexState} {t : Token} {ts : List Token} {ms : List (Token × Bool)} {c : Context}
  {a : Step} {rest : Text}

/-- Whether the place behind a token is in the text of a template, given whether the place in front
of it is. Such text ends with a backtick or where an interpolation starts; it starts with a backtick
or where an interpolation ends, with a brace that is no bracket. -/
def endsInTemplate (inside : Bool) (t : Token) : Bool :=
  if inside then !(t.spells "`" || t.spells "$\x7b")
  else t.kind == .template || (t.kind == .other && t.spells "\x7d")

/-! ## The mode of the lexer -/

theorem spells_backtick : t.spells "`" = true ↔ t.value = [scalar '`'] := beq_iff_eq

theorem spells_interpolation : t.spells "$\x7b" = true ↔ t.value = [scalar '$', scalar '\x7b'] :=
  beq_iff_eq

theorem spells_brace : t.spells "\x7d" = true ↔ t.value = [scalar '\x7d'] := beq_iff_eq

theorem value_of_length_one {x y : Text} {d : CodePoint} (h : x ++ y = d :: rest)
    (hlength : x.length = 1) : x = [d] := by
  obtain ⟨e, rfl⟩ := List.length_eq_one_iff.mp hlength
  rw [(List.cons.inj h).1]

/-- What a token in the text of a template leaves it with. -/
theorem template_of_text (h : Step.inTemplate? s (t.value ++ rest) = some a)
    (hlength : t.value.length = a.length - 1 + 1) :
    a.mode = .template ↔ t.value ≠ [scalar '`'] ∧ t.value ≠ [scalar '$', scalar '\x7b'] := by
  have hhead {d : CodePoint} {x : Text} (heq : t.value ++ rest = d :: x) :
      t.value.head? = some d := by
    obtain ⟨e, v, hv⟩ := List.exists_cons_of_ne_nil (ne_nil_of_length hlength)
    rw [hv] at heq ⊢
    exact congrArg some (List.cons.inj heq).1
  have hother {d : CodePoint} {x : Text} (heq : t.value ++ rest = d :: x) (hquote : d ≠ scalar '`')
      (hdollar : d = scalar '$' → t.value.length = 1) :
      t.value ≠ [scalar '`'] ∧ t.value ≠ [scalar '$', scalar '\x7b'] := by
    have hd := hhead heq
    refine ⟨fun hvalue => ?_, fun hvalue => ?_⟩
    · rw [hvalue] at hd
      exact hquote (Option.some.inj hd).symm
    · rw [hvalue] at hd hdollar
      have hone := hdollar (Option.some.inj hd).symm
      contradiction
  -- One case for each way in which the text of a template goes on: a backtick, an escape, an
  -- interpolation, a dollar sign and a run of plain code points.
  rw [Step.inTemplate?.eq_def] at h
  split at h
  · next x heq =>
    obtain rfl := Option.some.inj h
    exact iff_of_false (by simp) fun hno => hno.1 (value_of_length_one heq hlength)
  · next d x heq =>
    obtain rfl := Option.some.inj h
    exact iff_of_true rfl (hother heq (by decide) fun heq => absurd heq (by decide))
  · next x heq =>
    obtain rfl := Option.some.inj h
    obtain ⟨d, e, hvalue⟩ := List.length_eq_two.mp hlength
    rw [hvalue] at heq
    simp only [List.cons_append, List.nil_append, List.cons.injEq] at heq
    obtain ⟨rfl, rfl, -⟩ := heq
    exact iff_of_false (by simp) fun hno => hno.2 hvalue
  · next x _ heq =>
    obtain rfl := Option.some.inj h
    exact iff_of_true rfl (hother heq (by decide) fun _ => hlength)
  · obtain ⟨n, hn, rfl⟩ := Option.map_eq_some_iff.mp h
    obtain ⟨rfl, hpos⟩ := positive_eq_some.mp hn
    obtain ⟨d, x, heq⟩ : ∃ d x, t.value ++ rest = d :: x := by
      obtain ⟨d, v, hv⟩ := List.exists_cons_of_ne_nil (ne_nil_of_length hlength)
      exact ⟨d, v ++ rest, by rw [hv]; rfl⟩
    have hd : Lexeme.isPlainInTemplate d = true := by
      rw [heq] at hpos
      refine Bool.of_not_eq_false fun hno => ?_
      rw [Text.spanLength_cons_of_neg hno] at hpos
      contradiction
    simp only [Lexeme.isPlainInTemplate, Bool.and_eq_true, bne_iff_ne] at hd
    exact iff_of_true rfl (hother heq hd.1.1 fun hdollar => absurd hdollar hd.2)

theorem kind_ne_template : ∀ r ∈ rules, r.kind ≠ .template := by decide

/-- What a token in code leaves it with. -/
theorem template_of_code {b : Bool} (hs : s.mode = .code b)
    (h : Step.first? s (t.value ++ rest) = some a) (hlength : t.value.length = a.length - 1 + 1) :
    a.mode = .template ↔ a.kind = .template ∨ a.kind = .other ∧ t.value = [scalar '\x7d'] := by
  by_cases hbrace : t.value = [scalar '\x7d']
  · -- A closing brace ends an interpolation if one is open, and is a bracket otherwise.
    rw [hbrace, List.singleton_append,
      first_other hs (fun _ => shebang_of_ne (by decide) _) rfl rfl rfl] at h
    have hrules : byRules? s (scalar '\x7d' :: rest)
        = some ⟨.punctuation, 1, .code false, s.interpolations⟩ := by
      rw [byRules?]
      cases s.afterWord <;> rfl
    obtain ⟨-, rfl⟩ | ⟨hquote, -⟩ | hfound := afterOperand_cases h
    · exact iff_of_true rfl (Or.inr ⟨rfl, hbrace⟩)
    · exact absurd (Option.some.inj hquote) (by decide)
    · rw [hrules] at hfound
      obtain rfl := Option.some.inj hfound
      exact iff_of_false (by simp) (by simp)
  · -- Nothing else leads into a template but a backtick.
    have hcode {b' : Bool} (hmode : a.mode = .code b') (hkind : a.kind ≠ .template) :
        a.mode = .template ↔ a.kind = .template ∨ a.kind = .other ∧ t.value = [scalar '\x7d'] := by
      rw [hmode]
      exact iff_of_false (by simp) fun hor => hor.elim hkind fun hother => hbrace hother.2
    have hafter (h : Step.afterOperand? s (t.value ++ rest) = some a) :
        a.mode = .template ↔ a.kind = .template ∨ a.kind = .other ∧ t.value = [scalar '\x7d'] := by
      obtain ⟨hhead, rfl⟩ | ⟨-, rfl⟩ | hfound := afterOperand_cases h
      · -- The end of an interpolation is a brace, which was excluded.
        obtain ⟨x, heq⟩ := List.head?_eq_some_iff.mp hhead
        exact absurd (value_of_length_one heq hlength) hbrace
      · exact iff_of_true rfl (Or.inl rfl)
      · obtain ⟨r, hr, -, ha⟩ := byRules_cases hfound
        rw [ha] at hcode ⊢
        exact hcode rfl (kind_ne_template r hr)
    obtain ⟨htemplate, -⟩ | ⟨-, ⟨-, -, n, -, rfl⟩ | hbefore | hfound⟩ := first_cases h
    · rw [hs] at htemplate
      contradiction
    · exact hcode rfl (by simp)
    · obtain ⟨n, -, rfl⟩ | ⟨-, ⟨n, -, rfl⟩ | ⟨-, ⟨-, n, -, rfl⟩ | ⟨-, hfound⟩⟩⟩ :=
        beforeOperand_cases hbefore
      · exact hcode rfl (by simp)
      · exact hcode rfl (by simp)
      · exact hcode rfl (by simp)
      · exact hafter hfound
    · exact hafter hfound

/-- The tokens tell where the text of a template is. -/
theorem endsInTemplate_iff (h : Step.first? s (t.value ++ rest) = some a) (hkind : t.kind = a.kind)
    (hlength : t.value.length = a.length - 1 + 1) :
    endsInTemplate (s.mode = .template) t = decide (a.mode = .template) := by
  rw [Bool.eq_iff_iff, decide_eq_true_iff]
  -- in a template and in code the text is entered and left by different tokens
  cases hs : s.mode with
  | template =>
    rw [Step.first?, hs] at h
    rw [template_of_text h hlength, endsInTemplate, if_pos (by simp), Bool.not_eq_true',
      Bool.or_eq_false_iff, ← Bool.not_eq_true, ← Bool.not_eq_true, spells_backtick,
      spells_interpolation]
  | code b =>
    rw [template_of_code hs h hlength, endsInTemplate, if_neg (by simp), Bool.or_eq_true,
      Bool.and_eq_true, beq_iff_eq, beq_iff_eq, spells_brace, hkind]

/-! ## Where semicolons are added -/

/-- Whether no semicolon is added in the text of a template, given whether the tokens start in such
text. -/
def sparesTemplates (c : Context) (inside : Bool) : List Token → Bool
  | [] => true
  | t :: ts =>
    !(lacks c t ts && endsInTemplate inside t) &&
      sparesTemplates (advance c t ts) (endsInTemplate inside t) ts

/-- What a line that ends goes on with is a gap. -/
theorem gap_of_line (h : Lexed s ts) (hs : s.previous ≠ none) (hends : Token.lineEnds ts = true) :
    Gap (Token.join ts) := by
  -- The case of `gap_of_lineEnds` in which nothing is left out.
  have hwhole : whole (ts.map (·, false)) = ts := by simp [whole, Function.comp_def]
  have hremaining : remaining (ts.map (·, false)) = ts := by
    simp [remaining, List.filter_map, Function.comp_def]
  have hsound : Sound (ts.map (·, false)) := by
    clear h hends hwhole hremaining
    induction ts with
    | nil => trivial
    | cons t ts ih => exact ⟨fun hdropped => by contradiction, ih⟩
  have hgap := gap_of_lineEnds (hwhole.symm ▸ h) hsound hs (hwhole.symm ▸ hends)
  rw [hremaining] at hgap
  exact hgap

/-- Behind the stem there is a semicolon that is added, or nothing. -/
theorem behind_supplied (h : Lexed s ts) (c : Context) :
    behind (supplied c ts) = [] ∨
      ∃ r, Token.join (whole (behind (supplied c ts))) = scalar ';' :: r ∧
        Gap (Token.join (remaining (behind (supplied c ts)))) := by
  induction ts generalizing s c with
  | nil => exact Or.inl rfl
  | cons t ts ih =>
    obtain ⟨a, -, -, length, rest⟩ := h.split_cons
    cases hlacks : lacks c t ts with
    | true =>
      rw [supplied_of_lacks hlacks]
      refine Or.inr ⟨_, rfl, ?_⟩
      show Gap (Token.join (remaining (supplied _ ts)))
      rw [remaining_supplied]
      exact gap_of_line rest (getLast_ne_none (ne_nil_of_length length)) (lineEnds_of_lacks hlacks)
    | false =>
      rw [supplied_of_complete hlacks]
      exact ih rest _

/-- Two code points in a row that are not the one between two texts come from one of them. -/
theorem infix_of_ne {d e f : CodePoint} {x y : Text} (hd : d ≠ f) (he : e ≠ f)
    (h : [d, e] <:+: x ++ f :: y) : [d, e] <:+: x ∨ [d, e] <:+: y := by
  induction x with
  | nil =>
    obtain hhead | hrest := List.infix_cons_iff.mp h
    · exact absurd (List.cons_prefix_cons.mp hhead).1 hd
    · exact Or.inr hrest
  | cons g x ih =>
    rw [List.cons_append, List.infix_cons_iff] at h
    obtain hhead | hrest := h
    · obtain ⟨rfl, htail⟩ := List.cons_prefix_cons.mp hhead
      cases x with
      | nil => exact absurd (List.cons_prefix_cons.mp htail).1 he
      | cons k x =>
        obtain ⟨rfl, -⟩ := List.cons_prefix_cons.mp htail
        exact Or.inl ⟨[], x, rfl⟩
    · obtain hleft | hright := ih hrest
      · exact Or.inl (List.infix_cons_iff.mpr (Or.inr hleft))
      · exact Or.inr hright

/-- What closes a comment does so without the semicolons as well. -/
theorem infix_remaining (hsound : Sound ms) {p : Text}
    (h : [scalar '*', scalar '/'] <:+: p ++ Token.join (whole ms)) :
    [scalar '*', scalar '/'] <:+: p ++ Token.join (remaining ms) := by
  induction ms generalizing p with
  | nil => exact h
  | cons m ms ih =>
    obtain ⟨t, dropped⟩ := m
    cases dropped with
    | true =>
      -- The two code points are on the same side of the semicolon.
      obtain ⟨-, hvalue⟩ := isSemicolon_iff.mp (hsound.1 rfl).1
      rw [whole_cons, join_cons, hvalue] at h
      obtain hleft | hright := infix_of_ne (by decide) (by decide) h
      · exact hleft.trans (List.infix_append [] p _)
      · have hrest := ih hsound.2 (p := []) hright
        rw [List.nil_append] at hrest
        exact hrest.trans ⟨p, [], List.append_nil _⟩
    | false =>
      rw [whole_cons, join_cons, ← List.append_assoc] at h
      rw [remaining_kept, join_cons, ← List.append_assoc]
      exact ih hsound.2 h

/-- A semicolon comes next only if it is the one behind this token. -/
theorem lacks_of_stem (h : Lexed s (t :: ts)) (hms : supplied c (t :: ts) = (t, false) :: ms)
    (hbehind : behind ms ≠ []) (hnil : stem ms = []) : lacks c t ts = true := by
  refine Bool.of_not_eq_false fun hlacks => ?_
  -- were none lacking, the next token would be one of the script, which is not empty
  obtain rfl := (List.cons.inj (hms.symm.trans (supplied_of_complete hlacks))).2
  obtain ⟨a, -, -, -, rest⟩ := h.split_cons
  cases ts with
  | nil => exact hbehind rfl
  | cons u us =>
    obtain ⟨b, -, -, length, -⟩ := rest.split_cons
    obtain ⟨ms', heq, -⟩ := supplied_cons (advance c t (u :: us)) u us
    rw [heq, stem_kept] at hnil
    exact ne_nil_of_length length (List.append_eq_nil_iff.mp hnil).1

/-- No semicolon is added behind a backslash, which would be an operator there. -/
theorem stem_ne_backslash (hfirst : Step.first? s (stem ((t, false) :: ms) ++ rest) = some a)
    (hkind : t.kind = a.kind) (hlength : t.value.length = a.length - 1 + 1) (hrest : Border rest)
    (hlast : stem ms = [] → lacks c t ts = true) : stem ((t, false) :: ms) ≠ [scalar '\\'] := by
  intro hslash
  have hle : a.length ≤ 1 := by
    have hone := congrArg List.length hslash
    rw [stem_kept, List.length_append, List.length_singleton] at hone
    omega
  rw [hslash] at hfirst
  have hoperator : t.kind = .operator := hkind.trans (kind_of_backslash hfirst hle hrest)
  obtain ⟨d, value, hvalue⟩ := List.exists_cons_of_ne_nil (ne_nil_of_length hlength)
  rw [stem_kept, hvalue, List.cons_append] at hslash
  obtain ⟨rfl, hempty⟩ := List.cons.inj hslash
  obtain ⟨rfl, hnil⟩ := List.append_eq_nil_iff.mp hempty
  have hawaits := awaitsOperand_of_operator hoperator (hvalue ▸ by decide)
  rw [complete_of_lacks (hlast hnil)] at hawaits
  contradiction

/-- A token is still the first one when semicolons are added, unless one would be added in the text
of a template that the token belongs to. -/
theorem first_supplied (h : Lexed s' (t :: ts))
    (hfirst : Step.first? s (t.value ++ Token.join ts) = some a) (hkind : t.kind = a.kind)
    (hlength : t.value.length = a.length - 1 + 1)
    (hmode : lacks c t ts = true → a.mode ≠ .template)
    (hms : supplied c (t :: ts) = (t, false) :: ms) :
    Step.first? s (t.value ++ Token.join (whole ms)) = some a := by
  have hwhole : t.value ++ Token.join (whole ms)
      = stem ((t, false) :: ms) ++ Token.join (whole (behind ms)) := join_whole ((t, false) :: ms)
  have hremaining : t.value ++ Token.join ts
      = stem ((t, false) :: ms) ++ Token.join (remaining (behind ms)) := by
    have hjoin := join_remaining ((t, false) :: ms)
    rw [← hms, remaining_supplied, hms] at hjoin
    exact hjoin
  rw [hremaining] at hfirst
  rw [hwhole]
  have hbehind := behind_supplied h c
  rw [hms] at hbehind
  obtain hnil | ⟨r, hr, hgap⟩ := hbehind
  · have hnil' : behind ms = [] := hnil
    rw [hnil'] at hfirst ⊢
    exact hfirst
  · have hr' : Token.join (whole (behind ms)) = scalar ';' :: r := hr
    rw [hr']
    have hlast : stem ms = [] → lacks c t ts = true := lacks_of_stem h hms fun hnil => by
      rw [hnil] at hr'
      contradiction
    have hslash := stem_ne_backslash hfirst hkind hlength hgap.border hlast
    refine first_inserted hfirst ?_ ?_ hslash hgap.border (fun heq => ?_) fun v hv hclosed => ?_
    · rw [stem_kept, List.length_append]
      omega
    · rw [stem_kept]
      exact List.append_ne_nil_of_left_ne_nil (ne_nil_of_length hlength) _
    · -- The semicolon comes next: this token is significant and leaves the lexer in code.
      have hnil : stem ms = [] := by
        refine List.eq_nil_of_length_eq_zero ?_
        rw [stem_kept, List.length_append] at heq
        omega
      refine ⟨fun hcomment => ?_, hmode (hlast hnil)⟩
      have hsignificant := (lacks_iff.mp (hlast hnil)).1
      rw [insignificant_iff.mpr (Or.inr (hkind.trans hcomment))] at hsignificant
      contradiction
    · rw [blockLength_isSome, ← hr'] at hclosed
      rw [blockLength_isSome]
      have hsound := sound_supplied c (t :: ts)
      rw [hms] at hsound
      exact infix_remaining (sound_behind hsound.2) hclosed

/-- A lexer that misses an added semicolon in code is adrift behind the token in front of it. -/
theorem adrift_of_lacks {b : Bool} (hlacks : lacks c t ts = true)
    (hlength : t.value.length = a.length - 1 + 1) (hcode : a.mode = .code b) :
    Adrift (a.after t.value).afterSemicolon (a.after t.value) ts :=
  adrift_of_lineEnds ⟨b, hcode⟩ (getLast_ne_none (ne_nil_of_length hlength))
    (lineEnds_of_lacks hlacks) (next_of_lacks hlacks)

/-- Where no semicolon is added in the text of a template, the tokens of the canonical text are
those of the script and the semicolons. -/
theorem Lexed.supplied (h : Lexed s' ts)
    (hspares : sparesTemplates c (s'.mode = .template) ts = true) (hfollows : Follows s s' ts) :
    Lexed s (whole (supplied c ts)) := by
  -- The state `s'` is that of the lexer without the semicolons, `s` that of the lexer with them.
  induction ts generalizing s s' c with
  | nil => exact .nil
  | cons t ts ih =>
    obtain ⟨a', first', kind', length', rest'⟩ := h.split_cons
    obtain ⟨a, first, hkind, hlength, hsame, hnext⟩ := hfollows.first_back first' kind' length'
    have kind : t.kind = a.kind := kind'.trans hkind
    have length : t.value.length = a.length - 1 + 1 := hlength ▸ length'
    rw [sparesTemplates, endsInTemplate_iff first' kind' length', Bool.and_eq_true] at hspares
    obtain ⟨hplace, hspares⟩ := hspares
    have hcode (hlacks : lacks c t ts = true) : ∃ b, a'.mode = .code b := by
      cases hmode : a'.mode with
      | code b => exact ⟨b, rfl⟩
      | template =>
        rw [hlacks, hmode] at hplace
        contradiction
    obtain ⟨ms, hms, -⟩ := supplied_cons c t ts
    have hfirst : Step.first? s (t.value ++ Token.join (whole ms)) = some a := by
      refine first_supplied h first kind length (fun hlacks => ?_) hms
      obtain ⟨b, hb⟩ := hcode hlacks
      rw [← hsame (lacks_iff.mp hlacks).1, hb]
      exact fun hmode => by contradiction
    cases hlacks : lacks c t ts with
    | false =>
      rw [supplied_of_complete hlacks] at hms ⊢
      obtain rfl := (List.cons.inj hms).2
      exact .cons hfirst kind length (ih rest' hspares hnext)
    | true =>
      -- The token is significant, so that both are in the same state until the semicolon is missed.
      obtain rfl := hsame (lacks_iff.mp hlacks).1
      obtain ⟨b, hb⟩ := hcode hlacks
      rw [supplied_of_lacks hlacks] at hms ⊢
      obtain rfl := (List.cons.inj hms).2
      refine .cons hfirst kind length (.cons (first_semicolon_of_code hb) rfl rfl ?_)
      exact ih rest' hspares (Or.inr (adrift_of_lacks hlacks length' hb))

/-- If the added semicolons are tokens of the canonical text, none is in the text of a template. -/
theorem Lexed.sparesTemplates (h : Lexed s (whole (Script.supplied c ts))) :
    sparesTemplates c (s.mode = .template) ts = true := by
  induction ts generalizing s c with
  | nil => rfl
  | cons t ts ih =>
    cases hlacks : lacks c t ts with
    | false =>
      rw [supplied_of_complete hlacks] at h
      obtain ⟨a, first, kind, length, rest⟩ := h.split
      rw [Script.sparesTemplates, hlacks, endsInTemplate_iff first kind length, Bool.false_and,
        Bool.not_false, Bool.true_and]
      exact ih rest
    | true =>
      -- What is read as a semicolon behind the token stands in code.
      rw [supplied_of_lacks hlacks] at h
      obtain ⟨a, first, kind, length, rest⟩ := h.split
      obtain ⟨⟨b, hb⟩, hrest⟩ := rest.of_semicolon rfl
      have hmode : a.mode = .code b := hb
      have hspares := ih hrest
      rw [Script.sparesTemplates, endsInTemplate_iff first kind length, hlacks, hmode]
      exact hspares

end Dialects.Script
