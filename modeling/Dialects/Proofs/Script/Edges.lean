import Dialects.Proofs.Script.Steps

/-!
# Tokens in front of a semicolon

What stands in front of a semicolon that is left out is read as before, unless it is blank, or is
joined with a slash or an angle bracket behind the semicolon.
-/

namespace Dialects.Script

open CodePoint (scalar)
open Text (Stops spanLength)

variable {x y z t : Text} {s : LexState} {a : Step}

/-- What may follow a semicolon that is left out: blank space, a comment or nothing. -/
structure Gap (z : Text) : Prop where
  head : ∀ c ∈ z.head?, c.isBlank = true ∨ c = scalar '/' ∨ c = scalar '<'
  brace : ∀ rest, z ≠ scalar ' ' :: scalar '{' :: rest

theorem Gap.border (hz : Gap z) : Border z := by
  refine ⟨fun c hc => ?_, hz.brace⟩
  obtain hblank | rfl | rfl := hz.head c hc
  · simp [CodePoint.isBorder, hblank]
  · rfl
  · rfl

theorem Gap.ne_star (hz : Gap z) : z.head? ≠ some (scalar '*') := by
  intro hstar
  obtain hblank | hmark | hmark := hz.head _ hstar <;> contradiction

theorem Gap.ne_semicolon (hz : Gap z) : z.head? ≠ some (scalar ';') := by
  intro hsemicolon
  obtain hblank | hmark | hmark := hz.head _ hsemicolon <;> contradiction

/-- A gap does not look like the first line of a program. -/
theorem Gap.shebang (hz : Gap z) : Lexeme.shebang? z = none := by
  cases z with
  | nil => rfl
  | cons c z =>
    refine shebang_of_ne ?_ z
    rintro rfl
    obtain hc | hc | hc := hz.head _ rfl <;> contradiction

theorem border_semicolon (t : Text) : Border (scalar ';' :: t) := by
  refine ⟨fun c hc => ?_, fun rest heq => ?_⟩
  · obtain rfl := Option.some.inj hc
    rfl
  · have hhead := (List.cons.inj heq).1
    contradiction

/-! ## Marks that start no token -/

/-- The rules find nothing where none of them does. -/
theorem byRules_none (h : ∀ r ∈ rules, r.length? x = none) : byRules? s x = none := by
  rw [byRules?, List.findSome?_eq_none_iff]
  intro r hr
  rw [h r hr]
  split <;> rfl

/-- A mark is no word of a list. -/
theorem word_of_mark {c : CodePoint} (hc : c.isWord = false) {ws : List Text} (hws : [] ∉ ws) :
    Lexeme.word? ws (c :: t) = none := by
  rw [Lexeme.word?, List.takeWhile_cons, hc]
  exact if_neg fun hmem => hws (List.contains_iff_mem.mp hmem)

/-- Only a backslash starts an escaped code point. -/
theorem escaped_of_mark {c : CodePoint} (hc : c ≠ scalar '\\') :
    Lexeme.escapedLength (c :: t) = 0 := by
  rw [Lexeme.escapedLength]
  rintro d e f g rest heq
  exact hc (List.cons.inj heq).1

/-- A mark that starts no name is no name. -/
theorem name_of_mark {c : CodePoint} (hc : c.startsName = false)
    (hescape : Lexeme.escapedLength (c :: t) = 0) : Lexeme.name? (c :: t) = none := by
  have hhead : Lexeme.headIs CodePoint.startsName (c :: t) = false := hc
  rw [Lexeme.name?, hescape, hhead]
  rfl

/-- A backslash in front of a semicolon is no lexeme. -/
theorem byRules_backslash : byRules? s (scalar '\\' :: scalar ';' :: t) = none := by
  refine byRules_none (forall_rules (p := fun _ f => f (scalar '\\' :: scalar ';' :: t) = none) rfl
    rfl rfl rfl rfl rfl rfl ?_ rfl ?_ rfl rfl)
  · exact fun _ ws _ hws => word_of_mark (by decide) hws
  · exact name_of_mark (by decide +kernel) rfl

/-- A hash mark in front of an exclamation mark is no lexeme. -/
theorem byRules_hash : byRules? s (scalar '#' :: scalar '!' :: t) = none := by
  refine byRules_none (forall_rules (p := fun _ f => f (scalar '#' :: scalar '!' :: t) = none) rfl
    rfl rfl rfl rfl rfl rfl ?_ rfl ?_ rfl rfl)
  · exact fun _ ws _ hws => word_of_mark (by decide) hws
  · exact name_of_mark (by decide +kernel) (escaped_of_mark (by decide))

/-- Nothing but a string starts with a quotation mark. -/
theorem byRules_quote {mark : Char} (hmark : mark = '"' ∨ mark = '\'')
    (h : byRules? s (scalar mark :: t) = some a) :
    Lexeme.string? (scalar mark :: t) = some a.length := by
  -- Neither a name nor a word starts with one, and the other rules look at the first code point.
  have hname : Lexeme.name? (scalar mark :: t) = none := by
    refine name_of_mark ?_ (escaped_of_mark ?_)
    · obtain rfl | rfl := hmark <;> decide +kernel
    · obtain rfl | rfl := hmark <;> decide
  have hword (ws : List Text) (hws : [] ∉ ws) : Lexeme.word? ws (scalar mark :: t) = none := by
    refine word_of_mark ?_ hws
    obtain rfl | rfl := hmark <;> decide
  have hrest : ∀ r ∈ rules, r.length? (scalar mark :: t) = none ∨
      r.length? (scalar mark :: t) = Lexeme.string? (scalar mark :: t) := by
    refine forall_rules (p := fun _ f => f (scalar mark :: t) = none ∨
      f (scalar mark :: t) = Lexeme.string? (scalar mark :: t)) ?_ ?_ ?_ ?_ ?_ ?_ ?_
      (fun _ ws _ hws => Or.inl (hword ws hws)) ?_ (Or.inl hname) (Or.inr rfl) ?_
    all_goals obtain rfl | rfl := hmark <;> exact Or.inl rfl
  obtain ⟨r, hr, hlength, -⟩ := byRules_cases h
  obtain hnone | hstring := hrest r hr
  · rw [hnone] at hlength
    contradiction
  · rw [← hstring]
    exact hlength

/-! ## An asterisk in front of a semicolon -/

/-- A run that ends with the text in front of a code point does not go on with it. -/
theorem eq_false_of_spanLength_eq {p : CodePoint → Bool} {u w : Text} {c : CodePoint}
    (h : spanLength p (u ++ c :: w) = u.length) : p c = false := by
  induction u with
  | nil =>
    cases hc : p c with
    | false => rfl
    | true =>
      rw [List.nil_append, Text.spanLength_cons_of_pos hc] at h
      contradiction
  | cons d u ih =>
    cases hd : p d with
    | true =>
      rw [List.cons_append, Text.spanLength_cons_of_pos hd, List.length_cons] at h
      exact ih (Nat.succ.inj h)
    | false =>
      rw [List.cons_append, Text.spanLength_cons_of_neg hd, List.length_cons] at h
      contradiction

/-- A run that goes on behind the text in front of a code point holds that one. -/
theorem eq_true_of_lt_spanLength {p : CodePoint → Bool} {u w : Text} {c : CodePoint}
    (h : u.length < spanLength p (u ++ c :: w)) : p c = true := by
  induction u with
  | nil =>
    cases hc : p c with
    | true => rfl
    | false =>
      rw [List.nil_append, Text.spanLength_cons_of_neg hc] at h
      contradiction
  | cons d u ih =>
    cases hd : p d with
    | true =>
      rw [List.cons_append, Text.spanLength_cons_of_pos hd, List.length_cons] at h
      exact ih (Nat.lt_of_succ_lt_succ h)
    | false =>
      rw [List.cons_append, Text.spanLength_cons_of_neg hd] at h
      contradiction

/-- The rule finds no lexeme that ends with an asterisk in front of a semicolon. -/
def Starless (f : Text → Option Nat) : Prop :=
  ∀ z t : Text, f (z ++ scalar '*' :: scalar ';' :: t) ≠ some (z.length + 1)

/-- A rule that does not look beyond a border and takes no asterisk alone finds no lexeme that ends
with one there. -/
theorem Blind.starless {f : Text → Option Nat} (hf : Blind f) (hstar : f [scalar '*'] = none) :
    Starless f := by
  intro z t h
  cases z with
  | nil =>
    have hone : f ([scalar '*'] ++ scalar ';' :: t) = f [scalar '*'] :=
      hf.append (List.cons_ne_nil _ _) (border_semicolon t)
    rw [hstar] at hone
    rw [List.nil_append] at h
    exact Option.some_ne_none _ (h.symm.trans hone)
  | cons c z =>
    -- An asterisk is not blank, so that the rest of the text is a border behind `z`.
    have hborder : Border (scalar '*' :: scalar ';' :: t) := by
      refine ⟨fun d hd => ?_, fun rest heq => ?_⟩
      · obtain rfl := Option.some.inj hd
        rfl
      · have hhead := (List.cons.inj heq).1
        contradiction
    rw [hf.append (List.cons_ne_nil _ _) hborder] at h
    have hle := hf.le h
    omega

theorem starless_blank : Starless Lexeme.blank? := by
  intro z t h
  obtain ⟨hlength, -⟩ := positive_eq_some.mp h
  have hblank : (scalar '*').isBlank = true :=
    eq_true_of_lt_spanLength (u := z) (by rw [hlength]; exact Nat.lt_succ_self _)
  contradiction

/-- A line does not end with an asterisk if its lead holds none and a semicolon follows. -/
theorem starless_line {lead : Text} (hlead : scalar '*' ∉ lead) : Starless (lineAfter? lead) := by
  intro z t h
  obtain ⟨hstarts, hlength⟩ := lineAfter_eq_some.mp h
  -- A lead that went on behind `z` would hold the asterisk.
  have hlong : lead.length ≤ z.length := by
    refine Decidable.byContradiction fun hgt => hlead ?_
    have hfront : z ++ [scalar '*'] <+: z ++ scalar '*' :: scalar ';' :: t :=
      ⟨scalar ';' :: t, by rw [List.append_assoc]; rfl⟩
    have hstar : z ++ [scalar '*'] <+: lead := by
      refine List.prefix_of_prefix_length_le hfront hstarts ?_
      rw [List.length_append, List.length_singleton]
      omega
    exact hstar.subset (List.mem_append_right z List.mem_cons_self)
  rw [List.drop_append_of_le_length hlong, Lexeme.lineLength,
    show z.drop lead.length ++ scalar '*' :: scalar ';' :: t
      = (z.drop lead.length ++ [scalar '*']) ++ scalar ';' :: t by rw [List.append_assoc]; rfl]
    at hlength
  -- The line would end in front of the semicolon.
  have hfeed := eq_false_of_spanLength_eq (p := (· ≠ Text.newline)) (w := t) (c := scalar ';')
    (u := z.drop lead.length ++ [scalar '*'])
    (by rw [List.length_append, List.length_drop, List.length_singleton]; omega)
  contradiction

/-- A lexeme that ends with another code point does not end with an asterisk. -/
theorem star_eq {u v : Text} {c : CodePoint} (h : z ++ scalar '*' :: t = u ++ c :: v)
    (hlength : z.length = u.length) : c = scalar '*' :=
  (List.cons.inj (List.append_inj h hlength).2).1.symm

theorem starless_string : Starless Lexeme.string? := by
  intro z t h
  obtain ⟨mark, rest, m, hmark, heq, hm, hlength⟩ := string_eq_some h
  obtain ⟨v, w, rfl, rfl⟩ := quotedLength_closes hm
  have hstar : scalar mark = scalar '*' := by
    refine star_eq (u := scalar mark :: v) heq ?_
    rw [List.length_cons]
    omega
  obtain rfl | rfl := hmark <;> contradiction

theorem starless_comment : Starless Lexeme.comment? := by
  intro z t h
  obtain ⟨c, x, heq⟩ : ∃ c x, z ++ scalar '*' :: scalar ';' :: t = c :: x := by
    cases z with
    | nil => exact ⟨_, _, rfl⟩
    | cons c z => exact ⟨_, _, rfl⟩
  rw [heq] at h
  obtain ⟨rest, rfl, rfl⟩ | ⟨rest, rfl, rfl⟩ | hother := comment_cases c x
  · -- A comment up to the end of the line.
    have hline : lineAfter? [scalar '/', scalar '/'] (z ++ scalar '*' :: scalar ';' :: t)
        = some (z.length + 1) := by
      rw [heq]
      exact h
    exact starless_line (by decide) z t hline
  · -- A comment that is closed ends with a slash.
    obtain ⟨m, hm, hlength⟩ := Option.map_eq_some_iff.mp h
    obtain ⟨v, w, rfl, rfl⟩ := blockLength_closes hm
    have hstar : scalar '/' = scalar '*' := by
      have hsplit : z ++ scalar '*' :: scalar ';' :: t
          = (scalar '/' :: scalar '*' :: v ++ [scalar '*']) ++ scalar '/' :: w := by
        rw [heq, List.append_assoc]
        rfl
      refine star_eq hsplit ?_
      rw [List.length_append, List.length_cons, List.length_cons, List.length_singleton]
      omega
    contradiction
  · -- The mark of a web page ends with a dash.
    rw [comment_of_ne hother, exactly_eq_some] at h
    obtain ⟨⟨w, hw⟩, hlength⟩ := h
    have hstar : scalar '-' = scalar '*' := by
      refine star_eq (u := [scalar '<', scalar '!', scalar '-']) (v := w) (heq.trans hw.symm) ?_
      exact (Nat.succ.inj hlength).symm
    contradiction

theorem starless_regularExpression : Starless Lexeme.regularExpression? := by
  intro z t h
  obtain ⟨rest, m, k, heq, -, hm, hk, hlength⟩ := regularExpression_eq_some h
  obtain ⟨v, w, rfl, rfl⟩ := patternLength_closes hm
  -- The flags stand behind the slash that closes the pattern.
  have hflags : (v ++ scalar '/' :: w).drop (v.length + 1) = w := by
    rw [show v ++ scalar '/' :: w = (v ++ [scalar '/']) ++ w by rw [List.append_assoc]; rfl,
      List.drop_left' (by rw [List.length_append, List.length_singleton])]
  rw [hflags] at hk
  cases k with
  | zero =>
    -- Without flags the last code point is that slash.
    have hstar : scalar '/' = scalar '*' := by
      refine star_eq (u := scalar '/' :: v) (v := w) heq ?_
      rw [List.length_cons]
      omega
    contradiction
  | succ k =>
    -- The asterisk would have to be one of the flags.
    have hrest : w = z.drop (v.length + 2) ++ scalar '*' :: scalar ';' :: t := by
      rw [← List.drop_append_of_le_length (by omega), heq, List.drop_succ_cons, hflags]
    have hspan : spanLength Lexeme.isFlag w = k + 1 := by
      rw [Lexeme.flagsLength?] at hk
      split at hk
      · contradiction
      · exact Option.some.inj hk
    rw [hrest] at hspan
    have hflag := eq_true_of_lt_spanLength (p := Lexeme.isFlag) (c := scalar '*')
      (u := z.drop (v.length + 2)) (w := scalar ';' :: t)
      (by rw [hspan, List.length_drop]; omega)
    contradiction

/-- The first line of a program does not end with an asterisk. -/
theorem starless_shebang : Starless Lexeme.shebang? := by
  intro z t h
  rw [shebang_eq] at h
  cases hshort : lineAfter? [scalar '#', scalar '!', scalar '/']
      (z ++ scalar '*' :: scalar ';' :: t) with
  | some n =>
    rw [hshort] at h
    obtain rfl := Option.some.inj h
    exact starless_line (by decide) z t hshort
  | none =>
    rw [hshort] at h
    have hlong : lineAfter? [scalar '#', scalar '!', scalar ' ', scalar '/']
        (z ++ scalar '*' :: scalar ';' :: t) = some (z.length + 1) := h
    exact starless_line (by decide) z t hlong

/-- A single code point in front of a semicolon that has to be an asterisk. -/
theorem head_eq_star {c : CodePoint} (hc : (z ++ scalar '*' :: scalar ';' :: t).head? = some c)
    (hone : z.length + 1 = 1) : c = scalar '*' := by
  obtain rfl := List.eq_nil_of_length_eq_zero (Nat.succ.inj hone)
  exact (Option.some.inj hc).symm

/-- Apart from operators, nothing that a rule finds ends with an asterisk in front of a
semicolon. -/
theorem starless_rules : ∀ r ∈ rules, r.kind = .operator ∨ Starless r.length? := by
  refine forall_rules (p := fun kind f => kind = .operator ∨ Starless f) (Or.inr starless_blank)
    (Or.inr starless_comment) (Or.inr (blind_number.starless rfl))
    (Or.inr (blind_longMark.starless rfl)) (Or.inl rfl) (Or.inr ((blind_oneOf _).starless rfl))
    (Or.inr ((blind_oneOf _).starless rfl)) (fun kind ws _ hws => Or.inr ?_)
    (Or.inr (blind_methodPath.starless rfl)) (Or.inr (blind_name.starless ?_))
    (Or.inr starless_string) (Or.inr (blind_privateName.starless rfl))
  · exact (blind_word ws).starless (word_of_mark (by decide) hws)
  · exact name_of_mark (by decide +kernel) rfl

/-- What ends with an asterisk behind an operand is an operator. -/
theorem kind_of_star_afterOperand
    (h : Step.afterOperand? s (z ++ scalar '*' :: scalar ';' :: t) = some a)
    (hlength : a.length = z.length + 1) : a.kind = .operator := by
  obtain ⟨hbrace, ha⟩ | ⟨hquote, ha⟩ | hfound := afterOperand_cases h
  · have hstar := head_eq_star hbrace (hlength.symm.trans (by rw [ha]))
    contradiction
  · have hstar := head_eq_star hquote (hlength.symm.trans (by rw [ha]))
    contradiction
  · obtain ⟨r, hr, hn, ha⟩ := byRules_cases hfound
    obtain hkind | hstarless := starless_rules r hr
    · rw [ha]
      exact hkind
    · rw [hlength] at hn
      exact absurd hn (hstarless z t)

/-- What leaves the text of a template is a backtick, or a dollar sign with a brace. -/
theorem length_ne_of_leaves (h : Step.inTemplate? s (z ++ scalar '*' :: scalar ';' :: t) = some a)
    (hmode : a.mode ≠ .template) : a.length ≠ z.length + 1 := by
  intro hlength
  obtain ⟨hquote, hone⟩ | ⟨⟨rest, heq⟩, htwo⟩ := inTemplate_leaves h hmode
  · have hstar := head_eq_star hquote (hlength.symm.trans hone)
    contradiction
  · rw [hlength] at htwo
    match z with
    | [] => contradiction
    | [c] =>
      have hstar := (List.cons.inj (List.cons.inj heq).2).1
      contradiction
    | c :: d :: z =>
      simp only [List.length_cons] at htwo
      omega

/-- Only an operator ends with an asterisk in front of a semicolon. -/
theorem kind_of_star (h : Step.first? s (z ++ scalar '*' :: scalar ';' :: t) = some a)
    (hlength : a.length = z.length + 1) (hmode : a.mode ≠ .template) : a.kind = .operator := by
  obtain ⟨-, htemplate⟩ | ⟨-, ⟨-, -, n, hline, ha⟩ | hbefore | hfound⟩ := first_cases h
  · exact absurd hlength (length_ne_of_leaves htemplate hmode)
  · rw [ha] at hlength
    exact absurd (hlength ▸ hline) (starless_shebang z t)
  · obtain ⟨n, hn, ha⟩ | ⟨-, ⟨n, hn, ha⟩ | ⟨-, ⟨-, n, hn, ha⟩ | ⟨-, hfound⟩⟩⟩ :=
      beforeOperand_cases hbefore
    · rw [ha] at hlength
      exact absurd (hlength ▸ hn) (starless_blank z t)
    · rw [ha] at hlength
      exact absurd (hlength ▸ hn) (starless_comment z t)
    · rw [ha] at hlength
      exact absurd (hlength ▸ hn) (starless_regularExpression z t)
    · exact kind_of_star_afterOperand hfound hlength
  · exact kind_of_star_afterOperand hfound hlength

end Dialects.Script
