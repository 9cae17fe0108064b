import Dialects.Proofs.Script.Fused
import Dialects.Proofs.Script.Stability

/-!
# Scripts that are converted one way and then the other

Where a semicolon is left out between blank space, the space on both sides is read as one token. But
for that, the tokens of the lenient text are the tokens that are left (`Merged`), unless a comment
goes with the operator in front of the semicolon (`keepsComments`). The lenient text of a script can
then be saved, and its canonical text can always be shown (`converts_back`).
-/

namespace Dialects.Script

open CodePoint (scalar)
open Text (Stops spanLength)

variable {s s' : LexState} {t u w : Token} {ts us : List Token} {ms : List (Token × Bool)} {b : Bool}
  {a : Step} {x rest : Text}

/-! ## Tokens of blank space -/

/-- A token of blank space in code. -/
structure Token.IsSpace (t : Token) : Prop where
  kind : t.kind = .other
  blank : ∀ c ∈ t.value, c.isBlank = true

theorem Token.IsSpace.insignificant (h : t.IsSpace) : t.isSignificant = false :=
  insignificant_iff.mpr (Or.inl (List.all_eq_true.mpr h.blank))

theorem Token.IsSpace.isBracket (h : t.IsSpace) : t.isBracket = false := by
  have hother : t.kind ≠ .punctuation := by
    rw [h.kind]
    decide
  rw [Token.isBracket, Token.opens?, Token.closes?, if_neg hother, if_neg hother]
  rfl

/-- Two pieces of blank space make one. -/
theorem Token.IsSpace.append (ht : t.IsSpace) (hw : w.IsSpace) (offset : Nat) :
    Token.IsSpace ⟨offset, .other, t.value ++ w.value⟩ := by
  refine ⟨rfl, fun c hc => ?_⟩
  obtain hc | hc := List.mem_append.mp hc
  · exact ht.blank c hc
  · exact hw.blank c hc

/-- The tokens `us` are the tokens `ts`, but for blank space in a row that is one token in `us`. -/
inductive Merged : List Token → List Token → Prop
  | nil : Merged [] []
  | same {t : Token} {us ts : List Token} (rest : Merged us ts) : Merged (t :: us) (t :: ts)
  | joined {t u w : Token} {us ts : List Token} (ht : t.IsSpace) (hu : u.IsSpace) (hw : w.IsSpace)
      (value : u.value = t.value ++ w.value) (rest : Merged (w :: us) ts) :
      Merged (u :: us) (t :: ts)

/-- Tokens that are merged spell the same text. -/
theorem Merged.join (h : Merged us ts) : Token.join us = Token.join ts := by
  induction h with
  | nil => rfl
  | same rest ih => rw [join_cons, join_cons, ih]
  | joined ht hu hw value rest ih => rw [join_cons, join_cons, ← ih, join_cons, value,
      List.append_assoc]

/-- Tokens that are merged have the same next significant one. -/
theorem Merged.nextSignificant (h : Merged us ts) :
    Token.nextSignificant? us = Token.nextSignificant? ts := by
  -- blank space is not significant, whether it is one token or several
  induction h with
  | nil => rfl
  | same rest ih =>
    rw [Token.nextSignificant?, Token.nextSignificant?, List.find?_cons, List.find?_cons]
    rw [Token.nextSignificant?, Token.nextSignificant?] at ih
    rw [ih]
  | joined ht hu hw value rest ih =>
    rw [nextSignificant_of_insignificant ht.insignificant,
      nextSignificant_of_insignificant hu.insignificant, ← ih,
      nextSignificant_of_insignificant hw.insignificant]

/-- Tokens that are merged have the same brackets. -/
theorem Merged.brackets (h : Merged us ts) :
    us.filter Token.isBracket = ts.filter Token.isBracket := by
  have hskip {t : Token} (ht : t.IsSpace) (ts : List Token) :
      (t :: ts).filter Token.isBracket = ts.filter Token.isBracket :=
    List.filter_cons_of_neg (Bool.eq_false_iff.mp ht.isBracket)
  induction h with
  | nil => rfl
  | same rest ih => rw [List.filter_cons, List.filter_cons, ih]
  | joined ht hu hw value rest ih => rw [hskip ht, hskip hu, ← ih, hskip hw]

/-! ## Blank space -/

/-- Blank space in code is one token up to its end. -/
theorem blank_of_head (hs : s.mode = .code b) (hfirst : Step.first? s (x ++ rest) = some a)
    (hlength : x.length = a.length - 1 + 1) (hhead : ∃ c ∈ x.head?, c.isBlank = true) :
    Lexeme.blank? (x ++ rest) = some x.length ∧
      a = ⟨.other, x.length, .code (b || s.atLineStart), s.interpolations⟩ := by
  obtain ⟨c, hc, hblank⟩ := hhead
  obtain ⟨y, rfl⟩ := List.head?_eq_some_iff.mp hc
  have hfound := blank_cons hblank (y ++ rest)
  obtain ⟨-, hpos⟩ := positive_eq_some.mp hfound
  rw [← List.cons_append] at hfound hpos
  obtain rfl := Option.some.inj (hfirst.symm.trans (first_blank_eq hs hfound))
  have hspan : spanLength CodePoint.isBlank (c :: y ++ rest) = (c :: y).length :=
    (hlength.trans (Nat.sub_add_cancel hpos)).symm
  rw [hfound, hspan]
  exact ⟨rfl, rfl⟩

/-- In code nothing but blanks is read as blank space. -/
theorem blank_of_all (hs : s.mode = .code b) (hfirst : Step.first? s (x ++ rest) = some a)
    (hlength : x.length = a.length - 1 + 1) (hblank : ∀ c ∈ x, c.isBlank = true) :
    Lexeme.blank? (x ++ rest) = some x.length ∧
      a = ⟨.other, x.length, .code (b || s.atLineStart), s.interpolations⟩ := by
  obtain ⟨c, y, rfl⟩ := List.exists_cons_of_ne_nil (ne_nil_of_length hlength)
  exact blank_of_head hs hfirst hlength ⟨c, rfl, hblank c List.mem_cons_self⟩

/-- A run of no length stops at once. -/
theorem stops_of_spanLength {p : CodePoint → Bool} {y : Text} (h : spanLength p y = 0) :
    Stops p y := by
  intro c hc
  obtain ⟨y, rfl⟩ := List.head?_eq_some_iff.mp hc
  refine Bool.eq_false_iff.mpr fun hp => ?_
  rw [Text.spanLength_cons_of_pos hp] at h
  contradiction

/-- A blank is plain text in a template. -/
theorem plain_of_blank {c : CodePoint} (h : c.isBlank = true) :
    Lexeme.isPlainInTemplate c = true := by
  have hne {d : CodePoint} (hd : d.isBlank = false) : (c != d) = true := by
    refine bne_iff_ne.mpr fun heq => ?_
    rw [heq, hd] at h
    contradiction
  rw [Lexeme.isPlainInTemplate, hne (by decide), hne (by decide), hne (by decide)]
  rfl

/-- Nothing blank comes behind a blank token, which does not leave the text of a template. -/
theorem stops_of_blank (hfirst : Step.first? s (x ++ rest) = some a)
    (hlength : x.length = a.length - 1 + 1) (hblank : ∀ c ∈ x, c.isBlank = true) :
    Stops CodePoint.isBlank rest ∧ (s.mode = .template → a.mode = .template) := by
  have hne : x ≠ [] := ne_nil_of_length hlength
  have hpos : 0 < x.length := List.length_pos_iff.mpr hne
  cases hs : s.mode with
  | code b =>
    obtain ⟨hfound, -⟩ := blank_of_all hs hfirst hlength hblank
    obtain ⟨hspan, -⟩ := positive_eq_some.mp hfound
    rw [Text.spanLength_append_of_all hblank] at hspan
    exact ⟨stops_of_spanLength (by omega), fun htemplate => by contradiction⟩
  | template =>
    have hplain := first_of_plain hs hne (fun c hc => plain_of_blank (hblank c hc)) rest
    obtain rfl := Option.some.inj (hfirst.symm.trans hplain)
    have hstops : Stops Lexeme.isPlainInTemplate rest :=
      stops_of_spanLength (by simp only at hlength; omega)
    exact ⟨hstops.mono fun _ => plain_of_blank, fun _ => rfl⟩

/-- If all is blank in front of a semicolon that is left out, that is one token of code. -/
theorem blank_stem (h : Lexed s (whole ((t, false) :: ms))) (hsound : Sound ms)
    (hbehind : behind ms ≠ []) (hblank : ∀ c ∈ stem ((t, false) :: ms), c.isBlank = true) :
    (∃ b, s.mode = .code b) ∧ ∃ u ms', ms = (u, true) :: ms' := by
  obtain ⟨a, first, -, length, rest⟩ := h.split
  obtain ⟨hstops, htemplate⟩ := stops_of_blank first length fun c hc =>
    hblank c (List.mem_append_left _ hc)
  match ms with
  | [] => contradiction
  | (u, false) :: ms =>
    exfalso
    -- A token that is left would go on with blank code points, which would have belonged to `t`.
    obtain ⟨_, -, -, length', -⟩ := rest.split
    obtain ⟨c, value, hvalue⟩ := List.exists_cons_of_ne_nil (ne_nil_of_length length')
    rw [whole_cons, join_cons, hvalue, List.cons_append, Text.stops_cons] at hstops
    rw [hblank c (by rw [stem_kept, stem_kept, hvalue]; simp)] at hstops
    contradiction
  | (u, true) :: ms =>
    -- Semicolons that are left out stand in code, and what is blank does not change the mode.
    obtain ⟨⟨b, hcode⟩, -⟩ := rest.of_semicolon (hsound.1 rfl).1
    refine ⟨?_, u, ms, rfl⟩
    cases hs : s.mode with
    | code b => exact ⟨b, rfl⟩
    | template =>
      rw [Step.after, htemplate hs] at hcode
      contradiction

/-! ## Blank space that goes on -/

/-- If no slash comes next, it does not matter whether one would start a regular expression. -/
theorem follows_of_code {b b' : Bool} {k : Nat} {previous : Option CodePoint}
    (hstarted : previous ≠ none) (hle : b' = true → b = true)
    (hnext : (Token.nextSignificant? ts).any joinsLine = false) :
    Follows ⟨.code b, k, previous⟩ ⟨.code b', k, previous⟩ ts := by
  -- if a slash may start a pattern in neither or in both cases, the states are the same
  cases b with
  | true =>
    exact Or.inr ⟨rfl, ⟨b', rfl⟩, rfl, ⟨hstarted, hstarted⟩, hnext, Or.inl rfl⟩
  | false =>
    obtain rfl : b' = false := Bool.eq_false_iff.mpr fun hb' => by simpa using hle hb'
    exact Or.inl rfl

/-- A semicolon that was missed makes no difference to the tokens. -/
theorem Lexed.of_follows (h : Lexed s ts) (hfollows : Follows s s' ts) : Lexed s' ts := by
  induction h generalizing s' with
  | nil => exact .nil
  | cons first kind length rest ih =>
    obtain ⟨a', hfirst, hkind, hlength, -, hnext⟩ := hfollows.first first kind length
    exact .cons hfirst (kind.trans hkind.symm) (hlength ▸ length) (ih hnext)

/-- Blank space in code in front of blank space becomes one token with it. -/
theorem Lexed.merge (hs : s.mode = .code b) (hfirst : Step.first? s (t.value ++ rest) = some a)
    (hkind : t.kind = a.kind) (hlength : t.value.length = a.length - 1 + 1)
    (hblank : ∀ c ∈ t.value, c.isBlank = true) (h : Lexed (a.after t.value) us)
    (hmerged : Merged us ts) (hhead : ∃ c ∈ (Token.join us).head?, c.isBlank = true)
    (hnext : (Token.nextSignificant? us).any joinsLine = false) :
    ∃ us', Lexed s us' ∧ Merged us' (t :: ts) := by
  have hpos : 0 < t.value.length := List.length_pos_iff.mpr (ne_nil_of_length hlength)
  obtain ⟨-, rfl⟩ := blank_of_all hs hfirst hlength hblank
  have ht : t.IsSpace := ⟨hkind, hblank⟩
  cases us with
  | nil =>
    obtain ⟨c, hc, -⟩ := hhead
    contradiction
  | cons w us =>
    obtain ⟨a', first, kind, length, hrest⟩ := h.split_cons
    obtain ⟨c, hc, hcblank⟩ := hhead
    have hw : w.value ≠ [] := ne_nil_of_length length
    obtain ⟨hfound, rfl⟩ := blank_of_head (b := b || s.atLineStart) rfl first length
      ⟨c, by rwa [join_cons, List.head?_append_of_ne_nil _ hw] at hc, hcblank⟩
    obtain ⟨hspan, -⟩ := positive_eq_some.mp hfound
    have hspace : w.IsSpace := ⟨kind, all_of_length_le (Nat.le_of_eq hspan.symm)⟩
    have hall : Lexeme.blank? (t.value ++ w.value ++ Token.join us)
        = some (t.value.length + w.value.length) := by
      have hwhole : spanLength CodePoint.isBlank (t.value ++ w.value ++ Token.join us)
          = t.value.length + w.value.length := by
        rw [List.append_assoc, Text.spanLength_append_of_all ht.blank, hspan]
      exact positive_eq_some.mpr ⟨hwhole, hwhole ▸ Nat.lt_of_lt_of_le hpos (Nat.le_add_right _ _)⟩
    refine ⟨⟨t.offset, .other, t.value ++ w.value⟩ :: us,
      .cons (first_blank_eq hs hall) rfl ?_ ?_, .joined ht (ht.append hspace _) hspace rfl hmerged⟩
    · show (t.value ++ w.value).length = t.value.length + w.value.length - 1 + 1
      rw [List.length_append]
      omega
    · -- Where the lexer was between both, it may have stood at the start of a line.
      rw [nextSignificant_of_insignificant hspace.insignificant] at hnext
      refine hrest.of_follows ?_
      show Follows _ ⟨.code (b || s.atLineStart), s.interpolations, (t.value ++ w.value).getLast?⟩ us
      rw [List.getLast?_append_of_ne_nil _ hw]
      exact follows_of_code (getLast_ne_none hw) (fun hb => by rw [hb]; rfl) hnext

/-! ## Reading what is left -/

/-- Without the semicolons that are left out the next line still does not join. -/
theorem nextSignificant_remaining (hsound : Sound ms)
    (hnext : (Token.nextSignificant? (whole ms)).any joinsLine = false) :
    (Token.nextSignificant? (remaining ms)).any joinsLine = false := by
  induction ms with
  | nil => rfl
  | cons m ms ih =>
    obtain ⟨t, dropped⟩ := m
    cases dropped with
    | true => exact ih hsound.2 (hsound.1 rfl).2.2
    | false =>
      rw [whole_cons] at hnext
      rw [remaining_kept]
      cases hsignificant : t.isSignificant with
      | true =>
        rw [nextSignificant_of_significant hsignificant] at hnext ⊢
        exact hnext
      | false =>
        rw [nextSignificant_of_insignificant hsignificant] at hnext ⊢
        exact ih hsound.2 hnext

/-- What is left can be cut into tokens, if no comment goes with an operator. -/
theorem exists_merged (h : Lexed s (whole ms)) (hsound : Sound ms) (hunglued : unglued ms = true)
    (hfollows : Follows s s' (whole ms))
    (hstart : s'.previous = none → ∀ m ∈ ms.head?, m.2 = false) :
    ∃ us, Lexed s' us ∧ Merged us (remaining ms) := by
  -- The state `s` is that of the lexer in the script, `s'` that of the lexer in what is left.
  induction ms generalizing s s' with
  | nil => exact ⟨[], .nil, .nil⟩
  | cons m ms ih =>
    obtain ⟨t, dropped⟩ := m
    cases dropped with
    | true =>
      have hstarted : s'.previous ≠ none := fun hnone => by
        have hkept := hstart hnone _ rfl
        contradiction
      obtain ⟨-, hlexed⟩ := h.of_semicolon (hsound.1 rfl).1
      have hadrift := adrift_of_dropped h hsound hfollows hstarted
      exact ih hlexed hsound.2 (unglued_tail hunglued) (Or.inr hadrift)
        fun hnone => absurd hnone hstarted
    | false =>
      obtain ⟨a, first, kind, length, rest⟩ := h.split
      obtain ⟨a', hfirst, hkind, hlength, -, hnext⟩ := hfollows.first first kind length
      rw [← hkind] at kind
      rw [← hlength] at length
      have hstarted : (a'.after t.value).previous ≠ none :=
        getLast_ne_none (ne_nil_of_length length)
      obtain ⟨us, hus, hmerged⟩ := ih rest hsound.2 (unglued_tail hunglued) hnext
        fun hnone => absurd hnone hstarted
      by_cases hblank : ∀ c ∈ (Token.join (remaining (behind ms))).head?, c.isBlank = true →
          ∃ d ∈ stem ((t, false) :: ms), d.isBlank = false
      · have hread := first_remaining h hsound hunglued hfirst kind length hblank
        rw [← hmerged.join] at hread
        exact ⟨t :: us, .cons hread kind length hus, .same hmerged⟩
      · -- Blank space goes on behind the semicolon that comes next.
        simp only [not_forall, not_exists, not_and, Bool.not_eq_false] at hblank
        obtain ⟨c, hc, hcblank, hstem⟩ := hblank
        have hbehind : behind ms ≠ [] := fun hnil => by
          rw [hnil] at hc
          contradiction
        obtain ⟨⟨b, hcode⟩, u, ms, rfl⟩ := blank_stem h hsound.2 hbehind hstem
        obtain ⟨b', hcode'⟩ := hfollows.code hcode
        refine Lexed.merge hcode' hfirst kind length (fun d hd => hstem d ?_) hus hmerged ?_ ?_
        · rw [stem_kept]
          exact List.mem_append_left _ hd
        · rw [hmerged.join]
          exact ⟨c, hc, hcblank⟩
        · rw [hmerged.nextSignificant, remaining_dropped]
          exact nextSignificant_remaining hsound.2.2 (hsound.2.1 rfl).2.2

/-- This holds of a whole script too, also if it starts with a semicolon that is left out. -/
theorem exists_merged_initial (h : Lexed .initial (whole ms)) (hsound : Sound ms)
    (hunglued : unglued ms = true) : ∃ us, Lexed .initial us ∧ Merged us (remaining ms) := by
  match ms with
  | [] => exact ⟨[], .nil, .nil⟩
  | (t, false) :: ms =>
    refine exists_merged h hsound hunglued (Or.inl rfl) fun _ m hm => ?_
    obtain rfl := Option.some.inj hm
    rfl
  | (t, true) :: ms =>
    -- What comes behind the semicolon is read as if a line started there.
    obtain ⟨hsemicolon, hends, hnext⟩ := hsound.1 rfl
    obtain ⟨-, hlexed⟩ := h.of_semicolon hsemicolon
    have hadrift : Adrift LexState.initial.afterSemicolon ⟨.code false, 0, some Text.newline⟩
        (whole ms) :=
      adrift_of_lineEnds (s := ⟨.code false, 0, some Text.newline⟩) ⟨false, rfl⟩
        (Option.some_ne_none _) hends hnext
    obtain ⟨us, hus, hmerged⟩ := exists_merged hlexed hsound.2 (unglued_tail hunglued)
      (Or.inr hadrift) fun hnone => by contradiction
    refine ⟨us, ?_, hmerged⟩
    have hgap : Gap (Token.join us) := hmerged.join ▸ gap_of_dropped h hsound
    cases hus with
    | nil => exact .nil
    | cons first kind length rest =>
      exact .cons ((first_of_line hgap.shebang).trans first) kind length rest

/-! ## The law -/

/-- Whether no comment goes with an operator when the lenient dialect leaves out a semicolon that
stands between them. -/
def keepsComments (script : Text) : Bool :=
  match tokens script with
  | .ok ts => unglued (marked [] ts)
  | .error _ => true

/-- The tokens of the lenient text are those that are left, but for blank space in a row. -/
theorem tokens_remaining {script : Text} (h : tokens script = .ok ts)
    (hunglued : unglued (marked [] ts) = true) :
    ∃ us, tokens (Token.join (remaining (marked [] ts))) = .ok (placed 0 us) ∧
      Merged us (remaining (marked [] ts)) := by
  obtain ⟨hlex, hbrackets⟩ := tokens_eq_ok.mp h
  obtain ⟨hlexed, -, -⟩ := lexed_of_lexFrom hlex
  rw [← whole_marked [] ts] at hlexed hbrackets
  have hsound : Sound (marked [] ts) := sound_marked [] ts
  obtain ⟨us, hus, hmerged⟩ := exists_merged_initial hlexed hsound hunglued
  refine ⟨us, tokens_eq_ok.mpr ⟨?_, ?_⟩, hmerged⟩
  · rw [lex, ← hmerged.join]
    exact lexFrom_join hus 0
  · rw [checkBrackets_whole hsound, ← checkBrackets_filter, ← hmerged.brackets,
      checkBrackets_filter] at hbrackets
    exact checkBrackets_congr (bare_placed 0 us).symm rfl hbrackets

/-- What has been made lenient can be made canonical again, if it keeps its comments. -/
theorem exists_saved {script lenient : Text} (h : toLenient script = .ok lenient)
    (hkeeps : keepsComments script = true) : ∃ canonical, toCanonical lenient = .ok canonical := by
  cases htokens : tokens script with
  | error f =>
    rw [toLenient, htokens] at h
    contradiction
  | ok ts =>
    rw [toLenient_eq htokens] at h
    obtain rfl := Except.ok.inj h
    rw [keepsComments, htokens] at hkeeps
    obtain ⟨us, hus, -⟩ := tokens_remaining htokens hkeeps
    exact ⟨_, toCanonical_eq hus⟩

/-- What has been made canonical can be made lenient again. -/
theorem exists_shown {script canonical : Text} (h : toCanonical script = .ok canonical) :
    ∃ lenient, toLenient canonical = .ok lenient := by
  cases htokens : tokens script with
  | error f =>
    rw [toCanonical, htokens] at h
    contradiction
  | ok ts =>
    rw [toCanonical_eq htokens] at h
    obtain rfl := Except.ok.inj h
    obtain ⟨us, hus, -⟩ := tokens_punctuated htokens
    exact ⟨_, toLenient_eq hus⟩

/-- Reformatting a lenient script fails only when it is saved. -/
theorem normalize_eq_error_iff {script : Text} {f : Failure} :
    normalize script = .error f ↔ toCanonical script = .error f := by
  rw [normalize]
  cases hsaved : toCanonical script with
  | error g => exact Iff.rfl
  | ok canonical =>
    obtain ⟨lenient, hlenient⟩ := exists_shown hsaved
    show toLenient canonical = .error f ↔ _
    rw [hlenient]
    exact iff_of_false (fun h => by contradiction) (fun h => by contradiction)

/-- What can be shown in the lenient dialect can be saved again, if no comment goes with an
operator, and what has been saved can always be shown. -/
theorem converts_back (script : Text) :
    (∀ lenient, toLenient script = .ok lenient → keepsComments script = true →
        ∃ canonical, toCanonical lenient = .ok canonical) ∧
      (∀ canonical, toCanonical script = .ok canonical →
        ∃ lenient, toLenient canonical = .ok lenient) ∧
      ∀ f, normalize script = .error f ↔ toCanonical script = .error f := by
  refine ⟨fun lenient hshown hkeeps => ?_, fun canonical hsaved => ?_, fun f => ?_⟩
  · exact exists_saved hshown hkeeps
  · exact exists_shown hsaved
  · exact normalize_eq_error_iff

/-- A semicolon between blank space and a comment. -/
theorem converts_back_spaced :
    toLenient (Text.ofString "1 ; // 2\n") = .ok (Text.ofString "1  // 2\n") ∧
      keepsComments (Text.ofString "1 ; // 2\n") = true ∧
      (∃ canonical, toCanonical (Text.ofString "1  // 2\n") = .ok canonical) ∧
      toCanonical (Text.ofString "1 ; // 2\n") = .ok (Text.ofString "1 ; // 2\n") ∧
      ∃ lenient, toLenient (Text.ofString "1 ; // 2\n") = .ok lenient := by
  have hlenient : toLenient (Text.ofString "1 ; // 2\n") = .ok (Text.ofString "1  // 2\n") :=
    eq_ok_of_toOption (by decide +kernel)
  have hkeeps : keepsComments (Text.ofString "1 ; // 2\n") = true := by decide +kernel
  have hcanonical : toCanonical (Text.ofString "1 ; // 2\n") = .ok (Text.ofString "1 ; // 2\n") :=
    eq_ok_of_toOption (by decide +kernel)
  obtain ⟨hsaved, hshown, -⟩ := converts_back (Text.ofString "1 ; // 2\n")
  exact ⟨hlenient, hkeeps, hsaved _ hlenient hkeeps, hcanonical, hshown _ hcanonical⟩

/-- Without the semicolon the slash that closes a pattern and the one that opens the comment start a
comment that ends with the line. -/
theorem not_converts_back_comment :
    toLenient (Text.ofString "f=x=>/y/;/*\n*/") = .ok (Text.ofString "f=x=>/y//*\n*/") ∧
      ∀ canonical, toCanonical (Text.ofString "f=x=>/y//*\n*/") ≠ .ok canonical := by
  have hlenient : toLenient (Text.ofString "f=x=>/y/;/*\n*/")
      = .ok (Text.ofString "f=x=>/y//*\n*/") := eq_ok_of_toOption (by decide +kernel)
  have hrefused : (toCanonical (Text.ofString "f=x=>/y//*\n*/")).toOption = none := by
    decide +kernel
  refine ⟨hlenient, fun canonical hsaved => ?_⟩
  rw [hsaved] at hrefused
  contradiction

end Dialects.Script
