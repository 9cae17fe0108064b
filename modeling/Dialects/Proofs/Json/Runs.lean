import Dialects.Proofs.Json.Cutting

/-!
# Where numbers and words end

Commas are optional in the lenient dialect, so that two values may follow each other with nothing
but a gap between them. A reader of such a document takes a run of digits, letters and signs for one
number or one word. The lenient dialect does so, too, unless the run is neither: then it cuts off
what looks like a number or a word at the start of the run and goes on with the rest, so that
`[01]` has two items.

The runs of a text (`runs`) are found without asking what a number or a word is.

## Main results

* `Lenient.Cut.whole`: the runs of a text are its numbers and words if each run is a number or a
  word.
* `neverSplits_iff`: it is then only that no two of them touch, and where two of them do, the one
  behind starts with a minus, or is a word behind a number, or stands behind a zero.
-/

namespace Dialects.Json

open CodePoint (scalar)
open Text (Stops spanLength)

/-! ## Runs -/

/-- A code point of numbers or words. -/
def isPlain (c : CodePoint) : Bool := continuesWord c || continuesNumber c

/-- The token is a number or a word. -/
def Token.isPlain (t : Token) : Bool := t.kind == .number || t.kind == .word

/-- The longest runs of code points of numbers and words in a text, outside its strings and
comments. -/
def runs (text : Text) : List Text :=
  match text with
  | [] => []
  | c :: rest =>
    match Lenient.gapLength (c :: rest) with
    | n + 1 => runs (rest.drop n)
    | 0 =>
      if c = scalar '"' then runs (rest.drop ((closingLength? false rest).getD 0))
      else if isPlain c then
        (c :: rest.take (spanLength isPlain rest)) :: runs (rest.drop (spanLength isPlain rest))
      else runs rest
termination_by text.length
decreasing_by all_goals (simp only [List.length_cons, List.length_drop]; omega)

/-- A run that is a number or a word as a whole. -/
def Lexical (r : Text) : Prop := IsNumber r ∨ isWord r = true

/-- Between the two tokens of the text, the second one right behind the first, there is at least one
blank or comment, and nothing else. -/
def Apart (text : Text) (t u : Token) : Prop :=
  ∃ (front : Text) (gaps : List Text) (back : Text), gaps ≠ [] ∧ (∀ g ∈ gaps, Gap g) ∧
    text = front ++ (t.text ++ (gaps.flatten ++ (u.text ++ back))) ∧
    t.offset = front.length ∧ u.offset = t.offset + t.text.length + gaps.flatten.length

/-- No number or word of the text has been cut off another one. -/
structure NeverSplits (text : Text) : Prop where
  /-- Two of them that follow each other have a gap between them. -/
  apart : ∀ before t u after, Lenient.lex text = .ok (before ++ t :: u :: after) →
    t.isPlain = true → u.isPlain = true → Apart text t u
  /-- They are the runs of the text. -/
  whole : ∀ ts, Lenient.lex text = .ok ts → runs text = (ts.filter Token.isPlain).map Token.text

/-- Two numbers or words that touch. -/
inductive Touching (t u : Token) : Prop where
  /-- A number with a minus stands behind a number or a word. -/
  | minus (h : u.text.head? = some (scalar '-'))
  /-- A word stands behind a number. -/
  | word (ht : t.kind = .number) (hu : u.kind = .word)
  /-- A number stands behind a zero. -/
  | zero (ht : t.text = [scalar '0'] ∨ t.text = [scalar '-', scalar '0']) (hu : u.kind = .number)

/-! ## A digit behind a number -/

section Digits

variable {d : CodePoint} {t w : Text}

/-- A run does not end in front of a code point of its class. -/
theorem spanLength_append_ne {p : CodePoint → Bool} (hd : p d = true) (t w : Text) :
    spanLength p (t ++ d :: w) ≠ t.length := by
  intro hlength
  obtain ⟨run, rest, heq, hrun, -, hstops⟩ := Text.exists_run p (t ++ d :: w)
  obtain ⟨-, rfl⟩ := List.append_inj heq (hlength.symm.trans hrun.symm)
  rw [Text.stops_cons, hd] at hstops
  contradiction

/-- Only a zero is an integer in front of a digit. -/
theorem eq_zero_of_integerLength (hd : d.isDigit = true) (ht : t ≠ [])
    (h : integerLength (t ++ d :: w) = t.length) : t = [scalar '0'] := by
  obtain ⟨c, t, rfl⟩ := List.exists_cons_of_ne_nil ht
  rw [List.cons_append, integerLength, List.length_cons] at h
  split at h
  · next hzero => rw [List.length_eq_zero_iff.mp (Nat.succ.inj h).symm, hzero]
  split at h
  · exact absurd (Nat.succ.inj h) (spanLength_append_ne hd t w)
  · contradiction

/-- A fraction does not end in front of a digit. -/
theorem eq_nil_of_fractionLength (hd : d.isDigit = true)
    (h : fractionLength (t ++ d :: w) = t.length) : t = [] := by
  cases t with
  | nil => rfl
  | cons c t =>
    rw [List.cons_append, fractionLength, List.length_cons] at h
    split at h
    · exact absurd (Nat.succ.inj h) (spanLength_append_ne hd t w)
    · contradiction

/-- An exponent does not end in front of a digit. -/
theorem eq_nil_of_exponentLength (hd : d.isDigit = true)
    (h : exponentLength (t ++ d :: w) = t.length) : t = [] := by
  cases t with
  | nil => rfl
  | cons c t =>
    simp only [List.cons_append, exponentLength, List.length_cons] at h
    split at h
    · have hsign : signLength (t ++ d :: w) ≤ t.length := by omega
      rw [List.drop_append_of_le_length hsign] at h
      refine absurd ?_ (spanLength_append_ne hd (t.drop (signLength (t ++ d :: w))) w)
      rw [List.length_drop]
      unfold digitsLength at h
      omega
    · contradiction

/-- Only a zero is a number without a sign in front of a digit. -/
theorem eq_zero_of_unsignedLength (hd : d.isDigit = true) (ht : t ≠ [])
    (h : unsignedLength (t ++ d :: w) = t.length) : t = [scalar '0'] := by
  by_cases hzero : integerLength (t ++ d :: w) = 0
  · rw [unsignedLength_eq_zero hzero] at h
    exact absurd (List.length_eq_zero_iff.mp h.symm) ht
  rw [unsignedLength_eq _ hzero] at h
  generalize hn : integerLength (t ++ d :: w) = n at h
  have hinteger : n ≤ t.length := by omega
  rw [List.drop_append_of_le_length hinteger] at h
  generalize hm : fractionLength (t.drop n ++ d :: w) = m at h
  have hboth : n + m ≤ t.length := by omega
  rw [List.drop_append_of_le_length hboth] at h
  -- No part but the integer can end in front of the digit, so neither of the others is there.
  have hexponent : t.drop (n + m) = [] :=
    eq_nil_of_exponentLength (w := w) hd (by rw [List.length_drop]; omega)
  have hexponent := List.drop_eq_nil_iff.mp hexponent
  have hfraction : t.drop n = [] :=
    eq_nil_of_fractionLength (w := w) hd (by rw [hm, List.length_drop]; omega)
  have hfraction := List.drop_eq_nil_iff.mp hfraction
  exact eq_zero_of_integerLength hd ht (hn.trans (by omega))

/-- Only a zero is a number in front of a digit. -/
theorem eq_zero_of_numberLength (hd : d.isDigit = true) (ht : t ≠ [])
    (h : numberLength (t ++ d :: w) = t.length) :
    t = [scalar '0'] ∨ t = [scalar '-', scalar '0'] := by
  obtain ⟨c, u, rfl⟩ := List.exists_cons_of_ne_nil ht
  by_cases hminus : c = scalar '-'
  · subst hminus
    rw [List.cons_append, numberLength_minus, List.length_cons] at h
    split at h
    · contradiction
    · next hne =>
      -- behind the minus sign there is a number without sign, which is the zero
      have hu : u ≠ [] := by
        rintro rfl
        exact hne (Nat.succ.inj h)
      rw [eq_zero_of_unsignedLength hd hu (Nat.succ.inj h)]
      exact Or.inr rfl
  · rw [numberLength_of_head_ne (by simpa using hminus)] at h
    exact Or.inl (eq_zero_of_unsignedLength hd ht h)

end Digits

/-! ## What a run is cut into -/

/-- The numbers of the code points of numbers and words. -/
theorem val_of_isPlain {c : CodePoint} (h : isPlain c = true) :
    c.val = 0x24 ∨ c.val = 0x2B ∨ c.val = 0x2D ∨ c.val = 0x2E ∨ (0x30 ≤ c.val ∧ c.val ≤ 0x39) ∨
      (0x41 ≤ c.val ∧ c.val ≤ 0x5A) ∨ c.val = 0x5F ∨ (0x61 ≤ c.val ∧ c.val ≤ 0x7A) := by
  simp only [isPlain, continuesWord, continuesNumber, Bool.or_eq_true, List.contains_eq_mem,
    List.mem_cons, List.not_mem_nil, or_false, decide_eq_true_eq] at h
  obtain (hstart | hdigit) | hdigit | rfl | rfl | rfl | rfl | rfl := h
  · have := val_of_startsWord hstart
    omega
  · have := val_of_isDigit hdigit
    omega
  · have := val_of_isDigit hdigit
    omega
  all_goals decide

/-- Numbers start with a code point of numbers. -/
theorem IsNumber.isPlain {c : CodePoint} {u : Text} (h : IsNumber (c :: u)) : isPlain c = true := by
  obtain ⟨d, v, heq, hd⟩ := h.head
  obtain ⟨rfl, rfl⟩ := List.cons.inj heq
  obtain hd | ⟨rfl, -⟩ := hd
  · simp [Dialects.Json.isPlain, continuesWord, hd]
  · decide

namespace Lenient

section Sorts

variable {c : CodePoint} {rest : Text} {kind : Kind} {n : Nat}

/-- What a token of the lenient dialect is found by. -/
theorem tokenAt?_cases (h : tokenAt? c rest = some (kind, n)) :
    (Token.isPunctuation c = true ∧ kind = .punctuation ∧ n = 0) ∨
      (c = scalar '"' ∧ kind = .string ∧ closingLength? false rest = some n) ∨
      (kind = .number ∧ numberLength (c :: rest) = n + 1) ∨
      (kind = .word ∧ startsWord c = true ∧ n = spanLength continuesWord rest) := by
  unfold tokenAt? at h
  split at h
  · next hmark =>
    obtain ⟨rfl, rfl⟩ := Prod.mk.inj (Option.some.inj h)
    exact Or.inl ⟨hmark, rfl, rfl⟩
  split at h
  · next hquote =>
    obtain ⟨m, hm, heq⟩ := Option.map_eq_some_iff.mp h
    obtain ⟨rfl, rfl⟩ := Prod.mk.inj heq
    exact Or.inr (Or.inl ⟨hquote, rfl, hm⟩)
  split at h
  · next m hm =>
    obtain ⟨rfl, rfl⟩ := Prod.mk.inj (Option.some.inj h)
    exact Or.inr (Or.inr (Or.inl ⟨rfl, hm⟩))
  · split at h
    · next hword =>
      obtain ⟨rfl, rfl⟩ := Prod.mk.inj (Option.some.inj h)
      exact Or.inr (Or.inr (Or.inr ⟨rfl, hword, rfl⟩))
    · contradiction

end Sorts

variable {t u : Token} {text rest : Text} {offset : Nat} {ts before after : List Token}

/-- Only numbers and words start with a code point of theirs. -/
theorem CutsOff.isPlain_head {c : CodePoint} {u : Text} (h : CutsOff t rest)
    (htext : t.text = c :: u) : isPlain c = t.isPlain := by
  obtain ⟨d, v, htext', -, htoken⟩ := h
  obtain ⟨rfl, rfl⟩ := List.cons.inj (htext.symm.trans htext')
  -- neither a quotation mark nor a punctuation mark is found in numbers and words
  have hother (hval : c.val = 0x22 ∨ Token.isPunctuation c = true) : isPlain c = false := by
    refine Bool.eq_false_iff.mpr fun hplain => ?_
    have hrange := val_of_isPlain hplain
    obtain hval | hmark := hval
    · omega
    · have := val_of_isPunctuation hmark
      omega
  obtain ⟨hmark, hkind, -⟩ | ⟨rfl, hkind, -⟩ | ⟨hkind, hlength⟩ | ⟨hkind, hstart, -⟩ :=
    tokenAt?_cases htoken
  · rw [hother (Or.inr hmark), Token.isPlain, hkind]
    rfl
  · rw [hother (Or.inl rfl), Token.isPlain, hkind]
    rfl
  · rw [(isNumber_cons_take hlength).isPlain, Token.isPlain, hkind]
    rfl
  · rw [Dialects.Json.isPlain, continuesWord, hstart, Token.isPlain, hkind]
    rfl

/-- What is cut off as a number or a word is one. -/
theorem CutsOff.lexical (h : CutsOff t rest) (ht : t.isPlain = true) : Lexical t.text := by
  obtain ⟨c, u, htext, -, htoken⟩ := h
  rw [htext]
  -- of the four ways to cut off a token, the first two give a mark or a string
  obtain ⟨-, hkind, -⟩ | ⟨-, hkind, -⟩ | ⟨-, hlength⟩ | ⟨-, hstart, hlength⟩ :=
    tokenAt?_cases htoken
  · simp [Token.isPlain, hkind] at ht
  · simp [Token.isPlain, hkind] at ht
  · have hnumber := isNumber_cons_take hlength
    rw [List.take_left] at hnumber
    exact Or.inl hnumber
  · obtain ⟨run, rest', heq, hrun, hall, -⟩ := Text.exists_run continuesWord (u ++ rest)
    obtain ⟨rfl, -⟩ := List.append_inj heq (hlength.trans hrun.symm)
    exact Or.inr (by simpa [isWord, hstart] using hall)

/-- The numbers and words of a text are some. -/
theorem Cut.lexical (h : Cut offset text (before ++ t :: after)) (ht : t.isPlain = true) :
    Lexical t.text := by
  obtain ⟨front, rest, -, -, hcut, -⟩ := h.split (P := fun _ => True) (fun _ => id) (fun _ => id)
    trivial
  exact hcut.lexical ht

/-- A gap is no part of a run. -/
theorem runs_gap {c : CodePoint} {u : Text} (hgap : gapLength (c :: (u ++ rest)) = u.length + 1) :
    runs (c :: (u ++ rest)) = runs rest := by
  rw [runs, hgap]
  simp only [List.drop_left]

/-- Punctuation marks and strings are no part of a run. -/
theorem CutsOff.runs_of_not_plain (h : CutsOff t rest) (ht : t.isPlain = false) :
    runs (t.text ++ rest) = runs rest := by
  have hhead {c : CodePoint} {u : Text} := h.isPlain_head (c := c) (u := u)
  obtain ⟨c, u, htext, hgap, htoken⟩ := h
  have hc : isPlain c = false := (hhead htext).trans ht
  rw [htext, List.cons_append, runs, hgap]
  -- a mark is one code point, and a string is skipped as a whole
  obtain ⟨hmark, -, hlength⟩ | ⟨rfl, -, hlength⟩ | ⟨hkind, -⟩ | ⟨hkind, -⟩ := tokenAt?_cases htoken
  · have hquote : c ≠ scalar '"' := by
      rintro rfl
      revert hmark
      decide
    obtain rfl := List.length_eq_zero_iff.mp hlength
    simp only [if_neg hquote, hc, Bool.false_eq_true, if_false, List.nil_append]
  · simp only [if_true, hlength, Option.getD_some, List.drop_left]
  · simp [Token.isPlain, hkind] at ht
  · simp [Token.isPlain, hkind] at ht

/-- A run that is a number or a word is cut off as a whole. -/
theorem CutsOff.runs_of_plain (h : CutsOff t rest) (ht : t.isPlain = true)
    (hruns : ∀ r ∈ runs (t.text ++ rest), Lexical r) :
    Separates rest ∧ runs (t.text ++ rest) = t.text :: runs rest := by
  have hhead {c : CodePoint} {u : Text} := h.isPlain_head (c := c) (u := u)
  obtain ⟨c, u, htext, hgap, htoken⟩ := h
  have hc : isPlain c = true := (hhead htext).trans ht
  have hquote : c ≠ scalar '"' := by
    rintro rfl
    revert hc
    decide
  obtain ⟨run, rest', heq, hrun, -, hstops⟩ := Text.exists_run isPlain (u ++ rest)
  have hsplit : runs (t.text ++ rest) = (c :: run) :: runs rest' := by
    rw [htext, List.cons_append, runs, hgap]
    simp only [if_neg hquote, hc, if_true, ← hrun]
    rw [heq, List.take_left, List.drop_left]
  obtain ⟨kind, hlexeme⟩ : ∃ kind, Lexeme .lenient kind (c :: run) := by
    rw [hsplit] at hruns
    obtain hnumber | hword := hruns (c :: run) List.mem_cons_self
    · exact ⟨.number, .number _ hnumber⟩
    · exact ⟨.word, .word _ rfl hword⟩
  -- The whole run is what the dialect finds at the start of the text, so it is the token.
  obtain ⟨d, v, hcons, -, -, hfound⟩ := tokenAt?_lexeme hlexeme (Or.inr hstops)
  obtain ⟨rfl, rfl⟩ := List.cons.inj hcons
  rw [← heq, htoken] at hfound
  obtain ⟨rfl, rfl⟩ := List.append_inj heq (Prod.mk.inj (Option.some.inj hfound)).2
  exact ⟨hstops, by rw [hsplit, htext]⟩

/-- The runs of a text are its numbers and words if each run is a number or a word. -/
theorem Cut.whole (h : Cut offset text ts) (hruns : ∀ r ∈ runs text, Lexical r) :
    runs text = (ts.filter Token.isPlain).map Token.text := by
  -- the induction is on the cut: gaps and marks are no part of a run, and any other token is one
  induction h with
  | nil => rw [runs]; rfl
  | gap hgap h ih =>
    rw [runs_gap hgap] at hruns ⊢
    exact ih hruns
  | @token t rest ts ht h ih =>
    cases hplain : t.isPlain with
    | false =>
      rw [ht.runs_of_not_plain hplain] at hruns ⊢
      rw [List.filter_cons_of_neg (by simp [hplain])]
      exact ih hruns
    | true =>
      have hrest := (ht.runs_of_plain hplain hruns).2
      rw [hrest] at hruns ⊢
      rw [List.filter_cons_of_pos hplain, List.map_cons,
        ih fun r hr => hruns r (List.mem_cons_of_mem _ hr)]

/-- What is left of a text whose runs are numbers and words is such a text. -/
theorem CutsOff.lexical_rest (h : CutsOff t rest) (hruns : ∀ r ∈ runs (t.text ++ rest), Lexical r) :
    ∀ r ∈ runs rest, Lexical r := by
  cases hplain : t.isPlain with
  | false => rwa [h.runs_of_not_plain hplain] at hruns
  | true =>
    rw [(h.runs_of_plain hplain hruns).2] at hruns
    exact (List.forall_mem_cons.mp hruns).2

/-- Numbers and words that follow each other have a gap between them if each run is a number or a
word. -/
theorem Cut.apart (h : Cut 0 text (before ++ t :: u :: after))
    (hruns : ∀ r ∈ runs text, Lexical r) (ht : t.isPlain = true) (hu : u.isPlain = true) :
    Apart text t u := by
  obtain ⟨front, rest, rfl, hoffset, hcut, hafter, hrest⟩ := h.split
    (P := fun text => ∀ r ∈ runs text, Lexical r)
    (fun hgap hruns => by rwa [runs_gap hgap] at hruns) CutsOff.lexical_rest hruns
  obtain ⟨gaps, back, hgaps, rfl, hoffset', hcut', -⟩ := hafter.head
  have hsep := (hcut.runs_of_plain ht hrest).1
  refine ⟨front, gaps, back, ?_, hgaps, rfl, hoffset.trans (Nat.zero_add _), hoffset'⟩
  -- Without a gap the second token would go on where the first one has been ended.
  rintro rfl
  obtain ⟨c, v, htext, -⟩ := id hcut'
  have hc := hcut'.isPlain_head htext
  rw [List.flatten_nil, List.nil_append, htext, List.cons_append] at hsep
  have hstop : isPlain c = false := (Text.stops_cons _ _ _).mp hsep
  rw [hstop, hu] at hc
  contradiction

/-- Where two numbers or words touch. -/
theorem CutsOff.touching (ht : CutsOff t (u.text ++ rest)) (hu : CutsOff u rest)
    (htp : t.isPlain = true) (hup : u.isPlain = true) : Touching t u := by
  obtain ⟨c, x, htext, -, htoken⟩ := ht
  obtain ⟨d, y, hutext, -, hutoken⟩ := hu
  have hshape : d = scalar '-' ∨ (u.kind = .number ∧ d.isDigit = true) ∨
      (u.kind = .word ∧ startsWord d = true) := by
    obtain ⟨-, hkind, -⟩ | ⟨-, hkind, -⟩ | ⟨hkind, hlength⟩ | ⟨hkind, hstart, -⟩ :=
      tokenAt?_cases hutoken
    · simp [Token.isPlain, hkind] at hup
    · simp [Token.isPlain, hkind] at hup
    · obtain ⟨e, v, heq, hhead⟩ := (isNumber_cons_take hlength).head
      obtain ⟨rfl, -⟩ := List.cons.inj heq
      exact hhead.elim (fun hd => Or.inr (Or.inl ⟨hkind, hd⟩)) fun hminus => Or.inl hminus.1
    · exact Or.inr (Or.inr ⟨hkind, hstart⟩)
  obtain rfl | hshape := hshape
  · exact .minus (by rw [hutext, List.head?_cons])
  rw [hutext, List.cons_append] at htoken
  obtain ⟨-, hkind, -⟩ | ⟨-, hkind, -⟩ | ⟨hkind, hlength⟩ | ⟨-, -, hlength⟩ :=
    tokenAt?_cases htoken
  · simp [Token.isPlain, hkind] at htp
  · simp [Token.isPlain, hkind] at htp
  · obtain ⟨hukind, hd⟩ | ⟨hukind, -⟩ := hshape
    · refine .zero ?_ hukind
      rw [htext]
      exact eq_zero_of_numberLength hd (List.cons_ne_nil _ _) hlength
    · exact .word hkind hukind
  · -- A word goes on with digits and with whatever starts another word.
    have hcontinues : continuesWord d = true := by
      obtain ⟨-, hd⟩ | ⟨-, hd⟩ := hshape <;> simp [continuesWord, hd]
    exact absurd hlength.symm (spanLength_append_ne hcontinues x (y ++ rest))

/-- Numbers and words that follow each other touch or have a gap between them. -/
theorem Cut.apart_or_touching (h : Cut 0 text (before ++ t :: u :: after))
    (ht : t.isPlain = true) (hu : u.isPlain = true) : Apart text t u ∨ Touching t u := by
  obtain ⟨front, rest, rfl, hoffset, hcut, hafter, -⟩ := h.split (P := fun _ => True)
    (fun _ => id) (fun _ => id) trivial
  obtain ⟨gaps, back, hgaps, rfl, hoffset', hcut', -⟩ := hafter.head
  -- no gap between the two means that the second starts where the first ends
  cases gaps with
  | nil => exact Or.inr (hcut.touching hcut' ht hu)
  | cons g gaps =>
    exact Or.inl ⟨front, g :: gaps, back, List.cons_ne_nil _ _, hgaps, rfl,
      hoffset.trans (Nat.zero_add _), hoffset'⟩

end Lenient

/-- Numbers and words are not split just when each run of the text is a number or a word. Where one
has been cut off another, the second one starts with a minus, or is a word behind a number, or is a
number behind a zero. -/
theorem neverSplits_iff {text : Text} {v : Value} (h : Lenient.parse text = .ok v) :
    (NeverSplits text ↔ ∀ r ∈ runs text, IsNumber r ∨ isWord r = true) ∧
      ∀ before t u after, Lenient.lex text = .ok (before ++ t :: u :: after) →
        t.isPlain = true → u.isPlain = true → Apart text t u ∨ Touching t u := by
  -- a text that can be read can be cut
  obtain ⟨ts, hlex⟩ : ∃ ts, Lenient.lex text = .ok ts := by
    cases hlex : Lenient.lex text with
    | error f => rw [Lenient.parse, hlex] at h; contradiction
    | ok ts => exact ⟨ts, rfl⟩
  refine ⟨⟨fun hsplits r hr => ?_, fun hruns => ⟨?_, ?_⟩⟩, ?_⟩
  · rw [hsplits.whole ts hlex] at hr
    obtain ⟨t, ht, rfl⟩ := List.mem_map.mp hr
    obtain ⟨hmem, hplain⟩ := List.mem_filter.mp ht
    obtain ⟨before, after, rfl⟩ := List.append_of_mem hmem
    exact (Lenient.cut_of_lexFrom hlex).lexical hplain
  · intro before t u after hts ht hu
    exact (Lenient.cut_of_lexFrom hts).apart hruns ht hu
  · intro us hus
    exact (Lenient.cut_of_lexFrom hus).whole hruns
  · intro before t u after hts ht hu
    exact (Lenient.cut_of_lexFrom hts).apart_or_touching ht hu

/-- Numbers with every part, words, and a comment between two of them. -/
theorem neverSplits_members :
    Lenient.parse (Text.ofString "[-0.5E+3/**/null//\n10]") =
        .ok (.array [.number (Text.ofString "-0.5E+3"), .null, .number (Text.ofString "10")]) ∧
      runs (Text.ofString "[-0.5E+3/**/null//\n10]") =
        [Text.ofString "-0.5E+3", Text.ofString "null", Text.ofString "10"] ∧
      NeverSplits (Text.ofString "[-0.5E+3/**/null//\n10]") := by
  have hparse : Lenient.parse (Text.ofString "[-0.5E+3/**/null//\n10]") =
      .ok (.array [.number (Text.ofString "-0.5E+3"), .null, .number (Text.ofString "10")]) := by
    cbv
  have hruns : runs (Text.ofString "[-0.5E+3/**/null//\n10]") =
      [Text.ofString "-0.5E+3", Text.ofString "null", Text.ofString "10"] := by
    cbv
  refine ⟨hparse, hruns, (neverSplits_iff hparse).1.mpr ?_⟩
  rw [hruns]
  exact List.forall_mem_cons.mpr ⟨Or.inl ⟨by decide, by decide⟩,
    List.forall_mem_cons.mpr ⟨Or.inr (by decide),
      List.forall_mem_singleton.mpr (Or.inl ⟨by decide, by decide⟩)⟩⟩

/-- A number with a zero in front is read as two items; the canonical dialect refuses it. -/
theorem not_neverSplits_leadingZero :
    Lenient.parse (Text.ofString "[01]") =
        .ok (.array [.number (Text.ofString "0"), .number (Text.ofString "1")]) ∧
      Canonical.parse (Text.ofString "[01]") = .error (.atOffset "Expecting ',' delimiter" 2) ∧
      ¬ NeverSplits (Text.ofString "[01]") := by
  refine ⟨by cbv, by cbv, fun hsplits => ?_⟩
  have hlex : Lenient.lex (Text.ofString "[01]") = .ok
      [⟨.punctuation, Text.ofString "[", 0⟩, ⟨.number, Text.ofString "0", 1⟩,
        ⟨.number, Text.ofString "1", 2⟩, ⟨.punctuation, Text.ofString "]", 3⟩] := by
    cbv
  have hruns : runs (Text.ofString "[01]") = [Text.ofString "01"] := by cbv
  have hwhole := hsplits.whole _ hlex
  rw [hruns] at hwhole
  revert hwhole
  decide

end Dialects.Json
