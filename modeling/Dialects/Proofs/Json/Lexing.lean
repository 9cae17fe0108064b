import Dialects.Json.Token
import Dialects.Json.Printer
import Dialects.Proofs.Json.Number
import Dialects.Proofs.Json.Quoted

/-!
# Tokens from lexemes

Both dialects find the lexemes of a text again, whatever blanks stand between them.

`Lexeme s` says which pieces of text the dialect `s` has for tokens. `Reads s t ls` says that the
text `t` is cut into the lexemes `ls` wherever it stands in a document. It is built up from the
right: a blank or a punctuation mark may be put in front of any text (`Reads.blank`, `Reads.mark`),
any other lexeme in front of a text that ends it (`Reads.append`).
-/

namespace Dialects.Json

open CodePoint (scalar val_of_isBetween)
open Text (Stops spanLength)

/-! ## Classes of code points -/

/-- The numbers of the digits. -/
theorem val_of_isDigit {c : CodePoint} (h : c.isDigit = true) : 0x30 ≤ c.val ∧ c.val ≤ 0x39 :=
  val_of_isBetween h

/-- The numbers of the code points that start words. -/
theorem val_of_startsWord {c : CodePoint} (h : startsWord c = true) :
    c.val = 0x24 ∨ (0x41 ≤ c.val ∧ c.val ≤ 0x5A) ∨ c.val = 0x5F ∨
      (0x61 ≤ c.val ∧ c.val ≤ 0x7A) := by
  simp only [startsWord, CodePoint.isLatinLetter, Bool.or_eq_true, beq_iff_eq] at h
  obtain ((hlower | hupper) | rfl) | rfl := h
  · exact Or.inr (Or.inr (Or.inr (val_of_isBetween hlower)))
  · exact Or.inr (Or.inl (val_of_isBetween hupper))
  · exact Or.inr (Or.inr (Or.inl rfl))
  · exact Or.inl rfl

/-- Visible code points are not blank. -/
theorem isBlank_eq_false {c : CodePoint} (hlo : 0x20 < c.val) (hhi : c.val < 0x7F) :
    c.isBlank = false := by
  have hall : ∀ n < 0x7F, 0x20 < n → CodePoint.blanks.contains n = false := by decide
  exact hall c.val hhi hlo

/-- The numbers of the punctuation marks. -/
theorem val_of_isPunctuation {c : CodePoint} (h : Token.isPunctuation c = true) :
    c.val = 0x2C ∨ c.val = 0x3A ∨ c.val = 0x5B ∨ c.val = 0x5D ∨ c.val = 0x7B ∨ c.val = 0x7D := by
  simp only [Token.isPunctuation, List.contains_eq_mem, List.mem_cons, List.not_mem_nil, or_false,
    decide_eq_true_eq] at h
  obtain rfl | rfl | rfl | rfl | rfl | rfl := h <;> decide

theorem Canonical.isBlank_iff {c : CodePoint} : Canonical.isBlank c = true ↔
    c = scalar ' ' ∨ c = scalar '\t' ∨ c = scalar '\n' ∨ c = scalar '\r' := by
  simp only [Canonical.isBlank, List.contains_eq_mem, List.mem_cons, List.not_mem_nil, or_false,
    decide_eq_true_eq]

/-- The numbers of the blanks of the canonical dialect. -/
theorem Canonical.val_of_isBlank {c : CodePoint} (h : Canonical.isBlank c = true) :
    c.val ≤ 0x20 := by
  obtain rfl | rfl | rfl | rfl := Canonical.isBlank_iff.mp h <;> decide

theorem ne_of_val_ne {c : CodePoint} {x : Char} (h : c.val ≠ x.toNat) : c ≠ scalar x := by
  rintro rfl
  exact h rfl

/-! ## Lexemes -/

/-- The sort and the text of a token, which do not depend on its place. -/
def Token.lexeme (t : Token) : Kind × Text := (t.kind, t.text)

/-- Whether the dialect has a piece of text for a token of some sort. Only the lenient dialect has
words that stand for no value. -/
inductive Lexeme (s : Style) : Kind → Text → Prop where
  | mark (c : CodePoint) (h : Token.isPunctuation c = true) : Lexeme s .punctuation [c]
  | string (content : Text) : Lexeme s .string (encodeString content)
  | number (t : Text) (h : IsNumber t) : Lexeme s .number t
  | reserved (t : Text) (v : Value) (h : reserved? t = some v) : Lexeme s .word t
  | word (t : Text) (hs : s = .lenient) (h : isWord t = true) : Lexeme s .word t

/-- Whether a text ends every token that stands in front of it. -/
def Separates (t : Text) : Prop := Stops (fun c => continuesWord c || continuesNumber c) t

theorem Separates.word {t : Text} (h : Separates t) : Stops continuesWord t :=
  h.mono fun c hc => by rw [hc, Bool.true_or]

theorem Separates.number {t : Text} (h : Separates t) : Stops continuesNumber t :=
  h.mono fun c hc => by rw [hc, Bool.or_true]

/-- The tokens of a text whose first code point has the given offset, in either dialect. -/
def lexIn (s : Style) (offset : Nat) (text : Text) : Except Fault (List Token) :=
  match s with
  | .canonical => .ok (Canonical.lexFrom offset text)
  | .lenient => Lenient.lexFrom offset text

theorem lexIn_nil (s : Style) (offset : Nat) : lexIn s offset [] = .ok [] := by
  cases s with
  | canonical => rw [lexIn, Canonical.lexFrom]
  | lenient => rw [lexIn, Lenient.lexFrom]

/-! ## Blanks -/

/-- A blank starts a gap that goes on as far as blanks do. -/
theorem Lenient.gapLength_blank {c : CodePoint} (h : c.isBlank = true) (t : Text) :
    Lenient.gapLength (c :: t) = spanLength CodePoint.isBlank t + 1 := by
  have hslash : c ≠ scalar '/' := by
    rintro rfl
    revert h
    decide
  rw [Lenient.gapLength.eq_3 (c :: t) (fun _ h => hslash (List.cons.inj h).1)
    (fun _ h => hslash (List.cons.inj h).1), Text.spanLength_cons_of_pos h]

/-- A gap is skipped. -/
theorem Lenient.lexFrom_gap {c : CodePoint} {t : Text} {n : Nat}
    (h : Lenient.gapLength (c :: t) = n + 1) (offset : Nat) :
    Lenient.lexFrom offset (c :: t) = Lenient.lexFrom (offset + 1 + n) (t.drop n) := by
  rw [Lenient.lexFrom, h]

/-- Blanks in front of a text are skipped one by one. -/
theorem Lenient.lexFrom_blank {c : CodePoint} (h : c.isBlank = true) (offset : Nat) (t : Text) :
    Lenient.lexFrom offset (c :: t) = Lenient.lexFrom (offset + 1) t := by
  rw [Lenient.lexFrom_gap (Lenient.gapLength_blank h t)]
  -- where no blank follows, the gap is the one blank, and else it is one longer than the next gap
  by_cases hstops : Stops CodePoint.isBlank t
  · rw [hstops.spanLength_eq_zero]
    rfl
  · obtain ⟨d, u, rfl⟩ : ∃ d u, t = d :: u :=
      List.exists_cons_of_ne_nil fun hnil => hstops (by simp [hnil])
    have hd : d.isBlank = true := by simpa using hstops
    rw [Text.spanLength_cons_of_pos hd, Lenient.lexFrom_gap (Lenient.gapLength_blank hd u),
      List.drop_succ_cons, Nat.add_right_comm offset, Nat.add_assoc (offset + _),
      Nat.add_comm 1, Nat.add_right_comm offset]

/-- A space or a line feed belongs to no token. -/
theorem lexIn_blank {s : Style} {c : CodePoint} (h : c = scalar ' ' ∨ c = Text.newline)
    (offset : Nat) (t : Text) : lexIn s offset (c :: t) = lexIn s (offset + 1) t := by
  cases s with
  | canonical =>
    have hblank : Canonical.isBlank c = true := by obtain rfl | rfl := h <;> decide
    rw [lexIn, lexIn, Canonical.lexFrom, if_pos hblank]
  | lenient =>
    have hblank : c.isBlank = true := by obtain rfl | rfl := h <;> decide
    exact Lenient.lexFrom_blank hblank offset t

/-! ## Single lexemes -/

/-- How the canonical dialect cuts off a token. -/
theorem Canonical.lexFrom_token {kind : Kind} {c : CodePoint} {t rest : Text}
    (hblank : Canonical.isBlank c = false) (h : Canonical.tokenAt c (t ++ rest) = (kind, t.length))
    (offset : Nat) :
    Canonical.lexFrom offset (c :: t ++ rest)
      = ⟨kind, c :: t, offset⟩ :: Canonical.lexFrom (offset + (c :: t).length) rest := by
  rw [List.cons_append, Canonical.lexFrom, hblank, h, if_neg Bool.false_ne_true]
  simp only [List.take_left, List.drop_left, List.length_cons, Nat.add_assoc,
    Nat.add_comm 1 t.length]

/-- How the lenient dialect cuts off a token. -/
theorem Lenient.lexFrom_token {kind : Kind} {c : CodePoint} {t rest : Text}
    (hblank : c.isBlank = false) (hslash : c ≠ scalar '/')
    (h : Lenient.tokenAt? c (t ++ rest) = some (kind, t.length)) (offset : Nat) :
    Lenient.lexFrom offset (c :: t ++ rest)
      = (Lenient.lexFrom (offset + (c :: t).length) rest).map (⟨kind, c :: t, offset⟩ :: ·) := by
  -- what starts neither with a blank nor with a comment has no gap in front
  have hgap : Lenient.gapLength (c :: (t ++ rest)) = 0 := by
    rw [Lenient.gapLength.eq_3 _ (fun _ h => hslash (List.cons.inj h).1)
      (fun _ h => hslash (List.cons.inj h).1), Text.spanLength_cons_of_neg hblank]
  rw [List.cons_append, Lenient.lexFrom, hgap, h]
  simp only [List.take_left, List.drop_left, List.length_cons, Nat.add_assoc,
    Nat.add_comm 1 t.length]

/-- No word of the canonical dialect stands where a number does. -/
theorem Canonical.find?_words_eq_none {t : Text} (h : IsNumber t) (rest : Text) :
    Canonical.words.find? (Text.startsWith (t ++ rest) ·) = none := by
  -- each word starts with a letter, or with a minus and a letter
  have hwords : Canonical.words = [[scalar 'n', scalar 'u', scalar 'l', scalar 'l'],
    [scalar 't', scalar 'r', scalar 'u', scalar 'e'],
    [scalar 'f', scalar 'a', scalar 'l', scalar 's', scalar 'e'],
    [scalar 'N', scalar 'a', scalar 'N'],
    Text.ofString "Infinity", scalar '-' :: Text.ofString "Infinity"] := by decide
  have hinfinity : Text.ofString "Infinity" = scalar 'I' :: Text.ofString "nfinity" := by decide
  have hdigit {c : CodePoint} (hc : c.isDigit = true) (x : Char) (hx : 0x39 < x.toNat) :
      scalar x ≠ c :=
    (ne_of_val_ne (by have := val_of_isDigit hc; omega)).symm
  have hminus {c : CodePoint} (hc : c.isDigit = true) : scalar '-' ≠ c :=
    (ne_of_val_ne (by have := val_of_isDigit hc; rw [show '-'.toNat = 0x2D from rfl]; omega)).symm
  -- a number starts with a digit, or with a minus and a digit
  obtain ⟨c, u, rfl, hc | ⟨rfl, d, v, rfl, hd⟩⟩ := h.head
  · simp [hwords, hinfinity, Text.startsWith, Text.after?, hminus hc,
      hdigit hc 'n' (by decide), hdigit hc 't' (by decide), hdigit hc 'f' (by decide),
      hdigit hc 'N' (by decide), hdigit hc 'I' (by decide)]
  · simp [hwords, hinfinity, Text.startsWith, Text.after?, hdigit hd 'I' (by decide)]

/-- The words for values. -/
theorem reserved?_eq_some {t : Text} {v : Value} (h : reserved? t = some v) :
    (t = Text.ofString "true" ∧ v = .bool true) ∨
    (t = Text.ofString "false" ∧ v = .bool false) ∨
    (t = Text.ofString "null" ∧ v = .null) := by
  simp only [reserved?, reserved, List.lookup_cons, List.lookup_nil] at h
  split at h
  · next heq => exact Or.inl ⟨eq_of_beq heq, (Option.some.inj h).symm⟩
  split at h
  · next heq => exact Or.inr (Or.inl ⟨eq_of_beq heq, (Option.some.inj h).symm⟩)
  split at h
  · next heq => exact Or.inr (Or.inr ⟨eq_of_beq heq, (Option.some.inj h).symm⟩)
  · contradiction

/-- The words for values are words. -/
theorem isWord_of_reserved {t : Text} {v : Value} (h : reserved? t = some v) : isWord t = true := by
  obtain ⟨rfl, -⟩ | ⟨rfl, -⟩ | ⟨rfl, -⟩ := reserved?_eq_some h <;> decide

/-- The number of the code point at the start of a number. -/
theorem IsNumber.val_head {c : CodePoint} {t : Text} (h : IsNumber (c :: t)) :
    c.val = 0x2D ∨ (0x30 ≤ c.val ∧ c.val ≤ 0x39) := by
  obtain ⟨d, u, heq, hd⟩ := h.head
  obtain ⟨rfl, rfl⟩ := List.cons.inj heq
  obtain hd | ⟨rfl, -⟩ := hd
  · exact Or.inr (val_of_isDigit hd)
  · exact Or.inl rfl

/-- No number starts where a word does. -/
theorem numberLength_of_startsWord {c : CodePoint} (h : startsWord c = true) (t : Text) :
    numberLength (c :: t) = 0 := by
  have hval := val_of_startsWord h
  -- a word starts with a letter, so neither a sign nor a digit stands there
  have hminus : (c :: t).head? ≠ some (scalar '-') := by
    rw [List.head?_cons, ne_eq, Option.some.injEq]
    exact ne_of_val_ne (by rw [show '-'.toNat = 0x2D from rfl]; omega)
  rw [numberLength_of_head_ne hminus]
  refine unsignedLength_eq_zero (Decidable.byContradiction fun hinteger => ?_)
  obtain ⟨d, u, heq, hd⟩ := isDigit_head_of_integerLength hinteger
  obtain ⟨rfl, rfl⟩ := List.cons.inj heq
  have := val_of_isDigit hd
  omega

/-- The string at the start of a text is the one that was spelled. -/
theorem closingLength?_content (multiline : Bool) (content rest : Text) :
    closingLength? multiline ((content.flatMap stringUnit ++ [scalar '"']) ++ rest)
      = some (content.flatMap stringUnit ++ [scalar '"']).length := by
  rw [List.append_assoc, List.singleton_append, closingLength?_spelled, List.length_append]
  rfl

/-- The canonical dialect cuts off each of its lexemes. -/
theorem Canonical.tokenAt_lexeme {kind : Kind} {t rest : Text} (h : Lexeme .canonical kind t)
    (hrest : kind = .punctuation ∨ Separates rest) :
    ∃ c u, t = c :: u ∧ Canonical.isBlank c = false ∧
      Canonical.tokenAt c (u ++ rest) = (kind, u.length) := by
  have hblank {c : CodePoint} (hc : 0x20 < c.val) : Canonical.isBlank c = false := by
    rw [← Bool.not_eq_true]
    intro hb
    have := Canonical.val_of_isBlank hb
    omega
  cases h with
  | mark c hc =>
    refine ⟨c, [], rfl, hblank (by have := val_of_isPunctuation hc; omega), ?_⟩
    rw [Canonical.tokenAt, if_pos hc]
    rfl
  | string content =>
    refine ⟨scalar '"', content.flatMap stringUnit ++ [scalar '"'], rfl, by decide, ?_⟩
    rw [Canonical.tokenAt, if_neg (by decide), if_pos rfl, closingLength?_content]
    rfl
  | number t hnumber =>
    have hlength := numberLength_append (hrest.resolve_left (by simp)).number t
    -- a number is no word, is cut off as a whole, and starts with nothing else that is tried
    -- before
    have hwords := Canonical.find?_words_eq_none hnumber rest
    obtain ⟨c, u, rfl⟩ := List.exists_cons_of_ne_nil hnumber.1
    have hval := hnumber.val_head
    have hmark : ¬ Token.isPunctuation c = true := fun hmark => by
      have := val_of_isPunctuation hmark
      omega
    have hquote : c ≠ scalar '"' :=
      ne_of_val_ne (by rw [show '"'.toNat = 0x22 from rfl]; omega)
    refine ⟨c, u, rfl, hblank (by omega), ?_⟩
    rw [List.cons_append] at hlength hwords
    rw [Canonical.tokenAt, if_neg hmark, if_neg hquote, hwords, hlength, hnumber.2]
    rfl
  | reserved t v hreserved =>
    obtain ⟨rfl, -⟩ | ⟨rfl, -⟩ | ⟨rfl, -⟩ := reserved?_eq_some hreserved
    · exact ⟨_, _, rfl, by decide, rfl⟩
    · exact ⟨_, _, rfl, by decide, rfl⟩
    · exact ⟨_, _, rfl, by decide, rfl⟩
  | word t hs => contradiction

/-- The lenient dialect cuts off each word. -/
theorem Lenient.tokenAt?_word {t rest : Text} (hword : isWord t = true) (hrest : Separates rest) :
    ∃ c u, t = c :: u ∧ c.isBlank = false ∧ c ≠ scalar '/' ∧
      Lenient.tokenAt? c (u ++ rest) = some (.word, u.length) := by
  obtain ⟨c, u, rfl⟩ : ∃ c u, t = c :: u :=
    List.exists_cons_of_ne_nil (by rintro rfl; contradiction)
  simp only [isWord, Bool.and_eq_true, List.all_eq_true] at hword
  obtain ⟨hstart, hall⟩ := hword
  have hval := val_of_startsWord hstart
  have hmark : ¬ Token.isPunctuation c = true := fun hmark => by
    have := val_of_isPunctuation hmark
    omega
  -- the first code point of a word is none of those that are tried before
  have hquote : c ≠ scalar '"' :=
    ne_of_val_ne (by rw [show '"'.toNat = 0x22 from rfl]; omega)
  have hslash : c ≠ scalar '/' :=
    ne_of_val_ne (by rw [show '/'.toNat = 0x2F from rfl]; omega)
  refine ⟨c, u, rfl, isBlank_eq_false (by omega) (by omega), hslash, ?_⟩
  rw [Lenient.tokenAt?, if_neg hmark, if_neg hquote, numberLength_of_startsWord hstart]
  simp only [hstart, if_true, Text.spanLength_append_of_all hall, hrest.word.spanLength_eq_zero,
    Nat.add_zero]

/-- The lenient dialect cuts off each of its lexemes. -/
theorem Lenient.tokenAt?_lexeme {kind : Kind} {t rest : Text} (h : Lexeme .lenient kind t)
    (hrest : kind = .punctuation ∨ Separates rest) :
    ∃ c u, t = c :: u ∧ c.isBlank = false ∧ c ≠ scalar '/' ∧
      Lenient.tokenAt? c (u ++ rest) = some (kind, u.length) := by
  cases h with
  | mark c hc =>
    have hval := val_of_isPunctuation hc
    have hslash : c ≠ scalar '/' :=
      ne_of_val_ne (by rw [show '/'.toNat = 0x2F from rfl]; omega)
    refine ⟨c, [], rfl, isBlank_eq_false (by omega) (by omega), hslash, ?_⟩
    rw [Lenient.tokenAt?, if_pos hc]
    rfl
  | string content =>
    refine ⟨scalar '"', content.flatMap stringUnit ++ [scalar '"'], rfl, by decide, by decide, ?_⟩
    rw [Lenient.tokenAt?, if_neg (by decide), if_pos rfl, closingLength?_content]
    rfl
  | number t hnumber =>
    have hlength := numberLength_append (hrest.resolve_left (by simp)).number t
    obtain ⟨c, u, rfl⟩ := List.exists_cons_of_ne_nil hnumber.1
    have hval := hnumber.val_head
    -- the first code point of a number is none of those that are tried before
    have hmark : ¬ Token.isPunctuation c = true := fun hmark => by
      have := val_of_isPunctuation hmark
      omega
    have hquote : c ≠ scalar '"' :=
      ne_of_val_ne (by rw [show '"'.toNat = 0x22 from rfl]; omega)
    have hslash : c ≠ scalar '/' :=
      ne_of_val_ne (by rw [show '/'.toNat = 0x2F from rfl]; omega)
    refine ⟨c, u, rfl, isBlank_eq_false (by omega) (by omega), hslash, ?_⟩
    rw [List.cons_append] at hlength
    rw [Lenient.tokenAt?, if_neg hmark, if_neg hquote, hlength, hnumber.2]
    rfl
  | reserved t v hreserved =>
    exact Lenient.tokenAt?_word (isWord_of_reserved hreserved) (hrest.resolve_left (by simp))
  | word t _ hword => exact Lenient.tokenAt?_word hword (hrest.resolve_left (by simp))

/-- Both dialects cut off each of their lexemes. -/
theorem lexIn_lexeme {s : Style} {kind : Kind} {t rest : Text} (h : Lexeme s kind t)
    (hrest : kind = .punctuation ∨ Separates rest) (offset : Nat) :
    lexIn s offset (t ++ rest)
      = (lexIn s (offset + t.length) rest).map (⟨kind, t, offset⟩ :: ·) := by
  cases s with
  | canonical =>
    obtain ⟨c, u, rfl, hblank, htoken⟩ := Canonical.tokenAt_lexeme h hrest
    rw [lexIn, Canonical.lexFrom_token hblank htoken]
    rfl
  | lenient =>
    obtain ⟨c, u, rfl, hblank, hslash, htoken⟩ := Lenient.tokenAt?_lexeme h hrest
    exact Lenient.lexFrom_token hblank hslash htoken offset

/-! ## Texts of several lexemes -/

/-- The dialect cuts a text into these lexemes, wherever the text stands. -/
def Reads (s : Style) (t : Text) (ls : List (Kind × Text)) : Prop :=
  ∀ offset rest, Separates rest → ∃ ts : List Token, ts.map Token.lexeme = ls ∧
    lexIn s offset (t ++ rest) = (lexIn s (offset + t.length) rest).map (ts ++ ·)

namespace Reads

variable {s : Style} {t u : Text} {ls ms : List (Kind × Text)}

theorem lexeme {kind : Kind} (h : Lexeme s kind t) : Reads s t [(kind, t)] := by
  intro offset rest hrest
  exact ⟨[⟨kind, t, offset⟩], rfl, lexIn_lexeme h (Or.inr hrest) offset⟩

/-- Blanks may stand in front of any text. -/
theorem blank {c : CodePoint} (hc : c = scalar ' ' ∨ c = Text.newline) (h : Reads s t ls) :
    Reads s (c :: t) ls := by
  intro offset rest hrest
  obtain ⟨ts, hts, hlex⟩ := h (offset + 1) rest hrest
  refine ⟨ts, hts, ?_⟩
  rw [List.cons_append, lexIn_blank hc, hlex, List.length_cons, Nat.add_right_comm, Nat.add_assoc]

/-- Punctuation marks may stand in front of any text. -/
theorem mark {c : CodePoint} (hc : Token.isPunctuation c = true) (h : Reads s t ls) :
    Reads s (c :: t) ((.punctuation, [c]) :: ls) := by
  intro offset rest hrest
  obtain ⟨ts, hts, hlex⟩ := h (offset + 1) rest hrest
  refine ⟨⟨.punctuation, [c], offset⟩ :: ts, by rw [List.map_cons, hts]; rfl, ?_⟩
  have hmark : lexIn s offset (c :: (t ++ rest))
      = (lexIn s (offset + 1) (t ++ rest)).map (⟨.punctuation, [c], offset⟩ :: ·) :=
    lexIn_lexeme (.mark c hc) (Or.inl rfl) offset
  rw [List.cons_append, hmark, hlex, List.length_cons,
    Nat.add_right_comm, Nat.add_assoc]
  cases lexIn s (offset + (t.length + 1)) rest <;> rfl

/-- Texts may follow each other if the second one ends the tokens of the first. -/
theorem append (ht : Reads s t ls) (hu : Reads s u ms) (hsep : Separates u) :
    Reads s (t ++ u) (ls ++ ms) := by
  intro offset rest hrest
  obtain ⟨ts, hts, hlex⟩ := ht offset (u ++ rest) (hsep.append hrest)
  obtain ⟨us, hus, hlex'⟩ := hu (offset + t.length) rest hrest
  refine ⟨ts ++ us, by rw [List.map_append, hts, hus], ?_⟩
  rw [List.append_assoc, hlex, hlex', List.length_append, Nat.add_assoc]
  cases lexIn s (offset + (t.length + u.length)) rest with
  | error f => rfl
  | ok vs => simp [Except.map]

/-- A text that stands by itself. -/
theorem lexIn_zero (h : Reads s t ls) :
    ∃ ts : List Token, ts.map Token.lexeme = ls ∧ lexIn s 0 t = .ok ts := by
  obtain ⟨ts, hts, hlex⟩ := h 0 [] (Text.stops_nil _)
  refine ⟨ts, hts, ?_⟩
  rw [List.append_nil, lexIn_nil] at hlex
  simpa [Except.map] using hlex

end Reads

end Dialects.Json
