import Dialects.Proofs.Json.RoundTrip

/-!
# The lenient dialect extends the canonical one

A text that spells a document in the canonical dialect spells the same document in the lenient one
(`canonical_read_leniently`), so that a text which was never shown in the lenient dialect can be
saved as if it had been. The canonical dialect reports a token that is out of place only when it is
reached. Hence the tokens are compared along with what is read of them: as long as every step is
taken, the lenient dialect finds the same tokens (`Lenient.lexFrom_of_run`), and it takes the same
steps (`Step.lenient`).
-/

namespace Dialects.Json

open CodePoint (scalar)

/-! ## Where a string ends

A string that can be decoded has no line feed outside an escape, so that both dialects look for its
end in the same way. -/

section Closing

variable {multiline : Bool} {whole n : Nat} {c x : CodePoint} {t rest : Text}

theorem ne_of_hexValue? (h : c.hexValue? = some n) {d : Char}
    (hd : (scalar d).hexValue? = none) : c ≠ scalar d := by
  rintro rfl
  rw [hd] at h
  contradiction

/-- Four hexadecimal digits are plain code points of a string. -/
theorem closes_of_fourDigits? (h : fourDigits? t = some (n, rest))
    (hrest : (closingLength? multiline rest).isSome) : (closingLength? multiline t).isSome := by
  -- a hexadecimal digit is no quotation mark, no backslash and no line feed
  have plain {c : CodePoint} {n : Nat} (hc : c.hexValue? = some n) {t : Text}
      (ht : (closingLength? multiline t).isSome) :
      (closingLength? multiline (c :: t)).isSome := by
    rw [closingLength?_plain multiline (ne_of_hexValue? hc (by decide))
      (ne_of_hexValue? hc (by decide)) (ne_of_hexValue? hc (by decide)), Option.isSome_map]
    exact ht
  unfold fourDigits? at h
  split at h
  · split at h
    · next ha hb hc hd =>
      obtain ⟨-, rfl⟩ := Prod.mk.inj (Option.some.inj h)
      exact plain ha (plain hb (plain hc (plain hd hrest)))
    · contradiction
  · contradiction

theorem closes_of_pairWith? (h : pairWith? n t = .ok (x, rest))
    (hrest : (closingLength? multiline rest).isSome) : (closingLength? multiline t).isSome := by
  have same {y : CodePoint} (hsame : Except.ok (y, t) = (.ok (x, rest) : Except StringFault _)) :
      (closingLength? multiline t).isSome := by
    obtain ⟨-, rfl⟩ := Prod.mk.inj (Except.ok.inj hsame)
    exact hrest
  unfold pairWith? at h
  split at h
  · split at h
    · next hpair =>
      simp only [Bool.and_eq_true, beq_iff_eq] at hpair
      obtain ⟨⟨⟨-, rfl⟩, rfl⟩, -⟩ := hpair
      split at h
      · contradiction
      · next hdigits =>
        split at h
        · -- The partner is an escape of its own, with a letter and four digits.
          obtain ⟨-, rfl⟩ := Prod.mk.inj (Except.ok.inj h)
          rw [closingLength?_escape, Option.isSome_map]
          exact closes_of_fourDigits? hdigits hrest
        · exact same h
    · exact same h
  · exact same h

theorem closes_of_escape (h : escape whole t = .ok (x, rest))
    (hrest : (closingLength? multiline rest).isSome) :
    (closingLength? multiline (scalar '\\' :: t)).isSome := by
  unfold escape at h
  split at h
  · contradiction
  · rw [closingLength?_escape, Option.isSome_map]
    split at h
    · split at h
      · contradiction
      · next hdigits => exact closes_of_fourDigits? hdigits (closes_of_pairWith? h hrest)
    · split at h
      · obtain ⟨-, rfl⟩ := Prod.mk.inj (Except.ok.inj h)
        exact hrest
      · contradiction

/-- A string that can be decoded ends on the line on which it starts. -/
theorem closes_of_stringBody {content : Text} (h : stringBody whole t = .ok content) :
    (closingLength? false t).isSome := by
  fun_induction stringBody whole t generalizing content with
  | case1 => contradiction
  | case2 rest =>
    rw [closingLength?_quote]
    rfl
  | case3 => contradiction
  | case4 rest x rest' hescape _ _ ih =>
    cases hrest : stringBody whole rest' with
    | error f => rw [hrest] at h; contradiction
    | ok content => exact closes_of_escape hescape (ih hrest)
  | case5 => contradiction
  | case6 c rest hquote hslash hcontrol ih =>
    -- A line feed is a control character.
    have hline : c ≠ Text.newline := by
      rintro rfl
      exact hcontrol (by decide)
    rw [closingLength?_plain false hquote hslash hline, Option.isSome_map]
    cases hrest : stringBody whole rest with
    | error f => rw [hrest] at h; contradiction
    | ok content => exact ih hrest

/-- Neither what follows a string nor a dialect that admits line feeds changes where it ends. -/
theorem closingLength?_mono (h : closingLength? false t = some n) (multiline : Bool) (rest : Text) :
    closingLength? multiline (t ++ rest) = some n := by
  -- the induction is on the code points up to the closing quotation mark
  fun_induction closingLength? false t generalizing n with
  | case1 => contradiction
  | case2 c t ih =>
    obtain ⟨m, hm, rfl⟩ := Option.map_eq_some_iff.mp h
    rw [List.cons_append, List.cons_append, closingLength?_escape, ih hm, Option.map_some]
  | case3 => contradiction
  | case4 t =>
    rw [List.cons_append, closingLength?_quote]
    exact h
  | case5 => contradiction
  | case6 c t hescape hlast hquote hline ih =>
    obtain ⟨m, hm, rfl⟩ := Option.map_eq_some_iff.mp h
    -- a code point behind which nothing ends the string escapes nothing
    have hslash : c ≠ scalar '\\' := by
      intro hc
      cases t with
      | nil => exact hlast hc rfl
      | cons d t => exact hescape d t hc rfl
    have hline' : c ≠ Text.newline := by simpa using hline
    rw [List.cons_append, closingLength?_plain multiline hquote hslash hline', ih hm,
      Option.map_some]

end Closing

/-! ## Steps -/

section Steps

variable {s s' : State} {t : Token}

theorem runIn_lenient {d : Style} {ts : List Token} (h : runIn d s ts = .ok s') :
    runIn .lenient s ts = .ok s' := by
  induction ts generalizing s with
  | nil => exact h
  | cons t ts ih =>
    obtain ⟨next, hstep, hrest⟩ := runIn_cons_eq_ok_iff.mp h
    rw [runIn_cons hstep.lenient]
    exact ih hrest

/-- What a step of the canonical dialect may read. -/
theorem Step.canonical_cases (h : Step .canonical t s s') :
    t.kind = .punctuation ∨ t.kind = .number ∨
      (t.kind = .string ∧ ∃ content, decodeString t.text = .ok content) ∨
      t.kind = .word ∧ ∃ v outer, reserved? t.text = some v ∧ s' = .deliver v outer := by
  -- where a value may start the canonical dialect reads the same tokens as everywhere else
  have hbegins {outer : List Frame} {s' : State} (h : Begins t outer s') :
      t.kind = .punctuation ∨ t.kind = .number ∨
        (t.kind = .string ∧ ∃ content, decodeString t.text = .ok content) ∨
        t.kind = .word ∧ ∃ v outer, reserved? t.text = some v ∧ s' = .deliver v outer := by
    cases h with
    | object opens | array opens => exact Or.inl (kind_of_isMark opens)
    | value stands =>
      cases stands with
      | string kind decoded => exact Or.inr (Or.inr (Or.inl ⟨kind, _, decoded⟩))
      | number kind => exact Or.inr (Or.inl kind)
      | word kind reserved => exact Or.inr (Or.inr (Or.inr ⟨kind, _, _, reserved, rfl⟩))
  cases h with
  | value begins | item _ begins => exact hbegins begins
  | itemComma hmark | itemClose _ hmark | keyComma hmark | keyClose _ hmark | colon hmark =>
    exact Or.inl (kind_of_isMark hmark)
  | key _ names quoted =>
    have hkind : t.kind = .string := quoted.resolve_right (by decide)
    cases names with
    | string _ decoded => exact Or.inr (Or.inr (Or.inl ⟨hkind, _, decoded⟩))
    | word kind => rw [hkind] at kind; contradiction

/-- Behind a value only a mark is read. -/
theorem Step.kind_of_deliver {v : Value} {outer : List Frame}
    (h : Step .canonical t (.deliver v outer) s') : t.kind = .punctuation := by
  match outer with
  | [] => cases h
  | .array o before :: outer =>
    cases h with
    | item ready => exact absurd rfl (ready.resolve_right (by decide))
    | itemComma comma => exact kind_of_isMark comma
    | itemClose _ closes => exact kind_of_isMark closes
  | .member o before k :: outer =>
    cases h with
    | key ready => exact absurd rfl (ready.resolve_right (by decide))
    | keyComma comma => exact kind_of_isMark comma
    | keyClose _ closes => exact kind_of_isMark closes

end Steps

/-! ## Tokens -/

section Tokens

variable {s s' : State} {c : CodePoint} {rest text : Text} {kind : Kind} {n offset : Nat}

/-- What a token of the canonical dialect is found by. -/
theorem Canonical.tokenAt_cases (h : Canonical.tokenAt c rest = (kind, n)) :
    (Token.isPunctuation c = true ∧ kind = .punctuation ∧ n = 0) ∨
      ¬ Token.isPunctuation c = true ∧
        ((c = scalar '"' ∧ kind = .string ∧ n = (closingLength? true rest).getD rest.length) ∨
          c ≠ scalar '"' ∧
            ((∃ w, w <+: c :: rest ∧ kind = .word ∧ n = w.length - 1) ∨
              (kind = .number ∧ numberLength (c :: rest) = n + 1) ∨ kind = .junk)) := by
  unfold Canonical.tokenAt at h
  split at h
  · next hmark =>
    obtain ⟨rfl, rfl⟩ := Prod.mk.inj h
    exact Or.inl ⟨hmark, rfl, rfl⟩
  next hmark =>
  -- from here on the code point is no mark
  refine Or.inr ⟨hmark, ?_⟩
  split at h
  · next hquote =>
    obtain ⟨rfl, rfl⟩ := Prod.mk.inj h
    exact Or.inl ⟨hquote, rfl, rfl⟩
  next hquote =>
  -- from here on it is no quotation mark either
  refine Or.inr ⟨hquote, ?_⟩
  split at h
  · next w hw =>
    obtain ⟨rfl, rfl⟩ := Prod.mk.inj h
    exact Or.inl ⟨w, Text.startsWith_iff.mp (List.find?_some hw), rfl, rfl⟩
  · split at h
    · obtain ⟨rfl, -⟩ := Prod.mk.inj h
      exact Or.inr (Or.inr rfl)
    · next m hm =>
      obtain ⟨rfl, rfl⟩ := Prod.mk.inj h
      exact Or.inr (Or.inl ⟨rfl, hm⟩)

/-- Behind a value the text goes on with a blank or a mark, or it ends. -/
theorem Canonical.separates_of_run {v : Value} {outer : List Frame}
    (h : runIn .canonical (.deliver v outer) (Canonical.lexFrom offset text) = .ok s') :
    Separates text := by
  cases text with
  | nil => exact Text.stops_nil _
  | cons c rest =>
    by_cases hblank : Canonical.isBlank c = true
    · refine (Text.stops_cons _ c rest).mpr ?_
      obtain rfl | rfl | rfl | rfl := Canonical.isBlank_iff.mp hblank <;> decide
    · -- what is read behind a value is a mark, so that the next token is one
      cases htoken : Canonical.tokenAt c rest with
      | mk kind n =>
        rw [Canonical.lexFrom, if_neg hblank, htoken] at h
        obtain ⟨next, hstep, -⟩ := runIn_cons_eq_ok_iff.mp h
        obtain rfl : kind = .punctuation := hstep.kind_of_deliver
        rcases Canonical.tokenAt_cases htoken with ⟨hmark, -⟩ | ⟨-, ⟨-, hkind, -⟩ |
          ⟨-, ⟨-, -, hkind, -⟩ | ⟨hkind, -⟩ | hkind⟩⟩
        · exact separates_of_head (Or.inr hmark)
        all_goals contradiction

/-- A token that is read in the canonical dialect is found by the lenient one. -/
theorem Lenient.tokenAt?_of_canonical (htoken : Canonical.tokenAt c rest = (kind, n))
    (hstep : Step .canonical ⟨kind, c :: rest.take n, offset⟩ s s')
    (hrest : kind = .word → Separates (rest.drop n)) :
    c.isBlank = false ∧ c ≠ scalar '/' ∧ Lenient.tokenAt? c rest = some (kind, n) := by
  have hslash (hval : c.val ≠ 0x2F) : c ≠ scalar '/' :=
    ne_of_val_ne (by rw [show '/'.toNat = 0x2F from rfl]; exact hval)
  rcases Canonical.tokenAt_cases htoken with ⟨hmark, rfl, rfl⟩ | ⟨hmark, ⟨rfl, rfl, hn⟩ |
    ⟨hquote, ⟨w, hw, rfl, hn⟩ | ⟨rfl, hn⟩ | rfl⟩⟩
  · have hval := val_of_isPunctuation hmark
    refine ⟨isBlank_eq_false (by omega) (by omega), hslash (by omega), ?_⟩
    rw [Lenient.tokenAt?, if_pos hmark]
  · -- The string can be decoded, so that its end is where both dialects find it.
    refine ⟨by decide, by decide, ?_⟩
    rcases hstep.canonical_cases with hkind | hkind | ⟨-, content, hcontent⟩ | ⟨hkind, -⟩
    · contradiction
    · contradiction
    · obtain ⟨k, hk⟩ := Option.isSome_iff_exists.mp (closes_of_stringBody hcontent)
      have hwhole (multiline : Bool) : closingLength? multiline rest = some k := by
        rw [← List.take_append_drop n rest]
        exact closingLength?_mono hk multiline _
      obtain rfl : n = k := by rw [hn, hwhole, Option.getD_some]
      rw [Lenient.tokenAt?, if_neg hmark, if_pos rfl, hwhole, Option.map_some]
    · contradiction
  · -- A word that is read stands for a value, and no word goes on behind it.
    rcases hstep.canonical_cases with hkind | hkind | ⟨hkind, -⟩ | ⟨-, v, outer, hv, -⟩
    · contradiction
    · contradiction
    · contradiction
    · obtain ⟨d, u, heq, hblank, hd, hword⟩ :=
        Lenient.tokenAt?_word (isWord_of_reserved hv) (hrest rfl)
      obtain ⟨rfl, rfl⟩ := List.cons.inj heq
      have hlength : (rest.take n).length = n := by
        have hle := hw.length_le
        rw [List.length_cons] at hle
        rw [List.length_take]
        omega
      rw [List.take_append_drop, hlength] at hword
      exact ⟨hblank, hd, hword⟩
  · have hval := (isNumber_cons_take hn).val_head
    refine ⟨isBlank_eq_false (by omega) (by omega), hslash (by omega), ?_⟩
    rw [Lenient.tokenAt?, if_neg hmark, if_neg hquote, hn]
  · rcases hstep.canonical_cases with hkind | hkind | ⟨hkind, -⟩ | ⟨hkind, -⟩ <;> contradiction

/-- As far as a text is read in the canonical dialect, the lenient one finds the same tokens. -/
theorem Lenient.lexFrom_of_run
    (h : runIn .canonical s (Canonical.lexFrom offset text) = .ok s') :
    Lenient.lexFrom offset text = .ok (Canonical.lexFrom offset text) := by
  fun_induction Canonical.lexFrom offset text generalizing s with
  | case1 => rw [Lenient.lexFrom]
  | case2 offset c rest hblank ih =>
    -- a blank of the canonical dialect is one of the lenient dialect
    have hblank' : c.isBlank = true := by
      obtain rfl | rfl | rfl | rfl := Canonical.isBlank_iff.mp hblank <;> decide
    rw [Lenient.lexFrom_blank hblank']
    exact ih h
  | case3 offset c rest hblank kind n htoken ih =>
    obtain ⟨next, hstep, hrun⟩ := runIn_cons_eq_ok_iff.mp h
    -- a word has to be followed by a separator, which the rest of the run brings about
    obtain ⟨hblank', hslash, htoken'⟩ := Lenient.tokenAt?_of_canonical htoken hstep fun hkind => by
      subst hkind
      rcases hstep.canonical_cases with hkind | hkind | ⟨hkind, -⟩ | ⟨-, v, outer, -, rfl⟩
      · contradiction
      · contradiction
      · contradiction
      · exact Canonical.separates_of_run hrun
    -- nothing is skipped, since the token starts with neither a blank nor a slash
    have hgap : Lenient.gapLength (c :: rest) = 0 := by
      rw [Lenient.gapLength.eq_3 _ (fun _ h => hslash (List.cons.inj h).1)
        (fun _ h => hslash (List.cons.inj h).1), Text.spanLength_cons_of_neg hblank']
    rw [Lenient.lexFrom, hgap, htoken']
    simp only [ih hrun]
    rfl

end Tokens

/-! ## Documents -/

variable {t : Text} {v : Value}

/-- A document in the canonical dialect is read alike in the lenient one. -/
theorem Lenient.parse_of_canonical (h : Canonical.parse t = .ok v) : Lenient.parse t = .ok v := by
  obtain ⟨-, hrun⟩ := Canonical.parse_eq_ok_iff.mp h
  exact Lenient.parse_eq_ok_iff.mpr
    ⟨Canonical.lex t, Lenient.lexFrom_of_run hrun, runIn_lenient hrun⟩

/-- A blank text has no tokens. -/
theorem Lenient.lexFrom_of_blank (hblank : Text.isBlank t = true) (offset : Nat) :
    Lenient.lexFrom offset t = .ok [] := by
  induction t generalizing offset with
  | nil => rw [Lenient.lexFrom]
  | cons c t ih =>
    rw [Text.isBlank, List.all_cons, Bool.and_eq_true] at hblank
    rw [Lenient.lexFrom_blank hblank.1]
    exact ih hblank.2 (offset + 1)

/-- A blank text is no document. -/
theorem Lenient.not_blank_of_parse (h : Lenient.parse t = .ok v) : Text.isBlank t = false := by
  refine Bool.eq_false_iff.mpr fun hblank => ?_
  rw [Lenient.parse, Lenient.lex, Lenient.lexFrom_of_blank hblank] at h
  contradiction

/-- Every document in the canonical dialect is one in the lenient dialect and says the same there.
Hence it can be saved without having been shown: that succeeds, at any indents, and gives the text
that it gives when the document has been shown before, which spells the same document. -/
theorem canonical_read_leniently (h : Canonical.parse t = .ok v) (i j : Int) :
    Lenient.parse t = .ok v ∧
      ∃ c, toCanonical i t = .ok c ∧ (do toCanonical i (← toLenient j t)) = .ok c ∧
        Canonical.parse c = .ok v := by
  have hread := Lenient.parse_of_canonical h
  have hblank := Lenient.not_blank_of_parse hread
  have hwf := Canonical.parse_wellFormed h
  let shown : Layout := ⟨.lenient, (max 1 j).toNat⟩
  let saved : Layout := ⟨.canonical, (max 1 i).toNat⟩
  refine ⟨hread, saved.document v, reprint_of_parse saved hblank hread, ?_,
    Canonical.parse_document rfl hwf⟩
  -- What is shown spells the document as well.
  have hshown : toLenient j t = .ok (shown.document v) := reprint_of_parse shown hblank h
  rw [hshown]
  exact reprint_of_parse saved (shown.document_not_blank hwf) (Lenient.parse_document shown hwf)

/-- A text with a comma, with a number that ends in a zero and with slashes in a string. -/
theorem canonical_read_leniently_array :
    Canonical.parse (Text.ofString "[1.50,\"//\"]") =
        .ok (.array [.number (Text.ofString "1.50"), .string (Text.ofString "//")]) ∧
      Lenient.parse (Text.ofString "[1.50,\"//\"]") =
        .ok (.array [.number (Text.ofString "1.50"), .string (Text.ofString "//")]) ∧
      ∃ c, toCanonical 2 (Text.ofString "[1.50,\"//\"]") = .ok c ∧
        (do toCanonical 2 (← toLenient 4 (Text.ofString "[1.50,\"//\"]"))) = .ok c ∧
        Canonical.parse c =
          .ok (.array [.number (Text.ofString "1.50"), .string (Text.ofString "//")]) := by
  have hparse : Canonical.parse (Text.ofString "[1.50,\"//\"]") =
      .ok (.array [.number (Text.ofString "1.50"), .string (Text.ofString "//")]) := by
    cbv
  exact ⟨hparse, canonical_read_leniently hparse 2 4⟩

end Dialects.Json
