import Mathlib
import Dialects.Json.Convert
import Dialects.Proofs.Json.Reading

/-!
# Documents survive the change of dialect

A printed document is read back as the document that was printed (`Canonical.parse_document`,
`Lenient.parse_document`). A text that was shown in the lenient dialect can therefore be saved
again, and neither saving it nor showing or laying it out once more changes what it says
(`json_shown_then_saved`). Laying out any text in the lenient dialect is saving it and showing what
was saved, also where that fails (`normalize_eq_saved_then_shown`).
-/

namespace Dialects.Json

open CodePoint (scalar)

/-! ## Reading back a document -/

/-- A printed value starts with a visible code point. -/
theorem Layout.value_head (l : Layout) (level : Nat) {v : Value} (h : v.WellFormed) :
    ∃ c t, l.value level v = c :: t ∧ 0x20 < c.val ∧ c.val < 0x7F := by
  have enclosed (opener closer : Char) (items : List Text) :
      ∃ t, l.enclose opener closer level items = scalar opener :: t := by
    unfold Layout.enclose
    split
    · exact ⟨_, rfl⟩
    · exact ⟨_, rfl⟩
  cases h with
  | null => exact ⟨_, _, rfl, by decide, by decide⟩
  | bool b => cases b <;> exact ⟨_, _, rfl, by decide, by decide⟩
  | number u hnumber =>
    -- a number starts with a digit or a minus sign
    obtain ⟨c, t, rfl⟩ := List.exists_cons_of_ne_nil hnumber.1
    have hval := hnumber.val_head
    exact ⟨c, t, rfl, by omega, by omega⟩
  | string content => exact ⟨_, _, rfl, by decide, by decide⟩
  | array items _ =>
    obtain ⟨t, ht⟩ := enclosed '[' ']' (l.items (level + 1) items)
    exact ⟨_, t, ht, by decide, by decide⟩
  | object members _ =>
    obtain ⟨t, ht⟩ := enclosed '{' '}' (l.members (level + 1) members)
    exact ⟨_, t, ht, by decide, by decide⟩

/-- No document is printed as a blank text. -/
theorem Layout.document_not_blank (l : Layout) {v : Value} (h : v.WellFormed) :
    Text.isBlank (l.document v) = false := by
  obtain ⟨c, t, ht, hlo, hhi⟩ := l.value_head 0 h
  rw [Layout.document, ht, List.cons_append, Text.isBlank, List.all_cons,
    isBlank_eq_false hlo hhi, Bool.false_and]

/-- A document printed in the canonical dialect is read back. -/
theorem Canonical.parse_document {l : Layout} (hl : l.style = .canonical) {v : Value}
    (h : v.WellFormed) : Canonical.parse (l.document v) = .ok v := by
  -- a printed value starts with an ASCII character, hence with no byte order mark
  obtain ⟨c, t, ht, -, hhi⟩ := l.value_head 0 h
  have hmark : (l.document v).head? ≠ some Canonical.byteOrderMark := by
    rw [Layout.document, ht, List.cons_append, List.head?_cons, ne_eq, Option.some.injEq]
    exact ne_of_val_ne (by rw [show '\ufeff'.toNat = 0xFEFF from rfl]; omega)
  obtain ⟨ts, hts, hlex⟩ := Layout.lexIn_document (s := .canonical) (Or.inl hl) h
  have hrun := spells_lexemes (s := .canonical) (Or.inl hl) h _ _ ts (expects_value []) hts
  obtain rfl : Canonical.lex (l.document v) = ts := Except.ok.inj hlex
  exact Canonical.parse_eq_ok_iff.mpr ⟨hmark, hrun⟩

/-- A document printed in either dialect is read back in the lenient one. -/
theorem Lenient.parse_document (l : Layout) {v : Value} (h : v.WellFormed) :
    Lenient.parse (l.document v) = .ok v := by
  obtain ⟨ts, hts, hlex⟩ := Layout.lexIn_document (s := .lenient) (l := l) (Or.inr rfl) h
  have hrun := spells_lexemes (s := .lenient) (Or.inr rfl) h _ _ ts (expects_value []) hts
  exact Lenient.parse_eq_ok_iff.mpr ⟨ts, hlex, hrun⟩

/-! ## Conversions -/

/-- A text that is not blank is read and printed. -/
theorem reprint_eq_ok {parse : Text → Except Fault Value} {l : Layout} {t u : Text}
    (h : reprint parse l t = .ok u) :
    (Text.isBlank t = true ∧ u = []) ∨
      (Text.isBlank t = false ∧ ∃ v, parse t = .ok v ∧ u = l.document v) := by
  unfold reprint at h
  split at h
  · next hblank => exact Or.inl ⟨hblank, (Except.ok.inj h).symm⟩
  · next hblank =>
    split at h
    · next v hv =>
      exact Or.inr ⟨Bool.eq_false_iff.mpr hblank, v, hv, (Except.ok.inj h).symm⟩
    · contradiction

theorem reprint_of_parse {parse : Text → Except Fault Value} (l : Layout) {t : Text} {v : Value}
    (hblank : Text.isBlank t = false) (h : parse t = .ok v) :
    reprint parse l t = .ok (l.document v) := by
  rw [reprint, if_neg (by simp [hblank]), h]

/-- What was shown in the lenient dialect can be saved, at any indent: the canonical text spells the
same document as the one that was opened, and showing it again, or laying out what is shown, gives
what was shown. Nothing is made of a blank text. -/
theorem json_shown_then_saved (i j : Int) {t u : Text} (h : toLenient i t = .ok u) :
    ∃ c, toCanonical j u = .ok c ∧
      (Text.isBlank t = true → c = []) ∧
      (Text.isBlank t = false → ∃ v, Canonical.parse t = .ok v ∧ Canonical.parse c = .ok v) ∧
      toLenient i c = .ok u ∧ normalize i u = .ok u := by
  obtain ⟨hblank, rfl⟩ | ⟨hblank, v, hv, rfl⟩ := reprint_eq_ok h
  · refine ⟨[], rfl, fun _ => rfl, fun hnot => ?_, rfl, rfl⟩
    rw [hblank] at hnot
    contradiction
  · -- the document that has been read is printed and read again, in each of the two dialects
    have hwf := Canonical.parse_wellFormed hv
    let shown : Layout := ⟨.lenient, (max 1 i).toNat⟩
    let saved : Layout := ⟨.canonical, (max 1 j).toNat⟩
    have hback : Canonical.parse (saved.document v) = .ok v := Canonical.parse_document rfl hwf
    have hread : Lenient.parse (shown.document v) = .ok v := Lenient.parse_document shown hwf
    refine ⟨saved.document v, ?_, fun hyes => ?_, fun _ => ⟨v, hv, hback⟩, ?_, ?_⟩
    · exact reprint_of_parse saved (shown.document_not_blank hwf) hread
    · rw [hblank] at hyes
      contradiction
    · exact reprint_of_parse shown (saved.document_not_blank hwf) hback
    · exact reprint_of_parse shown (shown.document_not_blank hwf) hread

/-- An object whose key needs no quotes and whose value ends at the end of a line. -/
theorem json_shown_then_saved_object :
    toLenient 2 (Text.ofString "\x7b\"a\":-1e3\x7d") =
        .ok (Text.ofString "\x7b\n  a: -1e3\n\x7d\n") ∧
      ∃ c, toCanonical 4 (Text.ofString "\x7b\n  a: -1e3\n\x7d\n") = .ok c ∧
        toLenient 2 c = .ok (Text.ofString "\x7b\n  a: -1e3\n\x7d\n") := by
  have hshown : toLenient 2 (Text.ofString "\x7b\"a\":-1e3\x7d") =
      .ok (Text.ofString "\x7b\n  a: -1e3\n\x7d\n") := by
    cbv
  obtain ⟨c, hsaved, -, -, hagain, -⟩ := json_shown_then_saved 2 4 hshown
  exact ⟨hshown, c, hsaved, hagain⟩

/-- Laying out a text in the lenient dialect anew is saving it, at any indent, and showing what was
saved. Both give the same text, or both report the same fault at the same place: once the text has
been read, neither saving it nor showing it fails. -/
theorem normalize_eq_saved_then_shown (i j : Int) (t : Text) :
    normalize i t = (do toLenient i (← toCanonical j t)) := by
  let shown : Layout := ⟨.lenient, (max 1 i).toNat⟩
  let saved : Layout := ⟨.canonical, (max 1 j).toNat⟩
  cases hblank : Text.isBlank t with
  | true =>
    rw [normalize, toCanonical, reprint, reprint, if_pos hblank, if_pos hblank]
    rfl
  | false =>
    cases hread : Lenient.parse t with
    | error f =>
      -- Both read the text in the same way and report what is wrong with it.
      have hfail (l : Layout) : reprint Lenient.parse l t = .error (f.toFailure t) := by
        rw [reprint, if_neg (by simp [hblank]), hread]
      rw [normalize, toCanonical, hfail, hfail]
      rfl
    | ok v =>
      have hwf := Lenient.parse_wellFormed hread
      have hsaved : toCanonical j t = .ok (saved.document v) := reprint_of_parse saved hblank hread
      have hback : Canonical.parse (saved.document v) = .ok v := Canonical.parse_document rfl hwf
      have hnormal : normalize i t = .ok (shown.document v) := reprint_of_parse shown hblank hread
      rw [hnormal, hsaved]
      exact (reprint_of_parse shown (saved.document_not_blank hwf) hback).symm

/-- What is wrong with a text is reported at its place in that text. -/
example : normalize 2 (Text.ofString "[1\n2 x]")
    = .error (.malformed "Unexpected 'x'" (some 2) (some 3)) := by cbv

end Dialects.Json
