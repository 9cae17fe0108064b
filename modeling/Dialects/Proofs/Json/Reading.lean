import Dialects.Proofs.Json.Printing

/-!
# Lexemes are read as the value that they spell

From a state in which a value may start, either dialect reads the lexemes of a value and delivers
this value to the arrays and objects around it (`spells_lexemes`). The proof follows the value. What
separates items and members brings about a place at which the next one may start
(`separator_ready`), so that items and members are read one by one (`run_intercalate`).
-/

namespace Dialects.Json

open CodePoint (scalar)

/-! ## Single tokens -/

section Lexemes

variable {t : Token} {u : Text}

/-- A token with the lexeme of a mark is this mark. -/
theorem isMark_of_lexeme {c : Char} (h : t.lexeme = markLexeme c) : t.isMark c = true :=
  isMark_iff.mpr (Prod.mk.inj h)

/-- A token with the lexeme of a word for a value stands for the value. -/
theorem stands_of_word {v : Value} (h : t.lexeme = (.word, u)) (hv : reserved? u = some v) :
    Stands t v := by
  obtain ⟨hkind, rfl⟩ := Prod.mk.inj h
  exact .word hkind hv

/-- A token with the lexeme of a number stands for the number. -/
theorem stands_of_number (h : t.lexeme = (.number, u)) : Stands t (.number u) := by
  obtain ⟨hkind, rfl⟩ := Prod.mk.inj h
  exact .number hkind

/-- A string that has been spelled is decoded again. -/
theorem decoded_of_lexeme {content : Text} (h : t.lexeme = (.string, encodeString content)) :
    decodeString t.text = .ok content := by
  obtain ⟨-, htext⟩ := Prod.mk.inj h
  rw [htext, decodeString_encodeString]

/-- A token with the lexeme of a string stands for the string. -/
theorem stands_of_string {content : Text} (h : t.lexeme = (.string, encodeString content)) :
    Stands t (.string content) :=
  .string (Prod.mk.inj h).1 (decoded_of_lexeme h)

/-- A key is read as what it was printed from, and the canonical dialect prints it with quotes. -/
theorem names_of_lexeme {l : Layout} {k : Text} (h : t.lexeme = l.keyLexeme k) :
    Names t k ∧ (t.kind = .string ∨ l.style = .lenient) := by
  unfold Layout.keyLexeme at h
  split at h
  · next hbare =>
    simp only [Bool.and_eq_true, decide_eq_true_eq] at hbare
    obtain ⟨hkind, rfl⟩ := Prod.mk.inj h
    exact ⟨.word hkind, Or.inr hbare.1.1⟩
  · exact ⟨.string (Prod.mk.inj h).1 (decoded_of_lexeme h), Or.inl (Prod.mk.inj h).1⟩

end Lexemes

/-! ## Places -/

/-- Whatever starts a value is read as the start of one, inside the given arrays and objects. -/
def State.Expects (s : Style) (st : State) (outer : List Frame) : Prop :=
  ∀ t : Token, t.isMark ']' = false → t.isMark ',' = false → stepIn s st t = startIn s t outer

variable {s : Style}

/-- In a place for a value any value is expected. -/
theorem expects_value (outer : List Frame) : (State.value outer).Expects s outer := by
  intro t _ _
  cases s <;> rfl

/-- In an array any item is expected, if its place is ready. -/
theorem expects_item {place : Place} (hplace : place.Ready s) (o : Token) (before : List Value)
    (outer : List Frame) :
    (State.item place o before outer).Expects s (.array o before :: outer) := by
  intro t hclose hcomma
  cases s with
  | canonical =>
    -- the place behind an item is ready for the next one only where commas are free
    cases place with
    | opened => simp [stepIn, startIn, Canonical.step, hclose]
    | comma => rfl
    | ended => exact absurd rfl (hplace.resolve_right (by decide))
  | lenient => simp [stepIn, startIn, Lenient.step, hclose, hcomma]

/-- Whatever starts a value is no comma and closes nothing. -/
theorem State.Expects.step {st st' : State} {outer : List Frame} {t : Token}
    (h : st.Expects s outer) (hbegins : Begins t outer st') : Step s t st st' := by
  rw [← stepIn_eq_ok_iff, h t (hbegins.no_mark (by decide) (by decide))
    (hbegins.no_mark (by decide) (by decide))]
  exact startIn_eq_ok_iff.mpr hbegins

section Layout

variable {l : Layout} (hstyle : l.style = .canonical ∨ s = .lenient)

include hstyle

/-- A key that was printed is read as this key. -/
theorem step_key {t : Token} {k : Text} (h : t.lexeme = l.keyLexeme k) {place : Place}
    (hplace : place.Ready s) (o : Token) (before : List (Text × Value)) (outer : List Frame) :
    Step s t (.key place o before outer) (.colon o before k outer) := by
  obtain ⟨hnames, hquoted | hstyle'⟩ := names_of_lexeme h
  · exact .key hplace hnames (Or.inl hquoted)
  · exact .key hplace hnames (Or.inr (hstyle.resolve_left (by rw [hstyle']; decide)))

/-- Behind an item or a member and what separates it from the next one, the next one may start. -/
theorem separator_ready {ts : List Token} (h : ts.map Token.lexeme = l.separatorLexemes) :
    ∃ place : Place, place.Ready s ∧
      (∀ o before outer, runIn s (.item .ended o before outer) ts
        = .ok (.item place o before outer)) ∧
      (∀ o before outer, runIn s (.key .ended o before outer) ts
        = .ok (.key place o before outer)) := by
  unfold Layout.separatorLexemes at h
  -- the canonical dialect has a comma there, and the lenient one nothing at all
  cases hl : l.style with
  | canonical =>
    rw [hl] at h
    obtain ⟨t, rfl, ht⟩ := List.map_eq_singleton_iff.mp h
    refine ⟨.comma, Or.inl (by decide), fun o before outer => ?_, fun o before outer => ?_⟩
    · rw [runIn_cons (.itemComma (isMark_of_lexeme ht)), runIn_nil]
    · rw [runIn_cons (.keyComma (isMark_of_lexeme ht)), runIn_nil]
  | lenient =>
    rw [hl] at h
    obtain rfl := List.map_eq_nil_iff.mp h
    have hs : s = .lenient := hstyle.resolve_left (by rw [hl]; decide)
    exact ⟨.ended, Or.inr hs, fun o before outer => rfl, fun o before outer => rfl⟩

end Layout

/-! ## Values -/

/-- Reading item by item, or member by member: `st` gives the state at a place behind some of them,
and `hsep` and `hread` say what the separator and each of them do to it. -/
theorem run_intercalate {α : Type} {sep : List (Kind × Text)} (st : Place → List α → State)
    (g : α → List (Kind × Text))
    (hsep : ∀ ts, ts.map Token.lexeme = sep → ∃ place : Place, place.Ready s ∧
      ∀ before, runIn s (st .ended before) ts = .ok (st place before))
    {xs : List α}
    (hread : ∀ x ∈ xs, ∀ (place : Place) before ts, place.Ready s → ts.map Token.lexeme = g x →
      runIn s (st place before) ts = .ok (st .ended (x :: before)))
    (hne : xs ≠ []) {place : Place} (hplace : place.Ready s) (before : List α)
    {ts : List Token} (hts : ts.map Token.lexeme = sep.intercalate (xs.map g)) :
    runIn s (st place before) ts = .ok (st .ended (xs.reverse ++ before)) := by
  -- the induction is on the entries, and the separator comes behind all but the last one
  induction xs generalizing place before ts with
  | nil => contradiction
  | cons x xs ih =>
    obtain ⟨hx, hxs⟩ := List.forall_mem_cons.mp hread
    cases xs with
    | nil => exact hx place before ts hplace (by simpa using hts)
    | cons y ys =>
      rw [List.map_cons, List.map_cons, List.intercalate_cons_cons] at hts
      obtain ⟨us, ts₃, rfl, hus, hts₃⟩ := List.map_eq_append_iff.mp hts
      obtain ⟨ts₁, ts₂, rfl, hts₁, hts₂⟩ := List.map_eq_append_iff.mp hus
      obtain ⟨next, hnext, hstep⟩ := hsep ts₂ hts₂
      rw [List.append_assoc, runIn_append (hx place before ts₁ hplace hts₁),
        runIn_append (hstep (x :: before)), ih hxs (List.cons_ne_nil y ys) hnext _ hts₃]
      simp

/-- Wherever a value may start, the lexemes are read as this one. -/
def Spells (s : Style) (ls : List (Kind × Text)) (v : Value) : Prop :=
  ∀ (st : State) (outer : List Frame) (ts : List Token), st.Expects s outer →
    ts.map Token.lexeme = ls → runIn s st ts = .ok (.deliver v outer)

/-- A value of one token is read by the step that starts it. -/
theorem spells_single {l : Kind × Text} {v : Value}
    (hstands : ∀ t : Token, t.lexeme = l → Stands t v) : Spells s [l] v := by
  intro st outer ts hst hts
  obtain ⟨t, rfl, ht⟩ := List.map_eq_singleton_iff.mp hts
  rw [runIn_cons (hst.step (.value (hstands t ht))), runIn_nil]

/-- The tokens of an array or object: its brackets, and what is between them. -/
theorem tokens_between {ts : List Token} {a b : Kind × Text} {ls : List (Kind × Text)}
    (h : ts.map Token.lexeme = a :: (ls ++ [b])) :
    ∃ t us c, ts = t :: (us ++ [c]) ∧ t.lexeme = a ∧ us.map Token.lexeme = ls ∧ c.lexeme = b := by
  obtain ⟨t, rest, rfl, ht, hrest⟩ := List.map_eq_cons_iff.mp h
  obtain ⟨us, cs, rfl, hus, hcs⟩ := List.map_eq_append_iff.mp hrest
  obtain ⟨c, rfl, hc⟩ := List.map_eq_singleton_iff.mp hcs
  exact ⟨t, us, c, rfl, ht, hus, hc⟩

section Values

variable {l : Layout} (hstyle : l.style = .canonical ∨ s = .lenient)

include hstyle

/-- Behind the opening bracket, the items of an array are read one by one. -/
theorem run_items {items : List Value}
    (hread : ∀ v ∈ items, Spells s (l.lexemes v) v) {ts : List Token}
    (hts : ts.map Token.lexeme = l.separatorLexemes.intercalate (items.map l.lexemes)) :
    ∃ place : Place, place ≠ .comma ∧ ∀ o outer,
      runIn s (.item .opened o [] outer) ts = .ok (.item place o items.reverse outer) := by
  -- an empty array is closed at once, which may also be done behind an item, but not behind a
  -- comma
  by_cases hne : items = []
  · subst hne
    obtain rfl := List.map_eq_nil_iff.mp hts
    exact ⟨.opened, by decide, fun o outer => rfl⟩
  · refine ⟨.ended, by decide, fun o outer => ?_⟩
    rw [run_intercalate (fun place before => .item place o before outer) l.lexemes
      (fun us hus => ?_) (fun v hv place before us hplace hus => ?_) hne (Or.inl (by decide)) [] hts,
      List.append_nil]
    · obtain ⟨place, hplace, hitem, -⟩ := separator_ready hstyle hus
      exact ⟨place, hplace, fun before => hitem o before outer⟩
    · exact hread v hv _ _ us (expects_item hplace o before outer) hus

/-- Behind the opening brace, the members of an object are read one by one. -/
theorem run_members {members : List (Text × Value)}
    (hread : ∀ m ∈ members, Spells s (l.lexemes m.2) m.2) {ts : List Token}
    (hts : ts.map Token.lexeme = l.separatorLexemes.intercalate
      (members.map fun m => l.keyLexeme m.1 :: markLexeme ':' :: l.lexemes m.2)) :
    ∃ place : Place, place ≠ .comma ∧ ∀ o outer,
      runIn s (.key .opened o [] outer) ts = .ok (.key place o members.reverse outer) := by
  by_cases hne : members = []
  · subst hne
    obtain rfl := List.map_eq_nil_iff.mp hts
    exact ⟨.opened, by decide, fun o outer => rfl⟩
  · refine ⟨.ended, by decide, fun o outer => ?_⟩
    rw [run_intercalate (fun place before => .key place o before outer)
      (fun m => l.keyLexeme m.1 :: markLexeme ':' :: l.lexemes m.2)
      (fun us hus => ?_) (fun m hm place before us hplace hus => ?_) hne (Or.inl (by decide)) [] hts,
      List.append_nil]
    · obtain ⟨place, hplace, -, hkey⟩ := separator_ready hstyle hus
      exact ⟨place, hplace, fun before => hkey o before outer⟩
    · obtain ⟨k, us₁, rfl, hk, hus₁⟩ := List.map_eq_cons_iff.mp hus
      obtain ⟨c, us₂, rfl, hc, hus₂⟩ := List.map_eq_cons_iff.mp hus₁
      rw [runIn_cons (step_key hstyle hk hplace o before outer),
        runIn_cons (.colon (isMark_of_lexeme hc)),
        hread m hm _ _ us₂ (expects_value (.member o before m.1 :: outer)) hus₂]
      rfl

/-- The lexemes of a value are read as the value. -/
theorem spells_lexemes {v : Value} (h : v.WellFormed) : Spells s (l.lexemes v) v := by
  -- what is enclosed is read by the induction hypotheses, and the brackets are read around it
  induction h with
  | null => exact spells_single fun t ht => stands_of_word ht rfl
  | bool b =>
    cases b with
    | true => exact spells_single fun t ht => stands_of_word ht rfl
    | false => exact spells_single fun t ht => stands_of_word ht rfl
  | number u _ => exact spells_single fun t ht => stands_of_number ht
  | string content => exact spells_single fun t ht => stands_of_string ht
  | array items _ ih =>
    intro st outer ts hst hts
    rw [Layout.lexemes, l.itemLexemes_eq_map] at hts
    obtain ⟨o, us, c, rfl, ho, hus, hc⟩ := tokens_between hts
    obtain ⟨place, hplace, hitems⟩ := run_items hstyle ih hus
    rw [runIn_cons (hst.step (.array (isMark_of_lexeme ho))), runIn_append (hitems o outer),
      runIn_cons (.itemClose (Or.inl hplace) (isMark_of_lexeme hc)), runIn_nil,
      List.reverse_reverse]
  | object members _ ih =>
    intro st outer ts hst hts
    rw [Layout.lexemes, l.memberLexemes_eq_map] at hts
    obtain ⟨o, us, c, rfl, ho, hus, hc⟩ := tokens_between hts
    obtain ⟨place, hplace, hmembers⟩ := run_members hstyle ih hus
    rw [runIn_cons (hst.step (.object (isMark_of_lexeme ho))), runIn_append (hmembers o outer),
      runIn_cons (.keyClose (Or.inl hplace) (isMark_of_lexeme hc)), runIn_nil,
      List.reverse_reverse]

end Values

end Dialects.Json
