import Dialects.Conversion.Basic
import Dialects.Proofs.Json.Cutting

/-!
# Where a text is malformed

A text that cannot be read is reported with the line and the column of the fault. The fault is found
while the text is cut into tokens, while a token is read, inside a string token, or at the end of
the text, and in the lenient dialect an array or object that is left open is reported where it has
been opened; each of these is a place of the text.

The canonical dialect makes an exception. The constants `NaN`, `Infinity` and `-Infinity` are no
JSON, but where a value may stand they are recognised and refused by name, without a place.

## Main results

* `Canonical.parse_error`, `Lenient.parse_error`: what is reported of a text.
* `located_iff`: every fault of a text is reported with a place of it unless such a constant is the
  first thing that is wrong with it.
-/

namespace Dialects.Json

open CodePoint (scalar)

/-! ## Faults at a place -/

/-- The fault is reported at an offset of at most `bound`. -/
def Fault.Within (bound : Nat) (f : Fault) : Prop := ∃ reason n, n ≤ bound ∧ f = .atOffset reason n

/-- A fault within a text is one within any longer text. -/
theorem Fault.Within.mono {m n : Nat} {f : Fault} (h : f.Within m) (hle : m ≤ n) : f.Within n := by
  obtain ⟨reason, k, hk, rfl⟩ := h
  exact ⟨reason, k, Nat.le_trans hk hle, rfl⟩

/-- How many code points of the document precede the end of the token. -/
def Token.stop (t : Token) : Nat := t.offset + t.text.length

section Steps

variable {s s' : State} {t : Token} {f : Fault} {outer : List Frame} {ts : List Token}

/-- The start of a token is a place of it. -/
theorem Token.within_stop (t : Token) (reason : String) :
    (Fault.atOffset reason t.offset).Within t.stop :=
  ⟨reason, t.offset, Nat.le_add_right _ _, rfl⟩

/-- A fault in a string lies in its token. -/
theorem Token.faultOffset_le (t : Token) (d : StringFault) : t.faultOffset d ≤ t.stop :=
  Nat.add_le_add_left (Nat.sub_le _ _) _

/-- A fault of a string token is within what has been read with it. -/
theorem Canonical.string_error (h : Canonical.string t = .error f) : f.Within t.stop := by
  unfold Canonical.string at h
  split at h
  · contradiction
  · next d _ => exact ⟨_, _, t.faultOffset_le d, (Except.error.inj h).symm⟩

/-- A fault of a string token is within what has been read with it, in the lenient dialect too. -/
theorem Lenient.string_error (h : Lenient.string t = .error f) : f.Within t.stop := by
  unfold Lenient.string at h
  split at h
  · contradiction
  · next d _ => exact ⟨_, _, t.faultOffset_le d, (Except.error.inj h).symm⟩

/-- The fault of a computation stays when its result is used. -/
theorem map_eq_error {α β ε : Type} {r : Except ε α} {g : α → β} {e : ε}
    (h : r.map g = .error e) : r = .error e := by
  cases r with
  | error _ => exact congrArg _ (Except.error.inj h)
  | ok _ => contradiction

/-- Reading fails at the first token that cannot be read in the state before it. -/
theorem runIn_eq_error_iff {d : Style} : runIn d s ts = .error f ↔
    ∃ before t after s', ts = before ++ t :: after ∧ runIn d s before = .ok s' ∧
      stepIn d s' t = .error f := by
  constructor
  · intro h
    induction ts generalizing s with
    | nil => contradiction
    | cons t ts ih =>
      -- the first token fails, or the rest does in the state behind it
      cases hfirst : stepIn d s t with
      | error e =>
        rw [runIn, State.run, List.foldlM_cons, hfirst] at h
        obtain rfl := Except.error.inj h
        exact ⟨[], t, ts, s, rfl, rfl, hfirst⟩
      | ok next =>
        rw [stepIn_eq_ok_iff] at hfirst
        rw [runIn_cons hfirst] at h
        obtain ⟨before, u, after, s', rfl, hbefore, hu⟩ := ih h
        exact ⟨t :: before, u, after, s', rfl, (runIn_cons hfirst before).trans hbefore, hu⟩
  · rintro ⟨before, t, after, s', rfl, hbefore, ht⟩
    rw [runIn_append hbefore, runIn, State.run, List.foldlM_cons, ht]
    rfl

/-! ## Steps of the lenient dialect -/

/-- A fault at the start of a value is within what has been read. -/
theorem Lenient.startValue_error (h : Lenient.startValue t outer = .error f) :
    f.Within t.stop := by
  unfold Lenient.startValue at h
  split at h
  · contradiction
  split at h
  · exact Lenient.string_error (map_eq_error h)
  · obtain rfl := Except.error.inj h
    exact t.within_stop _

/-- A fault of a key is within what has been read. -/
theorem Lenient.keyOf_error (h : Lenient.keyOf t = .error f) : f.Within t.stop := by
  unfold Lenient.keyOf at h
  split at h
  · exact Lenient.string_error h
  split at h
  · contradiction
  · obtain rfl := Except.error.inj h
    exact t.within_stop _

/-- A token that cannot be read is reported at a place of it. -/
theorem Lenient.step_error (h : Lenient.step s t = .error f) : f.Within t.stop := by
  cases s with
  | value outer => exact Lenient.startValue_error h
  | item place o before outer =>
    -- neither a comma nor a bracket can fail, so that it is the start of an item that does
    simp only [Lenient.step] at h
    split at h
    · contradiction
    split at h
    · contradiction
    · exact Lenient.startValue_error h
  | key place o before outer =>
    simp only [Lenient.step] at h
    split at h
    · contradiction
    -- the same goes for the start of a member, which is its key
    split at h
    · contradiction
    · exact Lenient.keyOf_error (map_eq_error h)
  | colon o before k outer =>
    simp only [Lenient.step] at h
    split at h
    · contradiction
    · obtain rfl := Except.error.inj h
      exact t.within_stop _
  | done v =>
    obtain rfl := Except.error.inj h
    exact t.within_stop _

/-! ## What is open -/

/-- The bracket or brace that opened an array or object. -/
def Frame.opener : Frame → Token
  | .array o _ | .member o _ _ => o

/-- The brackets and braces that are open, innermost first. -/
def State.openers : State → List Token
  | .value outer => outer.map Frame.opener
  | .item _ o _ outer | .key _ o _ outer | .colon o _ _ outer => o :: outer.map Frame.opener
  | .done _ => []

/-- Behind a value what is open is what was open around it. -/
theorem State.openers_deliver (v : Value) (outer : List Frame) :
    (State.deliver v outer).openers = outer.map Frame.opener := by
  match outer with
  | [] | .array .. :: _ | .member .. :: _ => rfl

/-- A value opens nothing but its first token. -/
theorem Begins.openers (h : Begins t outer s) : s.openers ⊆ t :: outer.map Frame.opener := by
  cases h with
  | object | array => exact List.Subset.refl _
  | value =>
    rw [State.openers_deliver]
    exact List.subset_cons_self _ _

/-- A step opens nothing but with the token that it reads. -/
theorem Step.openers {d : Style} (h : Step d t s s') : s'.openers ⊆ t :: s.openers := by
  cases h with
  | value begins | item _ begins => exact begins.openers
  | itemComma | keyComma | key | colon => exact List.subset_cons_self _ _
  | itemClose | keyClose =>
    rw [State.openers_deliver]
    exact List.subset_cons_of_subset _ (List.subset_cons_self _ _)

/-- Whatever is open has been opened by a token that has been read. -/
theorem openers_runIn {d : Style} (h : runIn d s ts = .ok s') : s'.openers ⊆ ts ++ s.openers := by
  induction ts generalizing s with
  | nil =>
    obtain rfl := Except.ok.inj h
    exact List.Subset.refl _
  | cons t ts ih =>
    obtain ⟨next, hstep, hrest⟩ := runIn_cons_eq_ok_iff.mp h
    -- what is open behind the first token is that token or was open before
    intro o ho
    obtain ho | ho := List.mem_append.mp (ih hrest ho)
    · exact List.mem_append_left _ (List.mem_cons_of_mem _ ho)
    · obtain rfl | ho := List.mem_cons.mp (hstep.openers ho)
      · exact List.mem_cons_self
      · exact List.mem_append_right _ ho

/-! ## Steps of the canonical dialect -/

/-- The word `null` in the place of a token. -/
def Token.asNull (t : Token) : Token := ⟨.word, Text.ofString "null", t.offset⟩

/-- Words are read only where a value may start. -/
theorem Canonical.step_word (s : State) :
    (∃ outer, ∀ t : Token, t.kind = .word → Canonical.step s t = Canonical.startValue t outer) ∨
      ∀ t : Token, t.kind = .word →
        ∃ reason, Canonical.step s t = .error (.atOffset reason t.offset) := by
  -- a word is no mark, so that every test for a mark fails
  have hmark {t : Token} (ht : t.kind = .word) (d : Char) : t.isMark d = false := by
    rw [Token.isMark, ht]
    rfl
  cases s with
  | value outer => exact Or.inl ⟨outer, fun t _ => rfl⟩
  | item place o before outer =>
    cases place with
    | opened =>
      refine Or.inl ⟨.array o before :: outer, fun t ht => ?_⟩
      rw [Canonical.step, hmark ht, if_neg Bool.false_ne_true]
    | comma => exact Or.inl ⟨.array o before :: outer, fun t _ => rfl⟩
    | ended =>
      refine Or.inr fun t ht => ⟨"Expecting ',' delimiter", ?_⟩
      rw [Canonical.step, hmark ht, hmark ht, if_neg Bool.false_ne_true, if_neg Bool.false_ne_true]
  | key place o before outer =>
    refine Or.inr fun t ht => ?_
    by_cases hplace : place = .ended
    · subst hplace
      refine ⟨"Expecting ',' delimiter", ?_⟩
      rw [Canonical.step, hmark ht, hmark ht, if_neg Bool.false_ne_true, if_neg Bool.false_ne_true]
    · refine ⟨"Expecting property name enclosed in double quotes", ?_⟩
      rw [Canonical.step.eq_6 _ _ _ _ _ hplace, hmark ht, if_neg (by simp), if_neg (by simp [ht])]
  | colon o before k outer =>
    refine Or.inr fun t ht => ⟨"Expecting ':' delimiter", ?_⟩
    rw [Canonical.step, hmark ht, if_neg Bool.false_ne_true]
  | done v => exact Or.inr fun t _ => ⟨"Extra data", rfl⟩

/-- What a word at the start of a value comes to. -/
theorem Canonical.startValue_word (ht : t.kind = .word) :
    Canonical.startValue t outer = match reserved? t.text with
      | some v => .ok (.deliver v outer)
      | none => .error ⟨"Unexpected " ++ t.text.quoted, none⟩ := by
  have hmark (d : Char) : t.isMark d = false := by
    rw [Token.isMark, ht]
    rfl
  cases hword : reserved? t.text with
  | some v => simp [Canonical.startValue, State.start?, hmark, ht, hword]
  | none => simp [Canonical.startValue, State.start?, hmark, ht, hword]

/-- Apart from words a fault at the start of a value is within what has been read. -/
theorem Canonical.startValue_error (ht : t.kind ≠ .word)
    (h : Canonical.startValue t outer = .error f) : f.Within t.stop := by
  unfold Canonical.startValue at h
  split at h
  · contradiction
  rw [if_neg ht] at h
  split at h
  · exact Canonical.string_error (map_eq_error h)
  · obtain rfl := Except.error.inj h
    exact t.within_stop _

/-- A token that is no word and cannot be read is reported at a place of it. -/
theorem Canonical.step_error_of_ne_word (ht : t.kind ≠ .word)
    (h : Canonical.step s t = .error f) : f.Within t.stop := by
  cases s with
  | value outer => exact Canonical.startValue_error ht h
  | item place o before outer =>
    cases place with
    | opened =>
      rw [Canonical.step] at h
      -- neither a bracket nor a comma can fail where it may stand
      split at h
      · contradiction
      · exact Canonical.startValue_error ht h
    | comma => exact Canonical.startValue_error ht h
    | ended =>
      rw [Canonical.step] at h
      split at h
      · contradiction
      split at h
      · contradiction
      · obtain rfl := Except.error.inj h
        exact t.within_stop _
  | key place o before outer =>
    by_cases hplace : place = .ended
    · subst hplace
      rw [Canonical.step] at h
      split at h
      · contradiction
      split at h
      · contradiction
      · obtain rfl := Except.error.inj h
        exact t.within_stop _
    · rw [Canonical.step.eq_6 _ _ _ _ _ hplace] at h
      split at h
      · contradiction
      split at h
      · exact Canonical.string_error (map_eq_error h)
      · obtain rfl := Except.error.inj h
        exact t.within_stop _
  | colon o before k outer =>
    rw [Canonical.step] at h
    split at h
    · contradiction
    · obtain rfl := Except.error.inj h
      exact t.within_stop _
  | done v =>
    obtain rfl := Except.error.inj h
    exact t.within_stop _

/-- With `null` for its text a token starts a value everywhere. -/
theorem Canonical.startValue_asNull (t : Token) (outer : List Frame) :
    Canonical.startValue t.asNull outer = .ok (.deliver .null outer) :=
  Canonical.startValue_word rfl

/-- A token that cannot be read is reported at a place of it unless it is a word, but not one for a
value, where a value may start. -/
theorem Canonical.step_error (h : Canonical.step s t = .error f) :
    f.Within t.stop ∨ (t.kind = .word ∧ reserved? t.text = none ∧
      ∃ outer, Step .canonical t.asNull s (.deliver .null outer)) := by
  by_cases ht : t.kind = .word
  · -- the state admits a value, or it refuses every word alike
    obtain ⟨outer, hstart⟩ | hrefused := Canonical.step_word s
    · refine Or.inr ⟨ht, ?_, outer, ?_⟩
      · rw [hstart t ht, Canonical.startValue_word ht] at h
        cases hword : reserved? t.text with
        | none => rfl
        | some v => rw [hword] at h; contradiction
      · refine Canonical.step_of_ok ?_
        rw [hstart t.asNull rfl, Canonical.startValue_asNull]
    · obtain ⟨reason, hreason⟩ := hrefused t ht
      obtain rfl := Except.error.inj (hreason.symm.trans h)
      exact Or.inl (t.within_stop reason)
  · exact Or.inl (Canonical.step_error_of_ne_word ht h)

/-- A word that is not one for a value is refused by name where one for a value is read. -/
theorem Canonical.step_of_asNull (ht : t.kind = .word) (hword : reserved? t.text = none)
    (h : Step .canonical t.asNull s s') :
    Canonical.step s t = .error ⟨"Unexpected " ++ t.text.quoted, none⟩ := by
  obtain ⟨outer, hstart⟩ | hrefused := Canonical.step_word s
  · rw [hstart t ht, Canonical.startValue_word ht, hword]
  · obtain ⟨reason, hreason⟩ := hrefused t.asNull rfl
    rw [h.canonical_ok] at hreason
    contradiction

/-- Behind a value what is open can be closed. -/
theorem Canonical.exists_closing (v : Value) (outer : List Frame) :
    ∃ more w, runIn .canonical (.deliver v outer) more = .ok (.done w) := by
  -- from the innermost array or object outwards, each closed by its own mark
  induction outer generalizing v with
  | nil => exact ⟨[], v, rfl⟩
  | cons frame outer ih =>
    cases frame with
    | array o before =>
      obtain ⟨more, w, hmore⟩ := ih (.array (v :: before).reverse)
      exact ⟨⟨.punctuation, [scalar ']'], 0⟩ :: more, w, hmore⟩
    | member o before k =>
      obtain ⟨more, w, hmore⟩ := ih (.object ((k, v) :: before).reverse)
      exact ⟨⟨.punctuation, [scalar '\x7d'], 0⟩ :: more, w, hmore⟩

end Steps

/-! ## Tokens are pieces of the text -/

section Tokens

variable {c : CodePoint} {offset n : Nat} {text rest : Text} {t : Token} {ts : List Token}
  {f : Fault}

/-- The token is the piece of the text at its place. -/
def Token.PieceOf (offset : Nat) (text : Text) (t : Token) : Prop :=
  ∃ front back : Text, text = front ++ (t.text ++ back) ∧ t.offset = offset + front.length

/-- A token that is a piece of the text ends within the text. -/
theorem Token.PieceOf.stop_le (h : t.PieceOf offset text) : t.stop ≤ offset + text.length := by
  obtain ⟨front, back, rfl, hoffset⟩ := h
  rw [Token.stop, hoffset, List.length_append, List.length_append]
  omega

/-- The canonical dialect cuts off only the words that it knows. -/
theorem Canonical.tokenAt_word (h : Canonical.tokenAt c rest = (.word, n)) :
    c :: rest.take n ∈ Canonical.words := by
  unfold Canonical.tokenAt at h
  split at h
  · simp at h
  split at h
  · simp at h
  split at h
  · next w hw =>
    obtain ⟨-, rfl⟩ := Prod.mk.inj h
    have hmem := List.mem_of_find?_eq_some hw
    have hprefix := Text.startsWith_iff.mp (List.find?_some hw)
    -- what is found among the words is not empty, and is the beginning of the text
    have hne : w ≠ [] := by
      rintro rfl
      revert hmem
      decide
    obtain ⟨d, v, rfl⟩ := List.exists_cons_of_ne_nil hne
    obtain ⟨rfl, hrest⟩ := List.cons_prefix_cons.mp hprefix
    rwa [List.length_cons, Nat.add_sub_cancel, ← List.prefix_iff_eq_take.mp hrest]
  · split at h <;> simp at h

/-- Every token of the canonical dialect is a piece of the text, and each of its words is a known
one. -/
theorem Canonical.pieceOf_of_mem (h : t ∈ Canonical.lexFrom offset text) :
    t.PieceOf offset text ∧ (t.kind = .word → t.text ∈ Canonical.words) := by
  fun_induction Canonical.lexFrom offset text with
  | case1 => simp at h
  | case2 offset c rest hblank ih =>
    obtain ⟨⟨front, back, rfl, hoffset⟩, hword⟩ := ih h
    refine ⟨⟨c :: front, back, rfl, ?_⟩, hword⟩
    rw [hoffset, List.length_cons, Nat.add_assoc, Nat.add_comm 1]
  | case3 offset c rest hblank kind n htoken ih =>
    obtain rfl | h := List.mem_cons.mp h
    · refine ⟨⟨[], rest.drop n, ?_, rfl⟩, ?_⟩
      · rw [List.nil_append, List.cons_append, List.take_append_drop]
      · rintro rfl
        exact Canonical.tokenAt_word htoken
    · obtain ⟨⟨front, back, hrest, hoffset⟩, hword⟩ := ih h
      -- What a token would cover beyond the end of the text has no further tokens.
      have hn : n ≤ rest.length := by
        by_contra hlt
        rw [List.drop_eq_nil_of_le (by omega), Canonical.lexFrom] at h
        simp at h
      refine ⟨⟨c :: (rest.take n ++ front), back, ?_, ?_⟩, hword⟩
      · rw [List.cons_append, List.append_assoc, ← hrest, List.take_append_drop]
      · rw [hoffset, List.length_cons, List.length_append, List.length_take_of_le hn]
        omega

/-- Every token of the lenient dialect is a piece of the text. -/
theorem Lenient.pieceOf_of_mem (h : Lenient.lexFrom offset text = .ok ts) (ht : t ∈ ts) :
    t.PieceOf offset text := by
  obtain ⟨before, after, rfl⟩ := List.append_of_mem ht
  obtain ⟨front, back, htext, hoffset, -⟩ := (Lenient.cut_of_lexFrom h).split (P := fun _ => True)
    (fun _ => id) (fun _ => id) trivial
  exact ⟨front, back, htext, hoffset⟩

/-- A code point that starts no token is reported at its place. -/
theorem Lenient.lexFrom_error (h : Lenient.lexFrom offset text = .error f) :
    f.Within (offset + text.length) := by
  fun_induction Lenient.lexFrom offset text with
  | case1 => contradiction
  | case2 offset c rest n hgap ih =>
    -- the gap is skipped, and what is behind it lies further on in the text
    have hle := Lenient.gapLength_le (c :: rest)
    rw [hgap, List.length_cons] at hle
    refine (ih h).mono ?_
    rw [List.length_drop, List.length_cons]
    omega
  | case3 offset c rest hgap htoken =>
    obtain rfl := Except.error.inj h
    exact ⟨_, offset, Nat.le_add_right _ _, rfl⟩
  | case4 offset c rest hgap kind n htoken ih =>
    have hle := Lenient.tokenAt?_le htoken
    refine (ih (map_eq_error h)).mono ?_
    rw [List.length_drop, List.length_cons]
    omega

end Tokens

/-! ## Documents -/

section Documents

variable {length : Nat} {text : Text} {ts : List Token} {s : State} {v : Value} {f : Fault}

/-- A fault at the end of the text is within it, as is what has been left open. -/
theorem Lenient.finish_error (hs : ∀ o ∈ s.openers, o.stop ≤ length)
    (h : Lenient.finish length s = .error f) : f.Within length := by
  cases s with
  | done => contradiction
  | value | colon =>
    obtain rfl := Except.error.inj h
    exact ⟨_, length, Nat.le_refl _, rfl⟩
  | item place o | key place o =>
    obtain rfl := Except.error.inj h
    exact (o.within_stop _).mono (hs o List.mem_cons_self)

/-- Whatever is wrong with a text in the lenient dialect is reported at a place of it. -/
theorem Lenient.parse_error (h : Lenient.parse text = .error f) : f.Within text.length := by
  cases hlex : Lenient.lex text with
  | error e =>
    rw [Lenient.parse, hlex] at h
    obtain rfl := Except.error.inj h
    simpa using Lenient.lexFrom_error hlex
  | ok ts =>
    -- every token ends within the text
    have hstop : ∀ t ∈ ts, t.stop ≤ text.length := fun t ht => by
      simpa using (Lenient.pieceOf_of_mem hlex ht).stop_le
    replace h : Lenient.read text.length ts = .error f := by
      rw [Lenient.parse, hlex] at h
      exact h
    cases hrun : State.run Lenient.step (.value []) ts with
    | error e =>
      rw [Lenient.read, hrun] at h
      obtain rfl := Except.error.inj h
      -- the first token that cannot be read is one of the text
      obtain ⟨before, t, after, s, rfl, -, ht⟩ := runIn_eq_error_iff (d := .lenient).mp hrun
      exact (Lenient.step_error ht).mono (hstop t (by simp))
    | ok s =>
      rw [Lenient.read, hrun] at h
      -- the text ends too early, and an open bracket may be reported
      refine Lenient.finish_error (fun o ho => hstop o ?_) h
      simpa [State.openers] using openers_runIn (d := .lenient) hrun ho

/-- A fault at the end of the text is within it. -/
theorem Canonical.finish_error (h : Canonical.finish length s = .error f) : f.Within length := by
  cases s with
  | done => contradiction
  | value | colon =>
    obtain rfl := Except.error.inj h
    exact ⟨_, length, Nat.le_refl _, rfl⟩
  | item place | key place =>
    cases place <;>
    · obtain rfl := Except.error.inj h
      exact ⟨_, length, Nat.le_refl _, rfl⟩

/-! ## Constants -/

/-- The constants that are known in the canonical dialect but not admitted. -/
def constants : List Text := ["NaN", "Infinity", "-Infinity"].map Text.ofString

/-- A document may start with these tokens. -/
def Canonical.Starts (ts : List Token) : Prop := ∃ more v, Canonical.read 0 (ts ++ more) = .ok v

/-- The first thing that is wrong with the text is a constant: it would be right to go on from the
text in front of it with `null`. -/
def StopsAtConstant (text : Text) : Prop :=
  ∃ before t after, Canonical.lex text = before ++ t :: after ∧ t.kind = .word ∧
    t.text ∈ constants ∧ Canonical.Starts (before ++ [t.asNull])

/-- The constants are the words of the canonical dialect that no value stands behind. -/
theorem mem_words_iff {w : Text} :
    w ∈ Canonical.words ∧ reserved? w = none ↔ w ∈ constants := by
  constructor
  · rintro ⟨hmem, hnone⟩
    have hall : ∀ w ∈ Canonical.words, reserved? w = none → w ∈ constants := by decide
    exact hall w hmem hnone
  · have hall : ∀ w ∈ constants, w ∈ Canonical.words ∧ reserved? w = none := by decide
    exact hall w

/-- A constant at a place of `null` is refused by name, without a place. -/
theorem Canonical.read_constant {before after : List Token} {t : Token} (ht : t.kind = .word)
    (hconstant : t.text ∈ constants) (hstarts : Canonical.Starts (before ++ [t.asNull])) :
    Canonical.read length (before ++ t :: after) =
      .error ⟨"Unexpected " ++ t.text.quoted, none⟩ := by
  -- the token is taken at its place if it is read as `null`, so only its word is at fault
  obtain ⟨more, v, hread⟩ := hstarts
  rw [List.append_assoc, List.singleton_append, Canonical.read_eq_ok_iff] at hread
  obtain ⟨s, hbefore, hrest⟩ := runIn_append_eq_ok_iff.mp hread
  obtain ⟨next, hnext, -⟩ := runIn_cons_eq_ok_iff.mp hrest
  have hrefused := Canonical.step_of_asNull ht (mem_words_iff.mpr hconstant).2 hnext
  have hrun : State.run Canonical.step (.value []) (before ++ t :: after) = _ :=
    runIn_eq_error_iff.mpr ⟨before, t, after, s, rfl, hbefore, hrefused⟩
  rw [Canonical.read, hrun]
  rfl

/-- Whatever else is wrong with a list of tokens is reported at a place of one of them or at the
end. -/
theorem Canonical.read_error (hstop : ∀ t ∈ ts, t.stop ≤ length)
    (hwords : ∀ t ∈ ts, t.kind = .word → t.text ∈ Canonical.words)
    (h : Canonical.read length ts = .error f) :
    f.Within length ∨ ∃ before t after, ts = before ++ t :: after ∧ t.kind = .word ∧
      t.text ∈ constants ∧ Canonical.Starts (before ++ [t.asNull]) := by
  cases hrun : State.run Canonical.step (.value []) ts with
  | ok s =>
    rw [Canonical.read, hrun] at h
    exact Or.inl (Canonical.finish_error h)
  | error e =>
    rw [Canonical.read, hrun] at h
    obtain rfl := Except.error.inj h
    obtain ⟨before, t, after, s, rfl, hbefore, ht⟩ := runIn_eq_error_iff (d := .canonical).mp hrun
    obtain hwithin | ⟨hkind, hword, outer, hnull⟩ := Canonical.step_error ht
    · exact Or.inl (hwithin.mono (hstop t (by simp)))
    · -- had the constant been null, the document could have been completed
      obtain ⟨more, w, hmore⟩ := Canonical.exists_closing .null outer
      refine Or.inr ⟨before, t, after, rfl, hkind,
        mem_words_iff.mp ⟨hwords t (by simp) hkind, hword⟩, more, w, ?_⟩
      rw [Canonical.read_eq_ok_iff, List.append_assoc, List.singleton_append,
        runIn_append (d := .canonical) hbefore, runIn_cons hnull]
      exact hmore

/-- No document starts with the mark of byte order. -/
theorem not_stopsAtConstant_of_mark (h : text.head? = some Canonical.byteOrderMark) :
    ¬ StopsAtConstant text := by
  obtain ⟨rest, rfl⟩ := List.head?_eq_some_iff.mp h
  rintro ⟨before, t, after, hlex, hkind, -, more, v, hread⟩
  have hmark : Canonical.lex (Canonical.byteOrderMark :: rest) =
      ⟨.junk, [Canonical.byteOrderMark], 0⟩ :: Canonical.lexFrom 1 rest := by
    rw [Canonical.lex, Canonical.lexFrom, if_neg (by decide)]
    rfl
  rw [hmark] at hlex
  -- the mark is the first token, and is neither a constant nor anything that can be read
  cases before with
  | nil =>
    obtain ⟨rfl, -⟩ := List.cons.inj hlex
    contradiction
  | cons b before =>
    obtain ⟨rfl, -⟩ := List.cons.inj hlex
    rw [Canonical.read_eq_ok_iff] at hread
    obtain ⟨next, hnext, -⟩ := runIn_cons_eq_ok_iff.mp hread
    have hstep := hnext.canonical_ok
    contradiction

/-- A blank text holds no constant. -/
theorem not_stopsAtConstant_of_blank (h : Text.isBlank text = true) : ¬ StopsAtConstant text := by
  rintro ⟨before, t, after, hlex, -, hconstant, -⟩
  have hmem : t ∈ Canonical.lexFrom 0 text := by
    rw [← Canonical.lex, hlex]
    simp
  obtain ⟨⟨front, back, rfl, -⟩, -⟩ := Canonical.pieceOf_of_mem hmem
  have hall : ∀ w ∈ constants, Text.isBlank w = false := by decide
  have hblank : Text.isBlank t.text = true := by
    rw [Text.isBlank, List.all_append, List.all_append] at h
    exact (Bool.and_eq_true_iff.mp (Bool.and_eq_true_iff.mp h).2).1
  rw [hall t.text hconstant] at hblank
  contradiction

/-- Whatever is wrong with a text in the canonical dialect is reported at a place of it, but for a
constant where a value may start. -/
theorem Canonical.parse_error (h : Canonical.parse text = .error f) :
    f.Within text.length ∨ StopsAtConstant text := by
  rw [Canonical.parse] at h
  split at h
  · obtain rfl := Except.error.inj h
    exact Or.inl ⟨_, 0, Nat.zero_le _, rfl⟩
  · refine Canonical.read_error (fun t ht => ?_) (fun t ht => ?_) h
    · simpa using (Canonical.pieceOf_of_mem ht).1.stop_le
    · exact (Canonical.pieceOf_of_mem ht).2

/-- A constant that is met in a place for values is refused without a place. -/
theorem Canonical.parse_constant (h : StopsAtConstant text) :
    ∃ reason, Canonical.parse text = .error ⟨reason, none⟩ := by
  have hmark : text.head? ≠ some Canonical.byteOrderMark :=
    fun hmark => not_stopsAtConstant_of_mark hmark h
  obtain ⟨before, t, after, hlex, hkind, hconstant, hstarts⟩ := h
  rw [Canonical.parse, if_neg hmark, hlex]
  exact ⟨_, Canonical.read_constant hkind hconstant hstarts⟩

end Documents

/-! ## Conversions -/

/-- Whatever the conversion fails with names a place of the text. -/
def Located (convert : Convert) (text : Text) : Prop :=
  ∀ f, convert text = .error f → ∃ reason n, n ≤ text.length ∧ f = .malformedAt reason text n

/-- A document is reprinted or has a fault at a place within its text, if reading has. -/
theorem located_reprint {parse : Text → Except Fault Value} {text : Text} (layout : Layout)
    (h : ∀ f, parse text = .error f → f.Within text.length) :
    Located (reprint parse layout) text := by
  intro failure hfailure
  rw [reprint] at hfailure
  split at hfailure
  · contradiction
  split at hfailure
  · contradiction
  · next f hf =>
    obtain ⟨reason, n, hn, rfl⟩ := h f hf
    exact ⟨reason, n, hn, (Except.error.inj hfailure).symm⟩

/-- A text that stops at a constant is not converted, and no place is reported. -/
theorem toLenient_constant {text : Text} (indent : Int) (h : StopsAtConstant text) :
    ∃ reason, toLenient indent text = .error (.malformed reason none none) := by
  obtain ⟨reason, hparse⟩ := Canonical.parse_constant h
  have hblank : ¬ Text.isBlank text = true := fun hblank => not_stopsAtConstant_of_blank hblank h
  refine ⟨reason, ?_⟩
  rw [toLenient, reprint, if_neg hblank, hparse]
  rfl

/-- Every fault of a text is reported with a place of it, in whatever direction the text is
converted, unless the first thing that is wrong with it as a canonical text is a constant. Only the
direction that reads canonical texts makes this exception. -/
theorem located_iff (indent : Int) (text : Text) :
    ((∀ d : Direction, Located ((ConverterSet.json indent).convert d) text) ↔
        ¬ StopsAtConstant text) ∧
      ∀ d : Direction, d ≠ .toLenient → Located ((ConverterSet.json indent).convert d) text := by
  have hlenient (d : Direction) (hd : d ≠ .toLenient) :
      Located ((ConverterSet.json indent).convert d) text := by
    cases d with
    | toLenient => contradiction
    | toCanonical | normalize => exact located_reprint _ fun f => Lenient.parse_error
  refine ⟨⟨fun hall hstops => ?_, fun hstops d => ?_⟩, hlenient⟩
  · -- the failure at a constant has no place
    obtain ⟨reason, hfailure⟩ := toLenient_constant indent hstops
    obtain ⟨reason', n, -, heq⟩ := hall .toLenient _ hfailure
    cases heq
  · cases d with
    | toLenient =>
      exact located_reprint _ fun f hf => (Canonical.parse_error hf).resolve_right hstops
    | toCanonical => exact hlenient _ (by decide)
    | normalize => exact hlenient _ (by decide)

/-- A constant is refused without a place in one direction and with its place in the other. -/
theorem not_located_constant :
    toLenient 2 (Text.ofString "[NaN]") = .error (.malformed "Unexpected 'NaN'" none none) ∧
      toCanonical 2 (Text.ofString "[NaN]") =
        .error (.malformedAt "Unexpected 'NaN'" (Text.ofString "[NaN]") 1) ∧
      ¬ Located (toLenient 2) (Text.ofString "[NaN]") := by
  have hlenient : Lenient.lex (Text.ofString "[NaN]") = .ok
      [⟨.punctuation, Text.ofString "[", 0⟩, ⟨.word, Text.ofString "NaN", 1⟩,
        ⟨.punctuation, Text.ofString "]", 4⟩] := by
    cbv
  have hcanonical : Canonical.lex (Text.ofString "[NaN]") =
      [⟨.punctuation, Text.ofString "[", 0⟩, ⟨.word, Text.ofString "NaN", 1⟩,
        ⟨.punctuation, Text.ofString "]", 4⟩] := by
    cbv
  have hfailure : toLenient 2 (Text.ofString "[NaN]") =
      .error (.malformed "Unexpected 'NaN'" none none) := by
    rw [toLenient, reprint, if_neg (by decide), Canonical.parse, if_neg (by decide), hcanonical]
    rfl
  have hparse : Lenient.parse (Text.ofString "[NaN]") =
      .error (.atOffset "Unexpected 'NaN'" 1) := by
    rw [Lenient.parse, hlenient]
    rfl
  refine ⟨hfailure, ?_, fun hlocated => ?_⟩
  · rw [toCanonical, reprint, if_neg (by decide), hparse]
    rfl
  · -- the failure has no place, as it would have to
    obtain ⟨reason, n, -, heq⟩ := hlocated _ hfailure
    cases heq

end Dialects.Json
