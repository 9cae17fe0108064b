import Dialects.Json.Printer
import Dialects.Json.Reader

/-!
# The steps of reading

`Step` says which steps there are from one state to the next, and which token each of them reads.
Both dialects have the same ones, but for three conditions: the canonical dialect starts an item or
a member only at the front and behind a comma, ends an array or object anywhere but behind a comma,
and admits only strings as keys. A token is read just if one of these steps reads it
(`stepIn_eq_ok_iff`). What reading keeps is therefore proved by going through the steps, for both
dialects at once, and every step of the canonical dialect is one of the lenient dialect
(`Step.lenient`).
-/

namespace Dialects.Json

open CodePoint (scalar)

variable {d : Style} {t : Token} {v : Value} {k content : Text} {s s' : State}
  {outer : List Frame}

/-! ## Marks -/

/-- A token is a mark if it is a punctuation token of this one character. -/
theorem isMark_iff {c : Char} :
    t.isMark c = true ↔ t.kind = .punctuation ∧ t.text = [scalar c] := by
  rw [Token.isMark, Bool.and_eq_true, beq_iff_eq, beq_iff_eq]

theorem kind_of_isMark {c : Char} (h : t.isMark c = true) : t.kind = .punctuation :=
  (isMark_iff.mp h).1

theorem isMark_of_ne {c e : Char} (h : t.isMark c = true) (hne : c ≠ e) : t.isMark e = false := by
  rw [Token.isMark, (isMark_iff.mp h).2]
  simp [hne]

theorem isMark_of_kind_ne (h : t.kind ≠ .punctuation) (c : Char) : t.isMark c = false := by
  rw [Token.isMark, beq_eq_false_iff_ne.mpr h, Bool.false_and]

/-! ## Single tokens -/

/-- The token stands for the value by itself. -/
inductive Stands (t : Token) : Value → Prop
  | string {content : Text} (kind : t.kind = .string)
      (decoded : decodeString t.text = .ok content) : Stands t (.string content)
  | number (kind : t.kind = .number) : Stands t (.number t.text)
  | word {v : Value} (kind : t.kind = .word) (reserved : reserved? t.text = some v) : Stands t v

/-- The token is a key: a string, or any word. -/
inductive Names (t : Token) : Text → Prop
  | string {k : Text} (kind : t.kind = .string) (decoded : decodeString t.text = .ok k) : Names t k
  | word (kind : t.kind = .word) : Names t t.text

/-- A token that stands for a value is no mark. -/
theorem Stands.no_mark (h : Stands t v) (c : Char) : t.isMark c = false := by
  refine isMark_of_kind_ne (fun hkind => ?_) c
  cases h with
  | string kind _ | number kind | word kind _ => rw [hkind] at kind; contradiction

/-- A token that names a member is no mark. -/
theorem Names.no_mark (h : Names t k) (c : Char) : t.isMark c = false := by
  refine isMark_of_kind_ne (fun hkind => ?_) c
  cases h with
  | string kind _ | word kind => rw [hkind] at kind; contradiction

/-- The result of a computation is used only if there is one. -/
theorem map_eq_ok_iff {ε α β : Type} {r : Except ε α} {f : α → β} {b : β} :
    r.map f = .ok b ↔ ∃ a, r = .ok a ∧ f a = b := by
  cases r with
  | error e => simp [Except.map]
  | ok a => simp [Except.map]

/-- The canonical dialect reads the content of a string token. -/
theorem Canonical.string_eq_ok_iff :
    Canonical.string t = .ok content ↔ decodeString t.text = .ok content := by
  unfold Canonical.string
  cases decodeString t.text <;> simp

/-- The lenient dialect reads the content of a string token. -/
theorem Lenient.string_eq_ok_iff :
    Lenient.string t = .ok content ↔ decodeString t.text = .ok content := by
  unfold Lenient.string
  cases decodeString t.text <;> simp

/-- The lenient dialect takes strings and words for keys. -/
theorem Lenient.keyOf_eq_ok_iff : Lenient.keyOf t = .ok k ↔ Names t k := by
  rw [Lenient.keyOf]
  -- a key is a string or any word
  split
  · next hkind =>
    rw [Lenient.string_eq_ok_iff]
    refine ⟨.string hkind, fun h => ?_⟩
    cases h with
    | string _ decoded => exact decoded
    | word kind => rw [hkind] at kind; contradiction
  · next hstring =>
    split
    · next hkind =>
      constructor
      · intro h
        obtain rfl := Except.ok.inj h
        exact .word hkind
      · intro h
        cases h with
        | string kind _ => contradiction
        | word => rfl
    · next hword =>
      refine iff_of_false (fun h => by contradiction) fun h => ?_
      cases h with
      | string kind _ => contradiction
      | word kind => contradiction

/-! ## The first token of a value -/

/-- Reads the first token of a value, in either dialect. -/
def startIn : Style → Token → List Frame → Except Fault State
  | .canonical => Canonical.startValue
  | .lenient => Lenient.startValue

/-- What starts a value opens an object or an array, or is a value by itself and ends at once. -/
inductive Begins (t : Token) (outer : List Frame) : State → Prop
  | object (opens : t.isMark '\x7b' = true) : Begins t outer (.key .opened t [] outer)
  | array (opens : t.isMark '[' = true) : Begins t outer (.item .opened t [] outer)
  | value {v : Value} (stands : Stands t v) : Begins t outer (.deliver v outer)

/-- No value starts with a mark other than an opening bracket or brace. -/
theorem Begins.no_mark (h : Begins t outer s) {c : Char} (hbrace : c ≠ '\x7b')
    (hbracket : c ≠ '[') : t.isMark c = false := by
  cases h with
  | object opens => exact isMark_of_ne opens hbrace.symm
  | array opens => exact isMark_of_ne opens hbracket.symm
  | value stands => exact stands.no_mark c

/-- Strings are left to the dialect; whatever else starts a value does so in both dialects. -/
theorem start?_eq_some_iff :
    State.start? t outer = some s ↔ Begins t outer s ∧ t.kind ≠ .string := by
  constructor
  · intro h
    unfold State.start? at h
    split at h
    · next hbrace =>
      obtain rfl := Option.some.inj h
      exact ⟨.object hbrace, by rw [kind_of_isMark hbrace]; decide⟩
    split at h
    · next hbracket =>
      obtain rfl := Option.some.inj h
      exact ⟨.array hbracket, by rw [kind_of_isMark hbracket]; decide⟩
    split at h
    · next hkind =>
      obtain rfl := Option.some.inj h
      exact ⟨.value (.number hkind), by rw [hkind]; decide⟩
    split at h
    · next hkind =>
      obtain ⟨v, hv, rfl⟩ := Option.map_eq_some_iff.mp h
      exact ⟨.value (.word hkind hv), by rw [hkind]; decide⟩
    · contradiction
  · rintro ⟨h, hstring⟩
    unfold State.start?
    cases h with
    | object opens => rw [if_pos opens]
    | array opens => rw [isMark_of_ne opens (by decide), if_neg Bool.false_ne_true, if_pos opens]
    | value stands =>
      -- a string is none of what starts a value in both dialects
      rw [stands.no_mark, stands.no_mark, if_neg Bool.false_ne_true, if_neg Bool.false_ne_true]
      cases stands with
      | string kind _ => contradiction
      | number kind => rw [if_pos kind]
      | word kind reserved => simp [kind, reserved]

/-- A string token is not looked up as the start of a value. -/
theorem start?_of_string (hkind : t.kind = .string) (outer : List Frame) :
    State.start? t outer = none :=
  Option.eq_none_iff_forall_ne_some.mpr fun _ h => (start?_eq_some_iff.mp h).2 hkind

/-- What a string token starts is the string. -/
theorem begins_string_iff (hkind : t.kind = .string) : Begins t outer s ↔
    ∃ content, decodeString t.text = .ok content ∧ State.deliver (.string content) outer = s := by
  constructor
  · intro h
    cases h with
    | object opens | array opens => rw [kind_of_isMark opens] at hkind; contradiction
    | value stands =>
      cases stands with
      | string _ decoded => exact ⟨_, decoded, rfl⟩
      | number kind | word kind _ => rw [kind] at hkind; contradiction
  · rintro ⟨content, decoded, rfl⟩
    exact .value (.string hkind decoded)

/-- The dialects agree on what starts a value. -/
theorem startIn_eq_ok_iff : startIn d t outer = .ok s ↔ Begins t outer s := by
  -- strings are left to the dialects, which agree on them by the lemma above
  by_cases hkind : t.kind = .string
  · rw [begins_string_iff hkind]
    cases d with
    | canonical =>
      simp only [startIn, Canonical.startValue, start?_of_string hkind, if_pos hkind,
        map_eq_ok_iff, Canonical.string_eq_ok_iff]
    | lenient =>
      simp only [startIn, Lenient.startValue, start?_of_string hkind, if_pos hkind,
        map_eq_ok_iff, Lenient.string_eq_ok_iff]
  · have hstart : State.start? t outer = some s ↔ Begins t outer s := by
      rw [start?_eq_some_iff, and_iff_left hkind]
    rw [← hstart]
    cases d with
    | canonical =>
      rw [startIn, Canonical.startValue, if_neg hkind]
      cases State.start? t outer with
      | some s₀ => simp
      | none =>
        refine iff_of_false (fun h => ?_) (by simp)
        dsimp only at h
        split at h <;> contradiction
    | lenient =>
      rw [startIn, Lenient.startValue, if_neg hkind]
      cases State.start? t outer <;> simp

/-! ## Steps -/

/-- Reads one token, in either dialect. -/
def stepIn : Style → State → Token → Except Fault State
  | .canonical => Canonical.step
  | .lenient => Lenient.step

/-- Reads a list of tokens, in either dialect. -/
def runIn (s : Style) (st : State) (ts : List Token) : Except Fault State :=
  State.run (stepIn s) st ts

/-- An item or a member may start at the place. -/
def Place.Ready (s : Style) (place : Place) : Prop := place ≠ .ended ∨ s = .lenient

/-- The array or object may end at the place. -/
def Place.Closes (d : Style) (place : Place) : Prop := place ≠ .comma ∨ d = .lenient

/-- The token is read by a step from one state to another. -/
inductive Step (d : Style) (t : Token) : State → State → Prop
  /-- A value starts. -/
  | value {outer : List Frame} {s : State} (begins : Begins t outer s) : Step d t (.value outer) s
  /-- An item starts. -/
  | item {place : Place} {o : Token} {before : List Value} {outer : List Frame} {s : State}
      (ready : place.Ready d) (begins : Begins t (.array o before :: outer) s) :
      Step d t (.item place o before outer) s
  /-- A comma stands behind an item. -/
  | itemComma {o : Token} {before : List Value} {outer : List Frame}
      (comma : t.isMark ',' = true) :
      Step d t (.item .ended o before outer) (.item .comma o before outer)
  /-- An array ends. -/
  | itemClose {place : Place} {o : Token} {before : List Value} {outer : List Frame}
      (closable : place.Closes d) (closes : t.isMark ']' = true) :
      Step d t (.item place o before outer) (.deliver (.array before.reverse) outer)
  /-- A member starts with its key. -/
  | key {place : Place} {o : Token} {before : List (Text × Value)} {outer : List Frame} {k : Text}
      (ready : place.Ready d) (names : Names t k) (quoted : t.kind = .string ∨ d = .lenient) :
      Step d t (.key place o before outer) (.colon o before k outer)
  /-- A comma stands behind a member. -/
  | keyComma {o : Token} {before : List (Text × Value)} {outer : List Frame}
      (comma : t.isMark ',' = true) :
      Step d t (.key .ended o before outer) (.key .comma o before outer)
  /-- An object ends. -/
  | keyClose {place : Place} {o : Token} {before : List (Text × Value)} {outer : List Frame}
      (closable : place.Closes d) (closes : t.isMark '\x7d' = true) :
      Step d t (.key place o before outer) (.deliver (.object before.reverse) outer)
  /-- A colon stands behind a key. -/
  | colon {o : Token} {before : List (Text × Value)} {k : Text} {outer : List Frame}
      (isColon : t.isMark ':' = true) :
      Step d t (.colon o before k outer) (.value (.member o before k :: outer))

/-- The lenient dialect takes every step of the canonical one. -/
theorem Step.lenient (h : Step d t s s') : Step .lenient t s s' := by
  cases h with
  | value begins => exact .value begins
  | item _ begins => exact .item (Or.inr rfl) begins
  | itemComma comma => exact .itemComma comma
  | itemClose _ closes => exact .itemClose (Or.inr rfl) closes
  | key _ names _ => exact .key (Or.inr rfl) names (Or.inr rfl)
  | keyComma comma => exact .keyComma comma
  | keyClose _ closes => exact .keyClose (Or.inr rfl) closes
  | colon isColon => exact .colon isColon

/-- A token that the canonical dialect takes is one of its steps. -/
theorem Canonical.step_of_ok (h : Canonical.step s t = .ok s') : Step .canonical t s s' := by
  cases s with
  | value outer => exact .value (startIn_eq_ok_iff (d := .canonical).mp h)
  | item place o before outer =>
    cases place with
    | opened =>
      rw [Canonical.step] at h
      split at h
      · next hclose =>
        obtain rfl := Except.ok.inj h
        exact .itemClose (Or.inl (by decide)) hclose
      · exact .item (Or.inl (by decide)) (startIn_eq_ok_iff (d := .canonical).mp h)
    | comma => exact .item (Or.inl (by decide)) (startIn_eq_ok_iff (d := .canonical).mp h)
    | ended =>
      rw [Canonical.step] at h
      split at h
      · next hclose =>
        obtain rfl := Except.ok.inj h
        exact .itemClose (Or.inl (by decide)) hclose
      split at h
      · next hcomma =>
        obtain rfl := Except.ok.inj h
        exact .itemComma hcomma
      · contradiction
  | key place o before outer =>
    by_cases hplace : place = .ended
    · -- only behind a member the place makes a difference
      subst hplace
      rw [Canonical.step] at h
      split at h
      · next hclose =>
        obtain rfl := Except.ok.inj h
        exact .keyClose (Or.inl (by decide)) hclose
      split at h
      · next hcomma =>
        obtain rfl := Except.ok.inj h
        exact .keyComma hcomma
      · contradiction
    · rw [Canonical.step.eq_6 _ _ _ _ _ hplace] at h
      split at h
      · next hclose =>
        obtain rfl := Except.ok.inj h
        simp only [Bool.and_eq_true, decide_eq_true_eq] at hclose
        obtain ⟨hclose, rfl⟩ := hclose
        exact .keyClose (Or.inl (by decide)) hclose
      split at h
      · next hkind =>
        obtain ⟨k, hk, rfl⟩ := map_eq_ok_iff.mp h
        exact .key (Or.inl hplace) (.string hkind (Canonical.string_eq_ok_iff.mp hk))
          (Or.inl hkind)
      · contradiction
  | colon o before k outer =>
    rw [Canonical.step] at h
    split at h
    · next hcolon =>
      obtain rfl := Except.ok.inj h
      exact .colon hcolon
    · contradiction
  | done v => contradiction

/-- A token that the lenient dialect takes is one of its steps. -/
theorem Lenient.step_of_ok (h : Lenient.step s t = .ok s') : Step .lenient t s s' := by
  cases s with
  | value outer => exact .value (startIn_eq_ok_iff (d := .lenient).mp h)
  | item place o before outer =>
    simp only [Lenient.step, Bool.and_eq_true, decide_eq_true_eq] at h
    split at h
    · next hmark =>
      obtain ⟨hcomma, rfl⟩ := hmark
      obtain rfl := Except.ok.inj h
      exact .itemComma hcomma
    split at h
    · next hclose =>
      obtain rfl := Except.ok.inj h
      exact .itemClose (Or.inr rfl) hclose
    · exact .item (Or.inr rfl) (startIn_eq_ok_iff (d := .lenient).mp h)
  | key place o before outer =>
    simp only [Lenient.step, Bool.and_eq_true, decide_eq_true_eq] at h
    split at h
    · next hmark =>
      obtain ⟨hcomma, rfl⟩ := hmark
      obtain rfl := Except.ok.inj h
      exact .keyComma hcomma
    split at h
    · next hclose =>
      obtain rfl := Except.ok.inj h
      exact .keyClose (Or.inr rfl) hclose
    · obtain ⟨k, hk, rfl⟩ := map_eq_ok_iff.mp h
      exact .key (Or.inr rfl) (Lenient.keyOf_eq_ok_iff.mp hk) (Or.inr rfl)
  | colon o before k outer =>
    rw [Lenient.step] at h
    split at h
    · next hcolon =>
      obtain rfl := Except.ok.inj h
      exact .colon hcolon
    · contradiction
  | done v => contradiction

/-- No two of the conditions under which the canonical dialect goes on hold of one token. -/
theorem Step.canonical_ok (h : Step .canonical t s s') : Canonical.step s t = .ok s' := by
  cases h with
  | value begins => exact startIn_eq_ok_iff (d := .canonical).mpr begins
  | @item place o before outer _ ready begins =>
    -- an item may start where the bracket has just been opened or behind a comma
    have hstart := startIn_eq_ok_iff (d := .canonical).mpr begins
    cases place with
    | opened =>
      rw [Canonical.step, begins.no_mark (by decide) (by decide), if_neg Bool.false_ne_true]
      exact hstart
    | comma => exact hstart
    | ended => exact absurd rfl (ready.resolve_right (by decide))
  | itemComma comma =>
    rw [Canonical.step, isMark_of_ne comma (by decide), if_neg Bool.false_ne_true, if_pos comma]
  | @itemClose place _ _ _ closable closes =>
    cases place with
    | opened | ended => rw [Canonical.step, if_pos closes]
    | comma => exact absurd rfl (closable.resolve_right (by decide))
  | @key place _ _ _ _ ready names quoted =>
    have hplace : place ≠ .ended := ready.resolve_right (by decide)
    have hkind : t.kind = .string := quoted.resolve_right (by decide)
    rw [Canonical.step.eq_6 _ _ _ _ _ hplace, names.no_mark, if_neg (by simp), if_pos hkind,
      map_eq_ok_iff]
    cases names with
    | string _ decoded => exact ⟨_, Canonical.string_eq_ok_iff.mpr decoded, rfl⟩
    | word kind => rw [hkind] at kind; contradiction
  | keyComma comma =>
    rw [Canonical.step, isMark_of_ne comma (by decide), if_neg Bool.false_ne_true, if_pos comma]
  | @keyClose place _ _ _ closable closes =>
    cases place with
    | opened => simp [Canonical.step, closes]
    | ended => rw [Canonical.step, if_pos closes]
    | comma => exact absurd rfl (closable.resolve_right (by decide))
  | colon isColon => rw [Canonical.step, if_pos isColon]

/-- The lenient dialect takes the token of each of its steps. -/
theorem Step.lenient_ok (h : Step .lenient t s s') : Lenient.step s t = .ok s' := by
  cases h with
  | value begins => exact startIn_eq_ok_iff (d := .lenient).mpr begins
  | item _ begins =>
    rw [Lenient.step, begins.no_mark (by decide) (by decide), if_neg (by simp),
      begins.no_mark (by decide) (by decide), if_neg Bool.false_ne_true]
    exact startIn_eq_ok_iff (d := .lenient).mpr begins
  | itemComma comma => rw [Lenient.step, comma, if_pos (by simp)]
  | itemClose _ closes =>
    rw [Lenient.step, isMark_of_ne closes (by decide), if_neg (by simp), if_pos closes]
  | key _ names _ =>
    rw [Lenient.step, names.no_mark, names.no_mark, if_neg (by simp), if_neg Bool.false_ne_true,
      map_eq_ok_iff]
    exact ⟨_, Lenient.keyOf_eq_ok_iff.mpr names, rfl⟩
  | keyComma comma => rw [Lenient.step, comma, if_pos (by simp)]
  | keyClose _ closes =>
    rw [Lenient.step, isMark_of_ne closes (by decide), if_neg (by simp), if_pos closes]
  | colon isColon => rw [Lenient.step, if_pos isColon]

/-- A token is read just if there is a step that reads it. -/
theorem stepIn_eq_ok_iff : stepIn d s t = .ok s' ↔ Step d t s s' := by
  cases d with
  | canonical => exact ⟨Canonical.step_of_ok, Step.canonical_ok⟩
  | lenient => exact ⟨Lenient.step_of_ok, Step.lenient_ok⟩

/-! ## Runs -/

variable {ts us : List Token}

/-- Reading two parts is reading the one and then the other. -/
theorem runIn_append_eq_ok_iff : runIn d s (ts ++ us) = .ok s' ↔
    ∃ next, runIn d s ts = .ok next ∧ runIn d next us = .ok s' := by
  rw [runIn, State.run, List.foldlM_append, ← State.run, ← runIn]
  cases runIn d s ts with
  | error f => exact iff_of_false (fun h => by contradiction) (fun ⟨_, h, _⟩ => by contradiction)
  | ok next =>
    change runIn d next us = .ok s' ↔ _
    simp

/-- Reading some tokens is taking a step with the first one and reading the others. -/
theorem runIn_cons_eq_ok_iff : runIn d s (t :: ts) = .ok s' ↔
    ∃ next, Step d t s next ∧ runIn d next ts = .ok s' := by
  simp only [← stepIn_eq_ok_iff]
  rw [runIn, State.run, List.foldlM_cons]
  cases stepIn d s t with
  | error f => exact iff_of_false (fun h => by contradiction) (fun ⟨_, h, _⟩ => by contradiction)
  | ok next =>
    change runIn d next ts = .ok s' ↔ _
    simp

theorem runIn_nil (d : Style) (s : State) : runIn d s [] = .ok s := rfl

/-- A step is taken before the other tokens are read. -/
theorem runIn_cons (h : Step d t s s') (ts : List Token) :
    runIn d s (t :: ts) = runIn d s' ts := by
  rw [runIn, State.run, List.foldlM_cons, stepIn_eq_ok_iff.mpr h]
  rfl

/-- What has been read is followed by the reading of the rest. -/
theorem runIn_append (h : runIn d s ts = .ok s') (us : List Token) :
    runIn d s (ts ++ us) = runIn d s' us := by
  rw [runIn, State.run] at h
  rw [runIn, State.run, List.foldlM_append, h]
  rfl

/-- What every step keeps, reading keeps. -/
theorem runIn_keeps {P : State → Prop} (hs : P s)
    (hstep : ∀ t ∈ ts, ∀ s s', Step d t s s' → P s → P s') (h : runIn d s ts = .ok s') : P s' := by
  induction ts generalizing s with
  | nil =>
    obtain rfl := Except.ok.inj h
    exact hs
  | cons t ts ih =>
    obtain ⟨next, hfirst, hrest⟩ := runIn_cons_eq_ok_iff.mp h
    exact ih (hstep t List.mem_cons_self s next hfirst hs)
      (fun u hu => hstep u (List.mem_cons_of_mem t hu)) hrest

/-! ## Documents -/

/-- A document ends every array and object. -/
theorem Canonical.read_eq_ok_iff {length : Nat} :
    Canonical.read length ts = .ok v ↔ runIn .canonical (.value []) ts = .ok (.done v) := by
  rw [Canonical.read]
  change (do Canonical.finish length (← runIn .canonical (.value []) ts)) = _ ↔ _
  -- what is still open at the end of the tokens is a fault, and so is a value that is still to come
  cases runIn .canonical (.value []) ts with
  | error f => exact iff_of_false (fun h => by contradiction) (fun h => by contradiction)
  | ok s =>
    change Canonical.finish length s = _ ↔ _
    cases s with
    | done w => simp [Canonical.finish]
    | value | colon => simp [Canonical.finish]
    | item place | key place => cases place <;> simp [Canonical.finish]

/-- A document is all that has been read in the lenient dialect, too. -/
theorem Lenient.read_eq_ok_iff {length : Nat} :
    Lenient.read length ts = .ok v ↔ runIn .lenient (.value []) ts = .ok (.done v) := by
  rw [Lenient.read]
  change (do Lenient.finish length (← runIn .lenient (.value []) ts)) = _ ↔ _
  cases runIn .lenient (.value []) ts with
  | error f => exact iff_of_false (fun h => by contradiction) (fun h => by contradiction)
  | ok s =>
    change Lenient.finish length s = _ ↔ _
    cases s with
    | done w => simp [Lenient.finish]
    | value | colon | item | key => simp [Lenient.finish]

/-- A text in the canonical dialect spells a value if it has no mark of byte order and its tokens
lead from the start to the value. -/
theorem Canonical.parse_eq_ok_iff {text : Text} : Canonical.parse text = .ok v ↔
    text.head? ≠ some Canonical.byteOrderMark ∧
      runIn .canonical (.value []) (Canonical.lex text) = .ok (.done v) := by
  rw [Canonical.parse]
  split
  · next hmark => simp [hmark]
  · next hmark => rw [Canonical.read_eq_ok_iff, and_iff_right hmark]

/-- A text in the lenient dialect spells a value if it can be cut into tokens that lead from the
start to the value. -/
theorem Lenient.parse_eq_ok_iff {text : Text} : Lenient.parse text = .ok v ↔
    ∃ ts, Lenient.lex text = .ok ts ∧ runIn .lenient (.value []) ts = .ok (.done v) := by
  rw [Lenient.parse]
  cases Lenient.lex text with
  | error f => exact iff_of_false (fun h => by contradiction) (fun ⟨ts, h, _⟩ => by contradiction)
  | ok ts =>
    change Lenient.read text.length ts = _ ↔ _
    simp [Lenient.read_eq_ok_iff]

end Dialects.Json
