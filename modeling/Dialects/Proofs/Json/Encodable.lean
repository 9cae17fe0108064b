import Dialects.Text.Utf8
import Dialects.Proofs.Json.Extension

/-!
# Documents that can be stored

A text can be stored unless it holds a surrogate (`Utf8.encode_eq_ok_iff`). No text that was read
from a file holds one, yet a string may denote one, by an escape whose partner is missing, and a
string is printed as what it denotes. So a converted document can be stored just when none of the
strings and keys of the text that was converted denotes a surrogate (`storable_iff`); there are
texts of which one does (`not_storable_loneSurrogate`).

The strings are followed through the reader token by token: a step adds what its token denotes to
the document and nothing else that could be a surrogate (`Step.scalar_iff`). Only the
lenient reader needs to be looked at, since it reads whatever the canonical one reads.
-/

namespace Dialects

open CodePoint (scalar)

/-! ## Texts without surrogates -/

namespace Text

/-- A text is free of surrogates if each of its code points is none. -/
theorem isScalar_iff {t : Text} : t.isScalar = true ↔ ∀ c ∈ t, c.isScalar = true :=
  List.all_eq_true

@[simp]
theorem isScalar_nil : isScalar [] = true := rfl

@[simp]
theorem isScalar_cons (c : CodePoint) (t : Text) :
    isScalar (c :: t) = (c.isScalar && isScalar t) := rfl

/-- Two texts together are free of surrogates if both are. -/
@[simp]
theorem isScalar_append (t u : Text) : isScalar (t ++ u) = (isScalar t && isScalar u) :=
  List.all_append

/-- A text with code points from one that is free of surrogates is free of them. -/
theorem isScalar_of_subset {t u : Text} (ht : t.isScalar = true) (h : u ⊆ t) :
    u.isScalar = true :=
  isScalar_iff.mpr fun c hc => isScalar_iff.mp ht c (h hc)

/-- Texts are free of surrogates together if each of them is, as is what separates them. -/
theorem isScalar_intercalate {sep : Text} (hsep : sep.isScalar = true) (ts : List Text) :
    isScalar (sep.intercalate ts) = true ↔ ∀ t ∈ ts, t.isScalar = true := by
  -- on the texts, with the last one apart, since no separator follows it
  induction ts with
  | nil => simp
  | cons t ts ih =>
    cases ts with
    | nil => simp
    | cons u us =>
      rw [List.intercalate_cons_cons, isScalar_append, isScalar_append, hsep, Bool.and_true,
        Bool.and_eq_true, ih, List.forall_mem_cons (l := u :: us)]

end Text

/-- A text has an encoding unless it holds a surrogate. -/
theorem Utf8.encode_eq_ok_iff (t : Text) :
    (∃ bytes, Utf8.encode t = .ok bytes) ↔ t.isScalar = true := by
  -- the offset only counts for a fault, and the induction needs it to vary
  suffices ∀ start, (∃ bytes, Utf8.encodeFrom start t = .ok bytes) ↔ t.isScalar = true from this 0
  induction t with
  | nil => simp [Utf8.encodeFrom]
  | cons c t ih =>
    intro start
    cases c with
    | surrogate n => simp [Utf8.encodeFrom, CodePoint.isScalar]
    | scalar c =>
      rw [Text.isScalar_cons, CodePoint.isScalar, Bool.true_and, ← ih (start + 1)]
      cases hrest : Utf8.encodeFrom (start + 1) t <;>
        simp [Utf8.encodeFrom, hrest, Except.map]

namespace Json

/-- No text in the document holds a surrogate. -/
inductive Value.Scalar : Value → Prop where
  | null : Scalar .null
  | bool (b : Bool) : Scalar (.bool b)
  | number (t : Text) (h : t.isScalar = true) : Scalar (.number t)
  | string (content : Text) (h : content.isScalar = true) : Scalar (.string content)
  | array (items : List Value) (h : ∀ v ∈ items, Scalar v) : Scalar (.array items)
  | object (members : List (Text × Value)) (keys : ∀ m ∈ members, m.1.isScalar = true)
      (values : ∀ m ∈ members, Scalar m.2) : Scalar (.object members)

namespace Value

variable {t : Text} {items : List Value} {members : List (Text × Value)}

/-- A number holds no surrogate if its spelling does not. -/
@[simp]
theorem scalar_number_iff : Scalar (.number t) ↔ t.isScalar = true :=
  ⟨fun h => by cases h; assumption, .number t⟩

/-- A string holds no surrogate if its content does not. -/
@[simp]
theorem scalar_string_iff : Scalar (.string t) ↔ t.isScalar = true :=
  ⟨fun h => by cases h; assumption, .string t⟩

/-- An array holds no surrogate if none of its items does. -/
@[simp]
theorem scalar_array_iff : Scalar (.array items) ↔ ∀ v ∈ items, v.Scalar :=
  ⟨fun h => by cases h; assumption, .array items⟩

/-- An object holds no surrogate if none of its keys and values does. -/
@[simp]
theorem scalar_object_iff :
    Scalar (.object members) ↔ ∀ m ∈ members, m.1.isScalar = true ∧ m.2.Scalar := by
  refine ⟨fun h => ?_, fun h => .object members (fun m hm => (h m hm).1) fun m hm => (h m hm).2⟩
  cases h with
  | object _ keys values => exact fun m hm => ⟨keys m hm, values m hm⟩

end Value

/-! ## Printing

A string is printed as what it denotes: quotes, backslashes and control characters are escaped,
surrogates are not. -/

/-- What stands for a code point in a string is a surrogate only if the code point is one. -/
theorem isScalar_stringUnit (c : CodePoint) : (stringUnit c).isScalar = c.isScalar := by
  cases c with
  | surrogate n =>
    have hval : ¬ (CodePoint.surrogate n).val < 0x20 := by simp only [CodePoint.val]; omega
    simp [stringUnit, hval]
  | scalar c =>
    unfold stringUnit
    split_ifs <;> rfl

/-- A string that is printed holds a surrogate only if its content does. -/
theorem isScalar_encodeString (t : Text) : (encodeString t).isScalar = t.isScalar := by
  have hcontent : Text.isScalar (t.flatMap stringUnit) = t.isScalar := by
    induction t with
    | nil => rfl
    | cons c t ih =>
      rw [List.flatMap_cons, Text.isScalar_append, isScalar_stringUnit, ih, Text.isScalar_cons]
  rw [encodeString, List.cons_append, Text.isScalar_cons, Text.isScalar_append, hcontent]
  simp [CodePoint.isScalar]

namespace Layout

variable (l : Layout)

/-- A key that is printed holds a surrogate only if the key does. -/
theorem isScalar_key (k : Text) : (l.key k).isScalar = k.isScalar := by
  unfold key
  split
  · rfl
  · exact isScalar_encodeString k

theorem isScalar_margin (level : Nat) : (l.margin level).isScalar = true :=
  Text.isScalar_iff.mpr fun c hc => by rw [List.eq_of_mem_replicate hc]; rfl

theorem isScalar_separator : l.separator.isScalar = true := by
  unfold separator
  cases l.style <;> rfl

/-- What is printed between brackets holds a surrogate only if an item does. -/
theorem isScalar_enclose (opener closer : Char) (level : Nat) (items : List Text) :
    (l.enclose opener closer level items).isScalar = true ↔
      ∀ t ∈ items, t.isScalar = true := by
  unfold enclose
  split
  · next hempty =>
    rw [List.isEmpty_iff.mp hempty]
    simp [CodePoint.isScalar]
  · simp [CodePoint.isScalar, Text.newline, Text.isScalar_intercalate l.isScalar_separator,
      isScalar_margin]

/-- What is printed holds a surrogate just when the document does. -/
theorem isScalar_value {v : Value} (h : v.WellFormed) (level : Nat) :
    (l.value level v).isScalar = true ↔ v.Scalar := by
  -- brackets, separators and indentation are no surrogates, so that only what they enclose matters
  induction h generalizing level with
  | null => exact ⟨fun _ => .null, fun _ => Text.isScalar_ofString "null"⟩
  | bool b =>
    refine ⟨fun _ => .bool b, fun _ => ?_⟩
    cases b with
    | true => exact Text.isScalar_ofString "true"
    | false => exact Text.isScalar_ofString "false"
  | number t _ => rw [value, Value.scalar_number_iff]
  | string content => rw [value, isScalar_encodeString, Value.scalar_string_iff]
  | array items _ ih =>
    rw [value, isScalar_enclose, items_eq_map, List.forall_mem_map, Value.scalar_array_iff]
    exact forall₂_congr fun v hv => ih v hv (level + 1)
  | object members _ ih =>
    rw [value, isScalar_enclose, members_eq_map, List.forall_mem_map, Value.scalar_object_iff]
    refine forall₂_congr fun m hm => ?_
    rw [member, Text.isScalar_append, isScalar_key, Bool.and_eq_true, ← ih m hm (level + 1)]
    rfl

/-- A printed document holds a surrogate only if the value does. -/
theorem isScalar_document {v : Value} (h : v.WellFormed) :
    (l.document v).isScalar = true ↔ v.Scalar := by
  rw [document, Text.isScalar_append, Bool.and_eq_true, l.isScalar_value h 0]
  exact and_iff_left rfl

end Layout

/-! ## Reading -/

/-- What a string token denotes. -/
def Token.content? (t : Token) : Option Text :=
  if t.kind = .string then (decodeString t.text).toOption else none

/-- What the strings of a text denote, quoted keys included, in their order. -/
def contents (t : Text) : List Text :=
  match Lenient.lex t with
  | .ok ts => ts.filterMap Token.content?
  | .error _ => []

/-- Nothing before the value being read holds a surrogate, nor does its key. -/
def Frame.Scalar : Frame → Prop
  | .array _ before => ∀ v ∈ before, v.Scalar
  | .member _ before k =>
    k.isScalar = true ∧ ∀ m ∈ before, m.1.isScalar = true ∧ m.2.Scalar

/-- Nothing that has been read holds a surrogate. -/
def State.Scalar : State → Prop
  | .value outer => ∀ f ∈ outer, f.Scalar
  | .item _ _ before outer => (∀ v ∈ before, v.Scalar) ∧ ∀ f ∈ outer, f.Scalar
  | .key _ _ before outer =>
    (∀ m ∈ before, m.1.isScalar = true ∧ m.2.Scalar) ∧ ∀ f ∈ outer, f.Scalar
  | .colon _ before k outer =>
    (k.isScalar = true ∧ ∀ m ∈ before, m.1.isScalar = true ∧ m.2.Scalar) ∧
      ∀ f ∈ outer, f.Scalar
  | .done v => v.Scalar

/-- A value that is delivered brings its surrogates to what is open around it. -/
theorem State.scalar_deliver_iff (v : Value) (outer : List Frame) :
    (State.deliver v outer).Scalar ↔ v.Scalar ∧ ∀ f ∈ outer, f.Scalar := by
  cases outer with
  | nil => simp [State.deliver, State.Scalar]
  | cons f outer =>
    cases f with
    | array o before => simp [State.deliver, State.Scalar, Frame.Scalar, and_assoc]
    | member o before k =>
      simp only [State.deliver, State.Scalar, Frame.Scalar, List.forall_mem_cons]
      tauto

/-- An array that is closed has the surrogates of its items. -/
theorem State.scalar_deliver_array_iff (before : List Value) (outer : List Frame) :
    (State.deliver (.array before.reverse) outer).Scalar ↔
      (∀ v ∈ before, v.Scalar) ∧ ∀ f ∈ outer, f.Scalar := by
  simp [State.scalar_deliver_iff]

/-- An object that is closed has the surrogates of its keys and values. -/
theorem State.scalar_deliver_object_iff (before : List (Text × Value)) (outer : List Frame) :
    (State.deliver (.object before.reverse) outer).Scalar ↔
      (∀ m ∈ before, m.1.isScalar = true ∧ m.2.Scalar) ∧ ∀ f ∈ outer, f.Scalar := by
  simp [State.scalar_deliver_iff]

/-- The words for values stand for values without surrogates. -/
theorem reserved?_scalar {t : Text} {v : Value} (h : reserved? t = some v) : v.Scalar := by
  simp only [reserved?, reserved, List.lookup_cons, List.lookup_nil] at h
  repeat' split at h
  · obtain rfl := Option.some.inj h
    exact .bool true
  · obtain rfl := Option.some.inj h
    exact .bool false
  · obtain rfl := Option.some.inj h
    exact .null
  · contradiction

section Step

variable {s s' : State} {t : Token} {outer : List Frame}

/-- Only a string token has a content. -/
theorem Token.content?_of_ne (h : t.kind ≠ .string) : t.content? = none := by
  rw [Token.content?, if_neg h]

theorem Token.content?_of_isMark {c : Char} (h : t.isMark c = true) : t.content? = none :=
  Token.content?_of_ne (by rw [kind_of_isMark h]; decide)

/-- A string token that can be read denotes its content. -/
theorem Token.content?_of_decoded {content : Text} (hkind : t.kind = .string)
    (h : decodeString t.text = .ok content) : t.content? = some content := by
  rw [Token.content?, if_pos hkind, h]
  rfl

/-- A value of one token holds a surrogate only if it is a string that denotes one. -/
theorem Stands.scalar_iff {v : Value} (ht : t.text.isScalar = true) (h : Stands t v) :
    v.Scalar ↔ ∀ content ∈ t.content?, content.isScalar = true := by
  cases h with
  | string kind decoded =>
    rw [Token.content?_of_decoded kind decoded, Value.scalar_string_iff]
    simp
  | number kind =>
    rw [Token.content?_of_ne (by rw [kind]; decide), Value.scalar_number_iff]
    simp [ht]
  | word kind reserved =>
    rw [Token.content?_of_ne (by rw [kind]; decide)]
    simp [reserved?_scalar reserved]

/-- A key that is a word holds no surrogate; one that is a string, what the string denotes. -/
theorem Names.scalar_iff {k : Text} (ht : t.text.isScalar = true) (h : Names t k) :
    k.isScalar = true ↔ ∀ content ∈ t.content?, content.isScalar = true := by
  cases h with
  | string kind decoded => simp [Token.content?_of_decoded kind decoded]
  | word kind => simp [Token.content?_of_ne (t := t) (by rw [kind]; decide), ht]

/-- The token that a value begins with brings in the surrogates of its content. -/
theorem Begins.scalar_iff (ht : t.text.isScalar = true) (h : Begins t outer s) :
    s.Scalar ↔ (∀ f ∈ outer, f.Scalar) ∧ ∀ content ∈ t.content?, content.isScalar = true := by
  cases h with
  | object opens | array opens => simp [State.Scalar, Token.content?_of_isMark opens]
  | value stands => rw [State.scalar_deliver_iff, stands.scalar_iff ht, and_comm]

/-- A step adds what its token denotes, and nothing else that could be a surrogate. -/
theorem Step.scalar_iff {d : Style} (ht : t.text.isScalar = true) (h : Step d t s s') :
    s'.Scalar ↔ s.Scalar ∧ ∀ content ∈ t.content?, content.isScalar = true := by
  -- what starts a value adds its content, and a mark has none
  cases h with
  | value begins => exact begins.scalar_iff ht
  | item _ begins =>
    rw [begins.scalar_iff ht, List.forall_mem_cons]
    rfl
  | itemComma hmark | keyComma hmark => simp [State.Scalar, Token.content?_of_isMark hmark]
  | itemClose _ closes =>
    rw [State.scalar_deliver_array_iff]
    simp [State.Scalar, Token.content?_of_isMark closes]
  | keyClose _ closes =>
    rw [State.scalar_deliver_object_iff]
    simp [State.Scalar, Token.content?_of_isMark closes]
  | key _ names _ =>
    rw [← names.scalar_iff ht]
    -- the key is put into the state, and its content is that of the token
    simp only [State.Scalar]
    tauto
  | colon hmark => simp [State.Scalar, Frame.Scalar, Token.content?_of_isMark hmark]

end Step

/-- Reading tokens adds what they denote. -/
theorem runIn_scalar_iff {d : Style} {ts : List Token} (hts : ∀ t ∈ ts, t.text.isScalar = true)
    {s s' : State} (h : runIn d s ts = .ok s') :
    s'.Scalar ↔
      s.Scalar ∧ ∀ content ∈ ts.filterMap Token.content?, content.isScalar = true := by
  -- what one token adds is known, so the induction is on the tokens alone
  induction ts generalizing s with
  | nil =>
    obtain rfl := Except.ok.inj h
    simp
  | cons t ts ih =>
    obtain ⟨u, hstep, hrest⟩ := runIn_cons_eq_ok_iff.mp h
    obtain ⟨ht, hts⟩ := List.forall_mem_cons.mp hts
    rw [ih hts hrest, hstep.scalar_iff ht]
    cases hcontent : t.content? <;> simp [hcontent, and_assoc]

/-- The tokens of a text are pieces of it. -/
theorem Lenient.lexFrom_scalar {offset : Nat} {text : Text} {ts : List Token}
    (htext : text.isScalar = true) (h : Lenient.lexFrom offset text = .ok ts) :
    ∀ t ∈ ts, t.text.isScalar = true := by
  fun_induction Lenient.lexFrom offset text generalizing ts with
  | case1 =>
    obtain rfl := Except.ok.inj h
    simp
  | case2 offset c rest n hgap ih =>
    exact ih (Text.isScalar_of_subset htext
      (List.subset_cons_of_subset c (List.drop_subset n rest))) h
  | case3 => contradiction
  | case4 offset c rest hgap kind n htoken ih =>
    -- what is cut off and what is left are both made of code points of the text
    have hpiece : (c :: rest.take n) ⊆ c :: rest := List.cons_subset_cons c (List.take_subset n rest)
    have hrest : rest.drop n ⊆ c :: rest := List.subset_cons_of_subset c (List.drop_subset n rest)
    cases hlex : Lenient.lexFrom (offset + 1 + n) (rest.drop n) with
    | error f => rw [hlex] at h; contradiction
    | ok us =>
      rw [hlex] at h
      obtain rfl := Except.ok.inj h
      exact List.forall_mem_cons.mpr ⟨Text.isScalar_of_subset htext hpiece,
        ih (Text.isScalar_of_subset htext hrest) hlex⟩

/-- A document holds a surrogate just when a string of its text denotes one. -/
theorem Lenient.parse_scalar_iff {t : Text} {v : Value} (ht : t.isScalar = true)
    (h : Lenient.parse t = .ok v) :
    v.Scalar ↔ ∀ content ∈ contents t, content.isScalar = true := by
  obtain ⟨ts, hlex, hrun⟩ := Lenient.parse_eq_ok_iff.mp h
  have hs : v.Scalar ↔ _ := runIn_scalar_iff (Lenient.lexFrom_scalar ht hlex) hrun
  have hstart : (State.value []).Scalar := List.forall_mem_nil _
  rw [hs, and_iff_right hstart, contents, hlex]

/-! ## Conversions -/

/-- A document that has been converted can be stored just when no string and no key of the text that
was converted denotes a surrogate, whatever the dialects and the indent. -/
theorem storable_iff {t u : Text} {i : Int} (ht : t.isScalar = true)
    (h : toLenient i t = .ok u ∨ toCanonical i t = .ok u ∨ normalize i t = .ok u) :
    (u.isScalar = true ↔ ∀ content ∈ contents t, content.isScalar = true) ∧
      ((∃ bytes, Utf8.encode u = .ok bytes) ↔
        ∀ content ∈ contents t, content.isScalar = true) := by
  rw [Utf8.encode_eq_ok_iff, and_self]
  have hreprint : ∃ l : Layout, reprint Lenient.parse l t = .ok u := by
    obtain h | h | h := h
    · -- What the canonical reader accepts, the lenient one reads alike.
      obtain ⟨hblank, rfl⟩ | ⟨hblank, v, hv, rfl⟩ := reprint_eq_ok h
      · exact ⟨⟨.lenient, (max 1 i).toNat⟩, if_pos hblank⟩
      · exact ⟨_, reprint_of_parse _ hblank (Lenient.parse_of_canonical hv)⟩
    · exact ⟨_, h⟩
    · exact ⟨_, h⟩
  obtain ⟨l, hl⟩ := hreprint
  obtain ⟨hblank, rfl⟩ | ⟨-, v, hv, rfl⟩ := reprint_eq_ok hl
  · have hlex : Lenient.lex t = .ok [] := Lenient.lexFrom_of_blank hblank 0
    simp [contents, hlex]
  · rw [l.isScalar_document (Lenient.parse_wellFormed hv), Lenient.parse_scalar_iff ht hv]

/-- Two escapes that together denote one code point. -/
theorem storable_pair :
    (Text.ofString "\"\\ud83d\\ude00\"").isScalar = true ∧
      toLenient 2 (Text.ofString "\"\\ud83d\\ude00\"") = .ok (Text.ofString "\"😀\"\n") ∧
      (∀ content ∈ contents (Text.ofString "\"\\ud83d\\ude00\""), content.isScalar = true) ∧
      (Text.ofString "\"😀\"\n").isScalar = true ∧
      ∃ bytes, Utf8.encode (Text.ofString "\"😀\"\n") = .ok bytes := by
  have ht : (Text.ofString "\"\\ud83d\\ude00\"").isScalar = true := Text.isScalar_ofString _
  have hshown : toLenient 2 (Text.ofString "\"\\ud83d\\ude00\"") =
      .ok (Text.ofString "\"😀\"\n") := by
    cbv
  have hcontents : contents (Text.ofString "\"\\ud83d\\ude00\"") = [Text.ofString "😀"] := by cbv
  have hscalar :
      ∀ content ∈ contents (Text.ofString "\"\\ud83d\\ude00\""), content.isScalar = true := by
    rw [hcontents]
    decide
  -- the general result says which of the conditions decide about the bytes
  obtain ⟨hu, hbytes⟩ := storable_iff ht (Or.inl hshown)
  exact ⟨ht, hshown, hscalar, hu.mpr hscalar, hbytes.mpr hscalar⟩

/-- An escape without its partner is read as a surrogate and printed as one. -/
theorem not_storable_loneSurrogate :
    (Text.ofString "\"\\ud800\"").isScalar = true ∧
      toLenient 2 (Text.ofString "\"\\ud800\"")
        = .ok [scalar '"', .surrogate 0, scalar '"', Text.newline] ∧
      Text.isScalar [scalar '"', .surrogate 0, scalar '"', Text.newline] = false ∧
      Utf8.encode [scalar '"', .surrogate 0, scalar '"', Text.newline]
        = .error ⟨1, 0xD800, 1⟩ :=
  ⟨by decide, by cbv, by decide, by decide⟩

end Json

end Dialects
