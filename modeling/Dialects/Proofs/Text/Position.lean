import Dialects.Failure

/-!
# Positions name places

A fault in a text is reported with a line and a column instead of an offset. Nothing is lost by
that: the line is one of the text, the column lies in it or directly behind its end, and the offset
can be read off the two (`Located`). Positions follow each other as the offsets do
(`Located.precedes`), so that different places have different positions.
-/

namespace Dialects

/-- The first position stands in an earlier line, or in the same line and further to the front. -/
def Position.Precedes (p q : Position) : Prop :=
  p.line < q.line ∨ p.line = q.line ∧ p.column < q.column

namespace Text

variable {t : Text} {m n k : Nat} {p q : Position}

/-! ## Lines -/

/-- A line break at the start stands behind an empty line. -/
theorem lines_newline (t : Text) : lines (newline :: t) = [] :: lines t := by
  rw [lines, splitOn, if_pos rfl, lines]

/-- A text has a line even if it is empty. -/
theorem lines_ne_nil (t : Text) : lines t ≠ [] := by
  rw [lines, splitOn.eq_def]
  split
  · exact List.cons_ne_nil _ _
  · split
    · exact List.cons_ne_nil _ _
    · split <;> exact List.cons_ne_nil _ _

/-- Any other code point belongs to the first line. -/
theorem lines_cons {c : CodePoint} (hc : c ≠ newline) (t : Text) :
    ∃ l ls, lines t = l :: ls ∧ lines (c :: t) = (c :: l) :: ls := by
  obtain ⟨l, ls, hlines⟩ := List.exists_cons_of_ne_nil (lines_ne_nil t)
  refine ⟨l, ls, hlines, ?_⟩
  rw [lines, splitOn, if_neg hc, ← lines, hlines]

/-- A text has one more line than line breaks. -/
theorem length_lines (t : Text) : t.lines.length = t.count newline + 1 := by
  induction t with
  | nil => rfl
  | cons c t ih =>
    -- a line break starts a line, and any other code point lengthens the first one
    by_cases hc : c = newline
    · subst hc
      rw [lines_newline, List.length_cons, ih, List.count_cons_self]
    · obtain ⟨l, ls, hlines, hcons⟩ := lines_cons hc t
      rw [hlines] at ih
      rw [hcons, List.count_cons_of_ne hc]
      exact ih

/-- How many code points precede the line that `k` other lines precede: those lines, each with a
line feed at its end. -/
def lineStart (t : Text) (k : Nat) : Nat :=
  ((t.lines.take k).flatMap fun l => l ++ [newline]).length

@[simp]
theorem lineStart_zero (t : Text) : t.lineStart 0 = 0 := rfl

/-- Behind a line break the lines start one later. -/
@[simp]
theorem lineStart_newline (t : Text) (k : Nat) :
    lineStart (newline :: t) (k + 1) = t.lineStart k + 1 := by
  rw [lineStart, lines_newline, List.take_succ_cons, List.flatMap_cons, List.nil_append,
    List.singleton_append, List.length_cons, lineStart]

/-- Behind any other code point the lines but the first one start one later. -/
theorem lineStart_cons {c : CodePoint} (hc : c ≠ newline) (t : Text) (k : Nat) :
    lineStart (c :: t) (k + 1) = t.lineStart (k + 1) + 1 := by
  obtain ⟨l, ls, hlines, hcons⟩ := lines_cons hc t
  rw [lineStart, lineStart, hlines, hcons, List.take_succ_cons, List.take_succ_cons,
    List.flatMap_cons, List.flatMap_cons, List.cons_append, List.cons_append, List.length_cons]

/-- A line starts behind the one before it and its line feed. -/
theorem lineStart_succ {l : Text} (hl : t.lines[k]? = some l) :
    t.lineStart (k + 1) = t.lineStart k + l.length + 1 := by
  obtain ⟨hk, rfl⟩ := List.getElem?_eq_some_iff.mp hl
  rw [lineStart, List.take_succ_eq_append_getElem hk, List.flatMap_append, List.length_append,
    List.flatMap_singleton, List.length_append, List.length_singleton, lineStart, Nat.add_assoc]

theorem lineStart_mono (t : Text) (h : m ≤ n) : t.lineStart m ≤ t.lineStart n := by
  obtain ⟨ls, hls⟩ := List.take_prefix_take_left h (l := t.lines)
  rw [lineStart, lineStart, ← hls, List.flatMap_append, List.length_append]
  exact Nat.le_add_right _ _

/-! ## Positions of offsets -/

/-- The position names the place of an offset in the text. -/
structure Located (t : Text) (offset : Nat) (p : Position) : Prop where
  one_le_line : 1 ≤ p.line
  line_le : p.line ≤ t.count newline + 1
  one_le_column : 1 ≤ p.column
  /-- The column is at most one behind the end of the line. -/
  column_le : ∃ l, t.lines[p.line - 1]? = some l ∧ p.column ≤ l.length + 1
  /-- The offset can be read off line and column. -/
  offset_eq : t.lineStart (p.line - 1) + (p.column - 1) = offset

/-- Going over `n` code points from a place whose position is known leads to this one: it is in the
`k`-th line from there, and its column counts from the start of that line, or from the place if that
is in the same line. -/
structure Leads (t : Text) (line column n k : Nat) (l : Text) (p : Position) : Prop where
  isLine : t.lines[k]? = some l
  line_eq : p.line = line + k
  column_add : p.column + t.lineStart k = n + if k = 0 then column else 1
  start_le : t.lineStart k ≤ n
  le_end : n ≤ t.lineStart k + l.length

/-- The start of a text leads to itself. -/
theorem exists_leads_zero (t : Text) (line column : Nat) :
    ∃ l, Leads t line column 0 0 l ⟨line, column⟩ := by
  obtain ⟨l, ls, hlines⟩ := List.exists_cons_of_ne_nil (lines_ne_nil t)
  refine ⟨l, ?_, rfl, Nat.add_comm _ _, Nat.le_refl 0, Nat.zero_le _⟩
  rw [hlines]
  rfl

/-- Behind a line feed the next line begins, and its columns count from one. -/
theorem Leads.lineFeed {l : Text} {line column : Nat} (h : Leads t (line + 1) 1 n k l p) :
    Leads (newline :: t) line column (n + 1) (k + 1) l p := by
  have hline := h.line_eq
  have hcolumn := h.column_add
  have hstart := h.start_le
  have hend := h.le_end
  rw [ite_self] at hcolumn
  refine ⟨?_, by omega, ?_, ?_, ?_⟩
  · rw [lines_newline]
    exact h.isLine
  · rw [lineStart_newline, if_neg (Nat.succ_ne_zero k)]
    omega
  · rw [lineStart_newline]
    omega
  · rw [lineStart_newline]
    omega

/-- Behind any other code point the same line goes on, and every later one begins one code point
further on. -/
theorem Leads.cons {c : CodePoint} (hc : c ≠ newline) {l : Text} {line column : Nat}
    (h : Leads t line (column + 1) n k l p) : ∃ l', Leads (c :: t) line column (n + 1) k l' p := by
  have hcolumn := h.column_add
  have hstart := h.start_le
  have hend := h.le_end
  have hl := h.isLine
  obtain ⟨first, ls, hlines, hcons⟩ := lines_cons hc t
  cases k with
  | zero =>
    rw [hlines] at hl
    obtain rfl := Option.some.inj hl
    rw [if_pos rfl, lineStart_zero] at hcolumn
    rw [lineStart_zero] at hend
    refine ⟨c :: first, ?_, h.line_eq, ?_, Nat.zero_le _, ?_⟩
    · rw [hcons]
      rfl
    · rw [if_pos rfl, lineStart_zero]
      omega
    · rw [lineStart_zero, List.length_cons]
      omega
  | succ k =>
    rw [if_neg (Nat.succ_ne_zero k)] at hcolumn
    refine ⟨l, ?_, h.line_eq, ?_, ?_, ?_⟩
    · rw [hlines] at hl
      rw [hcons]
      exact hl
    · rw [lineStart_cons hc, if_neg (Nat.succ_ne_zero k)]
      omega
    · rw [lineStart_cons hc]
      omega
    · rw [lineStart_cons hc]
      omega

/-- The position that is counted is led to. -/
theorem exists_leads_positionFrom (line column : Nat) (h : n ≤ t.length) :
    ∃ k l, Leads t line column n k l (positionFrom line column t n) := by
  induction t generalizing line column n with
  | nil =>
    obtain rfl := Nat.eq_zero_of_le_zero h
    exact ⟨0, exists_leads_zero [] line column⟩
  | cons c t ih =>
    cases n with
    | zero => exact ⟨0, exists_leads_zero (c :: t) line column⟩
    | succ n =>
      have hn : n ≤ t.length := Nat.le_of_succ_le_succ h
      rw [positionFrom]
      split
      · next hc =>
        obtain ⟨k, l, hleads⟩ := ih (line + 1) 1 hn
        subst hc
        exact ⟨k + 1, l, hleads.lineFeed⟩
      · next hc =>
        obtain ⟨k, l, hleads⟩ := ih line (column + 1) hn
        exact ⟨k, hleads.cons hc⟩

/-- The position of an offset is located there. -/
theorem located_position (h : n ≤ t.length) : Located t n (t.position n) := by
  obtain ⟨k, l, hl, hline, hcolumn, hstart, hend⟩ := exists_leads_positionFrom 1 1 h
  rw [ite_self] at hcolumn
  have hk : (t.position n).line - 1 = k := by
    rw [position, hline, Nat.add_sub_cancel_left]
  have hlt : k < t.lines.length := (List.getElem?_eq_some_iff.mp hl).1
  rw [length_lines] at hlt
  have hcolumn' : (t.position n).column + t.lineStart k = n + 1 := hcolumn
  refine ⟨?_, ?_, ?_, ⟨l, ?_, ?_⟩, ?_⟩
  · rw [position, hline]
    exact Nat.le_add_right 1 k
  · rw [position, hline]
    omega
  · omega
  · rw [hk]
    exact hl
  · omega
  · rw [hk]
    omega

/-- Places in the order of their offsets have positions in the order of positions: in the same line
the columns count from the same start, and an earlier line ends before a later one starts. -/
theorem Located.precedes (hp : Located t m p) (hq : Located t n q) (h : m < n) : p.Precedes q := by
  have hpstart := hp.offset_eq
  have hqstart := hq.offset_eq
  have hpcolumn := hp.one_le_column
  obtain hlt | heq | hgt := Nat.lt_trichotomy p.line q.line
  · exact Or.inl hlt
  · rw [heq] at hpstart
    exact Or.inr ⟨heq, by omega⟩
  · obtain ⟨l, hl, hqend⟩ := hq.column_le
    have hqline := hq.one_le_line
    have hlater : t.lineStart (q.line - 1 + 1) ≤ t.lineStart (p.line - 1) :=
      lineStart_mono t (by omega)
    rw [lineStart_succ hl] at hlater
    omega

end Text

namespace Failure

open Text (Located)

/-- A text that is malformed at an offset is reported with a line and a column that name this place
of it, and in the order of the offsets. -/
theorem malformedAt_located (t : Text) :
    (∀ reason offset, offset ≤ t.length → ∃ p : Position,
      malformedAt reason t offset = .malformed reason (some p.line) (some p.column) ∧
        Located t offset p) ∧
    ∀ reason reason' m n, m < n → n ≤ t.length → ∃ p q : Position,
      malformedAt reason t m = .malformed reason (some p.line) (some p.column) ∧
        malformedAt reason' t n = .malformed reason' (some q.line) (some q.column) ∧
        p.Precedes q := by
  refine ⟨fun reason n hn => ⟨t.position n, rfl, Text.located_position hn⟩,
    fun reason reason' m n hlt hn => ⟨t.position m, t.position n, rfl, rfl, ?_⟩⟩
  have hm : m ≤ t.length := Nat.le_trans (Nat.le_of_lt hlt) hn
  exact (Text.located_position hm).precedes (Text.located_position hn) hlt

/-- The line feed at the end of the first line and the code point behind it. -/
theorem malformedAt_located_twoLines :
    (∃ p : Position, malformedAt "x" (Text.ofString "ab\nc") 3
        = .malformed "x" (some p.line) (some p.column) ∧
      p = ⟨2, 1⟩ ∧ Located (Text.ofString "ab\nc") 3 p) ∧
    ∃ p q : Position, malformedAt "x" (Text.ofString "ab\nc") 2
        = .malformed "x" (some p.line) (some p.column) ∧
      malformedAt "x" (Text.ofString "ab\nc") 3 = .malformed "x" (some q.line) (some q.column) ∧
      p.Precedes q := by
  obtain ⟨hlocated, hordered⟩ := malformedAt_located (Text.ofString "ab\nc")
  obtain ⟨p, hp, hplace⟩ := hlocated "x" 3 (by decide)
  refine ⟨⟨p, hp, ?_, hplace⟩, hordered "x" "x" 2 3 (by decide) (by decide)⟩
  have hvalue : malformedAt "x" (Text.ofString "ab\nc") 3 = .malformed "x" (some 2) (some 1) := by
    decide
  rw [hvalue] at hp
  obtain ⟨line, column⟩ := p
  cases hp
  rfl

end Failure

end Dialects
