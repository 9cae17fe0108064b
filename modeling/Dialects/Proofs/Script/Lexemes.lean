import Dialects.Proofs.Script.Border

/-!
# Numbers, words and names

The rules for numbers, words and names are blind to borders.
-/

namespace Dialects.Script

open CodePoint (scalar)
open Text (Stops spanLength startsWith_iff)

variable {x y : Text}

/-! ## Numbers -/

/-- The mark of a big number does not look beyond a border. -/
theorem bigMark_border (hy : Border y) (x : Text) :
    Lexeme.bigMark (x ++ y) = Lexeme.bigMark x := by
  have hn : Unbordered (· == scalar 'n') := fun c hc =>
    CodePoint.eq_false_of_isBorder (p := (· == scalar 'n')) (by decide) hc
  rw [Lexeme.bigMark, Lexeme.bigMark, headIs_border hn hy]

theorem headIs_le (p : CodePoint → Bool) (x : Text) :
    (if Lexeme.headIs p x then 1 else 0) ≤ x.length := by
  cases x with
  | nil => exact Nat.le_refl 0
  | cons c x =>
    split
    · exact Nat.succ_le_succ (Nat.zero_le _)
    · exact Nat.zero_le _

theorem bigMark_le (x : Text) : Lexeme.bigMark x ≤ x.length := headIs_le _ x

/-- Digits of a base end at a border. -/
theorem digits_border {p : CodePoint → Bool} (hp : Unbordered p) {skip : Nat}
    (hskip : skip ≤ x.length) (hy : Border y) :
    Lexeme.digits? p skip (x ++ y) = Lexeme.digits? p skip x := by
  have hspan := spanLength_border hp hy (x.drop skip)
  have hle := Text.spanLength_le p (x.drop skip)
  rw [Lexeme.digits?, Lexeme.digits?, List.drop_append_of_le_length hskip, hspan]
  cases hn : spanLength p (x.drop skip) with
  | zero => rfl
  | succ n =>
    -- digits have been found, so that they end within the first part
    rw [hn, List.length_drop] at hle
    have hend : skip + (n + 1) ≤ x.length := by omega
    simp only [List.drop_append_of_le_length hend, bigMark_border hy]

theorem digits_le {p : CodePoint → Bool} {skip n : Nat} (h : Lexeme.digits? p skip x = some n) :
    n ≤ x.length := by
  have hle := Text.spanLength_le p (x.drop skip)
  rw [Lexeme.digits?] at h
  cases hm : spanLength p (x.drop skip) with
  | zero =>
    rw [hm] at h
    contradiction
  | succ m =>
    rw [hm] at h
    obtain rfl := Option.some.inj h
    have hmark := bigMark_le (x.drop (skip + (m + 1)))
    rw [hm, List.length_drop] at hle
    rw [List.length_drop] at hmark
    omega

/-- The letter behind a zero tells the base of a number, and without one the digits are octal. -/
theorem basedNumber_eq (m : Char) (x : Text) :
    Lexeme.basedNumber? (scalar '0' :: scalar m :: x) =
      if m = 'b' || m = 'B' then Lexeme.digits? (·.isBetween '0' '1') 2 (scalar '0' :: scalar m :: x)
      else if m = 'o' || m = 'O' then
        Lexeme.digits? (·.isBetween '0' '7') 2 (scalar '0' :: scalar m :: x)
      else if m = 'x' || m = 'X' then Lexeme.digits? (·.isHexDigit) 2 (scalar '0' :: scalar m :: x)
      else Lexeme.digits? (·.isBetween '0' '7') 1 (scalar '0' :: scalar m :: x) := rfl

/-- A zero alone is no such number, whatever border comes behind it. -/
theorem basedNumber_zero (hy : Border y) : Lexeme.basedNumber? (scalar '0' :: y) = none := by
  have hoctal : Unbordered (·.isBetween '0' '7') := unbordered_isBetween (by decide)
  match y, hy with
  | [], _ => rfl
  | .surrogate k :: y, _ => rfl
  | scalar m :: y, hy =>
    have hm : (scalar m).isBorder = true := hy.head _ rfl
    -- No letter and no digit of such a number is a border.
    have hne (c : Char) (hc : (scalar c).isBorder = false) : m ≠ c := by
      rintro rfl
      rw [hc] at hm
      contradiction
    have hnone : Lexeme.digits? (·.isBetween '0' '7') 1 (scalar '0' :: scalar m :: y) = none := by
      have hspan : spanLength (·.isBetween '0' '7') (scalar m :: y) = 0 :=
        Text.spanLength_cons_of_neg (hoctal _ hm) y
      rw [Lexeme.digits?, List.drop_one, List.tail_cons, hspan]
    rw [basedNumber_eq, hnone]
    simp [hne 'b' (by decide), hne 'B' (by decide), hne 'o' (by decide), hne 'O' (by decide),
      hne 'x' (by decide), hne 'X' (by decide)]

/-- Numbers with a base do not look beyond a border. -/
theorem blind_basedNumber : Blind Lexeme.basedNumber? := by
  have hbinary : Unbordered (·.isBetween '0' '1') := unbordered_isBetween (by decide)
  have hoctal : Unbordered (·.isBetween '0' '7') := unbordered_isBetween (by decide)
  have hhex : Unbordered (·.isHexDigit) := fun c hc => CodePoint.isHexDigit_of_isBorder hc
  refine ⟨fun {x y} hx hy => ?_, fun {x n} hn => ?_⟩
  · obtain ⟨c, x, rfl⟩ := List.exists_cons_of_ne_nil hx
    by_cases hc : c = scalar '0'
    · subst hc
      -- A zero alone is no such number; otherwise the letter that tells the base stands in `x`.
      match x with
      | [] => exact (basedNumber_zero hy).trans (basedNumber_zero border_nil).symm
      | .surrogate k :: x => rfl
      | scalar m :: x =>
        have htwo : 2 ≤ (scalar '0' :: scalar m :: x).length := Nat.le_add_left 2 _
        have hone : 1 ≤ (scalar '0' :: scalar m :: x).length := Nat.le_add_left 1 _
        rw [List.cons_append, List.cons_append, basedNumber_eq, basedNumber_eq, ← List.cons_append,
          ← List.cons_append, digits_border hbinary htwo hy, digits_border hoctal htwo hy,
          digits_border hhex htwo hy, digits_border hoctal hone hy]
    · have hother (t : Text) : Lexeme.basedNumber? (c :: t) = none := by
        rw [Lexeme.basedNumber?]
        intro m rest heq
        exact hc (List.cons.inj heq).1
      rw [List.cons_append, hother, hother]
  · rw [Lexeme.basedNumber?.eq_def] at hn
    split at hn
    · next m rest =>
      split at hn
      · exact digits_le hn
      split at hn
      · exact digits_le hn
      split at hn
      · exact digits_le hn
      · exact digits_le hn
    · contradiction

/-- Big numbers do not look beyond a border. -/
theorem blind_bigNumber : Blind Lexeme.bigNumber? := by
  refine ⟨fun {x y} hx hy => ?_, fun {x n} hn => ?_⟩
  · have hspan := spanLength_border unbordered_isDigit hy x
    have hle := Text.spanLength_le (·.isDigit) x
    rw [Lexeme.bigNumber?, Lexeme.bigNumber?, hspan]
    cases hn : spanLength (·.isDigit) x with
    | zero => rfl
    | succ n =>
      rw [hn] at hle
      simp only [List.drop_append_of_le_length hle, bigMark_border hy]
  · have hle := Text.spanLength_le (·.isDigit) x
    rw [Lexeme.bigNumber?] at hn
    cases hm : spanLength (·.isDigit) x with
    | zero =>
      rw [hm] at hn
      contradiction
    | succ m =>
      rw [hm] at hn
      have hmark := bigMark_le (x.drop (m + 1))
      simp only [] at hn
      split at hn
      · next hone =>
        obtain rfl := Option.some.inj hn
        rw [hone, List.length_drop] at hmark
        omega
      · contradiction

theorem exponentLength_border (hy : Border y) (x : Text) :
    Lexeme.exponentLength (x ++ y) = Lexeme.exponentLength x := by
  have hsign : Unbordered (fun c => c == scalar '-' || c == scalar '+') := fun c hc =>
    CodePoint.eq_false_of_isBorder (p := fun c => c == scalar '-' || c == scalar '+')
      (by decide) hc
  match x with
  | [] =>
    -- A border is no letter of an exponent.
    match y, hy with
    | [], _ => rfl
    | .surrogate k :: y, _ => rfl
    | scalar e :: y, hy =>
      have he : (scalar e).isBorder = true := hy.head _ rfl
      have hne (c : Char) (hc : (scalar c).isBorder = false) : e ≠ c := by
        rintro rfl
        rw [hc] at he
        contradiction
      simp [Lexeme.exponentLength, hne 'e' (by decide), hne 'E' (by decide)]
  | .surrogate k :: x => rfl
  | scalar e :: x =>
    -- Sign and digits end in front of the border at the latest.
    have hle := headIs_le (fun c => c == scalar '-' || c == scalar '+') x
    simp only [List.cons_append, Lexeme.exponentLength, headIs_border hsign hy,
      List.drop_append_of_le_length hle, spanLength_border unbordered_isDigit hy]

theorem exponentLength_le (x : Text) : Lexeme.exponentLength x ≤ x.length := by
  match x with
  | [] => exact Nat.le_refl 0
  | .surrogate k :: x => exact Nat.zero_le _
  | scalar e :: x =>
    have hle := headIs_le (fun c => c == scalar '-' || c == scalar '+') x
    simp only [Lexeme.exponentLength]
    -- All that matters of the sign is how long it is.
    generalize (if Lexeme.headIs (fun c => c == scalar '-' || c == scalar '+') x then 1 else 0)
      = sign at hle ⊢
    have hspan := Text.spanLength_le (·.isDigit) (x.drop sign)
    rw [List.length_drop] at hspan
    split
    · split
      · exact Nat.zero_le _
      · next n hn =>
        rw [hn] at hspan
        rw [List.length_cons]
        omega
    · exact Nat.zero_le _

/-- The length of a decimal number without exponent that starts with `n + 1` digits, given what
follows these. -/
def wholeLength (n : Nat) : Text → Nat
  | scalar '.' :: rest => n + 2 + spanLength (·.isDigit) rest
  | _ => n + 1

/-- What does not start with a point starts with its whole digits, if with any. -/
theorem mantissaLength_of_ne {c : CodePoint} (hc : c ≠ scalar '.') (t : Text) :
    Lexeme.mantissaLength (c :: t) =
      match spanLength (·.isDigit) (c :: t) with
      | 0 => 0
      | n + 1 => wholeLength n ((c :: t).drop (n + 1)) := by
  rw [Lexeme.mantissaLength]
  · rfl
  · intro rest heq
    exact hc (List.cons.inj heq).1

/-- Without a point behind its digits a number is whole. -/
theorem wholeLength_of_ne {c : CodePoint} (hc : c ≠ scalar '.') (n : Nat) (t : Text) :
    wholeLength n (c :: t) = n + 1 := by
  rw [wholeLength]
  intro rest heq
  exact hc (List.cons.inj heq).1

/-- Whole digits end at a border, with the point and the digits behind it. -/
theorem wholeLength_border (hy : Border y) (n : Nat) (x : Text) :
    wholeLength n (x ++ y) = wholeLength n x := by
  cases x with
  | nil =>
    cases y with
    | nil => rfl
    | cons c y =>
      have hc : c ≠ scalar '.' := fun heq => hy.ne_cons (heq ▸ rfl) y rfl
      exact wholeLength_of_ne hc n y
  | cons c x =>
    by_cases hc : c = scalar '.'
    · subst hc
      simp only [List.cons_append, wholeLength, spanLength_border unbordered_isDigit hy]
    · rw [List.cons_append, wholeLength_of_ne hc, wholeLength_of_ne hc]

theorem wholeLength_le (n : Nat) (x : Text) : wholeLength n x ≤ n + 1 + x.length := by
  cases x with
  | nil => exact Nat.le_refl _
  | cons c x =>
    -- a fraction may be all that there is, and begins with its point
    by_cases hc : c = scalar '.'
    · subst hc
      have hle := Text.spanLength_le (·.isDigit) x
      rw [wholeLength, List.length_cons]
      omega
    · rw [wholeLength_of_ne hc]
      omega

/-- The digits of a decimal number end at a border. -/
theorem mantissaLength_border (hx : x ≠ []) (hy : Border y) :
    Lexeme.mantissaLength (x ++ y) = Lexeme.mantissaLength x := by
  obtain ⟨c, x, rfl⟩ := List.exists_cons_of_ne_nil hx
  by_cases hc : c = scalar '.'
  · subst hc
    simp only [List.cons_append, Lexeme.mantissaLength, spanLength_border unbordered_isDigit hy]
  · have hspan := spanLength_border unbordered_isDigit hy (c :: x)
    have hle := Text.spanLength_le (·.isDigit) (c :: x)
    rw [List.cons_append, mantissaLength_of_ne hc, mantissaLength_of_ne hc, ← List.cons_append,
      hspan]
    cases hn : spanLength (·.isDigit) (c :: x) with
    | zero => rfl
    | succ n =>
      rw [hn] at hle
      simp only [List.drop_append_of_le_length hle, wholeLength_border hy]

theorem mantissaLength_le (x : Text) : Lexeme.mantissaLength x ≤ x.length := by
  cases x with
  | nil => exact Nat.le_refl 0
  | cons c x =>
    by_cases hc : c = scalar '.'
    · subst hc
      have hle := Text.spanLength_le (·.isDigit) x
      simp only [Lexeme.mantissaLength, List.length_cons]
      split
      · exact Nat.zero_le _
      · next n hn =>
        rw [hn] at hle
        omega
    · have hle := Text.spanLength_le (·.isDigit) (c :: x)
      rw [mantissaLength_of_ne hc]
      cases hn : spanLength (·.isDigit) (c :: x) with
      | zero => exact Nat.zero_le _
      | succ n =>
        rw [hn] at hle
        have hwhole := wholeLength_le n ((c :: x).drop (n + 1))
        rw [List.length_drop] at hwhole
        show wholeLength n ((c :: x).drop (n + 1)) ≤ (c :: x).length
        omega

/-- Decimal numbers do not look beyond a border. -/
theorem blind_decimalNumber : Blind Lexeme.decimalNumber? := by
  refine ⟨fun {x y} hx hy => ?_, fun {x n} hn => ?_⟩
  · have hmantissa := mantissaLength_border hx hy
    have hle := mantissaLength_le x
    rw [Lexeme.decimalNumber?, Lexeme.decimalNumber?, hmantissa]
    cases hn : Lexeme.mantissaLength x with
    | zero => rfl
    | succ n =>
      rw [hn] at hle
      simp only [List.drop_append_of_le_length hle, exponentLength_border hy]
  · have hle := mantissaLength_le x
    rw [Lexeme.decimalNumber?] at hn
    cases hm : Lexeme.mantissaLength x with
    | zero =>
      rw [hm] at hn
      contradiction
    | succ m =>
      rw [hm] at hn hle
      obtain rfl := Option.some.inj hn
      have hexponent := exponentLength_le (x.drop (m + 1))
      rw [List.length_drop] at hexponent
      omega

/-- The first of two that do not look beyond a border does not either. -/
theorem Blind.orElse {f g : Text → Option Nat} (hf : Blind f) (hg : Blind g) :
    Blind fun t => f t <|> g t := by
  refine ⟨fun {x y} hx hy => ?_, fun {x n} hn => ?_⟩
  · show (f (x ++ y) <|> g (x ++ y)) = (f x <|> g x)
    rw [hf.append hx hy, hg.append hx hy]
  · -- the first lexeme wins, and the second is tried where there is none
    cases hfx : f x with
    | some m =>
      simp only [hfx] at hn
      obtain rfl := Option.some.inj hn
      exact hf.le hfx
    | none =>
      simp only [hfx] at hn
      exact hg.le hn

/-- Numbers do not look beyond a border. -/
theorem blind_number : Blind Lexeme.number? :=
  blind_basedNumber.orElse (blind_bigNumber.orElse blind_decimalNumber)

/-! ## Words and names -/

/-- The first word of a text is the run of word characters that it starts with. -/
theorem takeWhile_border {p : CodePoint → Bool} (hp : Unbordered p) (hy : Border y) (x : Text) :
    (x ++ y).takeWhile p = x.takeWhile p := by
  induction x with
  | nil =>
    cases y with
    | nil => rfl
    | cons c y =>
      rw [List.nil_append, List.takeWhile_cons, hp c (hy.head c rfl)]
      rfl
  | cons c x ih => rw [List.cons_append, List.takeWhile_cons, List.takeWhile_cons, ih]

/-- Words of a list do not look beyond a border. -/
theorem blind_word (ws : List Text) : Blind (Lexeme.word? ws) := by
  have hword : Unbordered CodePoint.isWord := fun c hc => CodePoint.isWord_of_isBorder hc
  refine ⟨fun {x y} hx hy => ?_, fun {x n} hn => ?_⟩
  · rw [Lexeme.word?, Lexeme.word?, takeWhile_border hword hy]
  · rw [Lexeme.word?] at hn
    split at hn
    · obtain rfl := Option.some.inj hn
      exact (List.takeWhile_prefix _).length_le
    · contradiction

/-- No border goes on with a path of method names. -/
theorem unbordered_continuesPath : Unbordered Lexeme.continuesPath := by
  intro c hc
  -- neither a mark of a path nor a word character stands at a border
  have hrest : (c == scalar '?' || c == scalar '.' || c == scalar '$') = false :=
    CodePoint.eq_false_of_isBorder
      (p := fun c => c == scalar '?' || c == scalar '.' || c == scalar '$') (by decide) hc
  have hword : c.isWord = false := CodePoint.isWord_of_isBorder hc
  simp only [Bool.or_eq_false_iff] at hrest
  obtain ⟨⟨hmark, hdot⟩, hdollar⟩ := hrest
  rw [Lexeme.continuesPath, hword, hmark, hdot, hdollar]
  rfl

/-- The head of a method holds a space, but no border cuts it off there. -/
theorem prefix_of_prefix_append (hy : Border y)
    (h : [scalar '(', scalar ')', scalar ' ', scalar '{'] <+: x ++ y) :
    [scalar '(', scalar ')', scalar ' ', scalar '{'] <+: x := by
  obtain ⟨rest, heq⟩ := h
  match x with
  | [] => exact absurd heq.symm (hy.ne_cons (by decide) _)
  | [_] => exact absurd (List.cons.inj heq).2.symm (hy.ne_cons (by decide) _)
  | [_, _] =>
    have hspace : y = scalar ' ' :: scalar '{' :: rest :=
      (List.cons.inj (List.cons.inj heq).2).2.symm
    exact absurd hspace (hy.brace rest)
  | [_, _, _] =>
    have hbrace : y = scalar '{' :: rest :=
      (List.cons.inj (List.cons.inj (List.cons.inj heq).2).2).2.symm
    exact absurd hbrace (hy.ne_cons (by decide) rest)
  | a :: b :: c :: d :: x =>
    simp only [List.cons_append, List.nil_append, List.cons.injEq] at heq
    obtain ⟨rfl, rfl, rfl, rfl, -⟩ := heq
    exact ⟨x, rfl⟩

/-- Paths of method names do not look beyond a border. -/
theorem blind_methodPath : Blind Lexeme.methodPath? := by
  have hstart : Unbordered fun c => c.isLatinLetter || c == scalar '_' || c == scalar '?' ||
      c == scalar '.' || c == scalar '$' := by
    intro c hc
    exact CodePoint.eq_false_of_isBorder
      (p := fun c => c.isLatinLetter || c == scalar '_' || c == scalar '?' || c == scalar '.' ||
        c == scalar '$') (by decide) hc
  refine ⟨fun {x y} hx hy => ?_, fun {x n} hn => ?_⟩
  · have hspan := spanLength_border unbordered_continuesPath hy x
    have hle := Text.spanLength_le Lexeme.continuesPath x
    have hhead : Text.startsWith (x.drop (spanLength Lexeme.continuesPath x) ++ y)
          (Text.ofString "() \x7b")
        = Text.startsWith (x.drop (spanLength Lexeme.continuesPath x))
          (Text.ofString "() \x7b") := by
      rw [Bool.eq_iff_iff, startsWith_iff, startsWith_iff]
      exact ⟨prefix_of_prefix_append hy, fun h => h.trans (List.prefix_append _ _)⟩
    rw [Lexeme.methodPath?, Lexeme.methodPath?, hspan, List.drop_append_of_le_length hle,
      headIs_border hstart hy, hhead]
  · have hle := Text.spanLength_le Lexeme.continuesPath x
    rw [Lexeme.methodPath?] at hn
    split at hn
    · obtain rfl := Option.some.inj hn
      exact hle
    · contradiction

/-! ## Names -/

/-- Four code points belong to a run if each of them does. -/
theorem spanLength_four {p : CodePoint → Bool} (a b c d : CodePoint) (t : Text) :
    4 ≤ spanLength p (a :: b :: c :: d :: t) ↔ (p a && p b && p c && p d) = true := by
  simp only [spanLength, List.takeWhile_cons]
  cases p a <;> cases p b <;> cases p c <;> cases p d <;> simp

/-- A code point of a name may be spelled by four digits of base sixteen after `\u`. -/
theorem escapedLength_eq (t : Text) :
    Lexeme.escapedLength t =
      if Text.startsWith t [scalar '\\', scalar 'u'] ∧ 4 ≤ spanLength (·.isHexDigit) (t.drop 2) then 6
      else 0 := by
  by_cases h : ∃ rest, t = scalar '\\' :: scalar 'u' :: rest
  · obtain ⟨rest, rfl⟩ := h
    have hlead : Text.startsWith (scalar '\\' :: scalar 'u' :: rest) [scalar '\\', scalar 'u'] :=
      startsWith_iff.mpr ⟨rest, rfl⟩
    rw [show (scalar '\\' :: scalar 'u' :: rest).drop 2 = rest from rfl]
    match rest with
    | [] | [_] | [_, _] | [_, _, _] =>
      -- Too few code points are left for four digits.
      rw [if_neg]
      · rfl
      · rintro ⟨-, hfour⟩
        have hle := Nat.le_trans hfour (Text.spanLength_le _ _)
        simp at hle
    | a :: b :: c :: d :: rest => simp only [Lexeme.escapedLength, hlead, spanLength_four, true_and]
  · -- There is no backslash with the letter behind it.
    rw [if_neg, Lexeme.escapedLength]
    · intro a b c d rest heq
      exact h ⟨_, heq⟩
    · rintro ⟨hlead, -⟩
      obtain ⟨rest, heq⟩ := startsWith_iff.mp hlead
      exact h ⟨rest, heq.symm⟩

/-- An escaped code point ends at a border. -/
theorem escapedLength_border (hy : Border y) (x : Text) :
    Lexeme.escapedLength (x ++ y) = Lexeme.escapedLength x := by
  have hhex : Unbordered (·.isHexDigit) := fun c hc => CodePoint.isHexDigit_of_isBorder hc
  have hlead : Text.startsWith (x ++ y) [scalar '\\', scalar 'u']
      = Text.startsWith x [scalar '\\', scalar 'u'] := startsWith_border (by decide) hy x
  rw [escapedLength_eq, escapedLength_eq, hlead]
  cases h : Text.startsWith x [scalar '\\', scalar 'u'] with
  | false => rfl
  | true =>
    -- both code points of the escape lie in the first part
    have htwo : 2 ≤ x.length := (startsWith_iff.mp h).length_le
    rw [List.drop_append_of_le_length htwo, spanLength_border hhex hy]

theorem escapedLength_le (x : Text) : Lexeme.escapedLength x ≤ x.length := by
  rw [escapedLength_eq]
  split
  · next h =>
    have hle := Nat.le_trans h.2 (Text.spanLength_le _ _)
    rw [List.length_drop] at hle
    omega
  · exact Nat.zero_le _

/-- An escaped code point takes six code points. -/
theorem six_le_of_escaped (h : Lexeme.escapedLength x ≠ 0) : 6 ≤ x.length := by
  have hle := escapedLength_le x
  rw [escapedLength_eq] at h hle
  split at h
  · next hfour =>
    rw [if_pos hfour] at hle
    exact hle
  · contradiction

/-- A name goes on with an escaped code point or with one that continues names. -/
theorem nameLength_cons (c : CodePoint) (t : Text) :
    Lexeme.nameLength (c :: t) =
      if Lexeme.escapedLength (c :: t) = 0 then
        if c.continuesName then Lexeme.nameLength t + 1 else 0
      else Lexeme.nameLength ((c :: t).drop 6) + 6 := by
  by_cases h : ∃ a b c' d rest, c :: t = scalar '\\' :: scalar 'u' :: a :: b :: c' :: d :: rest
  · -- A backslash is no part of a name by itself, so that only the escape counts.
    obtain ⟨a, b, c', d, rest, heq⟩ := h
    obtain ⟨rfl, rfl⟩ := List.cons.inj heq
    have hmark : (scalar '\\').continuesName = false := by decide +kernel
    simp only [Lexeme.nameLength, Lexeme.escapedLength]
    split
    · rfl
    · rw [hmark]
      rfl
  · -- There is no escape, so that a name goes on code point by code point.
    rw [Lexeme.nameLength, Lexeme.escapedLength]
    · rfl
    · intro a b c' d rest heq
      exact h ⟨a, b, c', d, rest, heq⟩
    · intro a b c' d rest hc ht
      exact h ⟨a, b, c', d, rest, by rw [hc, ht]⟩

/-- How far a name goes on does not depend on what comes behind a border. -/
theorem nameLength_border (hy : Border y) (x : Text) :
    Lexeme.nameLength (x ++ y) = Lexeme.nameLength x := by
  -- A name goes on by a code point or by an escape of six, so that the induction is on the length.
  induction hn : x.length using Nat.strongRecOn generalizing x with
  | ind n ih =>
    cases x with
    | nil =>
      cases y with
      | nil => rfl
      | cons c y =>
        have hescape := escapedLength_border hy []
        have hc : c.continuesName = false :=
          CodePoint.continuesName_of_isBorder (hy.head c rfl)
        rw [List.nil_append] at hescape
        rw [List.nil_append, nameLength_cons, hescape, hc]
        rfl
    | cons c x =>
      have hescape := escapedLength_border hy (c :: x)
      rw [List.length_cons] at hn
      rw [List.cons_append] at hescape ⊢
      rw [nameLength_cons, nameLength_cons, hescape, ih x.length (by omega) x rfl]
      split
      · rfl
      · next hsome =>
        have hsix := six_le_of_escaped hsome
        have hshorter : ((c :: x).drop 6).length < n := by
          rw [List.length_drop, List.length_cons]
          omega
        rw [← List.cons_append, List.drop_append_of_le_length hsix, ih _ hshorter _ rfl]

theorem nameLength_le (x : Text) : Lexeme.nameLength x ≤ x.length := by
  induction hn : x.length using Nat.strongRecOn generalizing x with
  | ind n ih =>
    cases x with
    | nil => exact Nat.zero_le _
    | cons c x =>
      rw [List.length_cons] at hn
      rw [nameLength_cons]
      split
      · have hrest := ih x.length (by omega) x rfl
        split <;> omega
      · next hsome =>
        have hsix := six_le_of_escaped hsome
        have hlength : ((c :: x).drop 6).length = n - 6 := by
          rw [List.length_drop, List.length_cons, hn]
        rw [List.length_cons] at hsix
        have hrest := ih (n - 6) (by omega) _ hlength
        omega

/-- Names do not look beyond a border. -/
theorem blind_name : Blind Lexeme.name? := by
  have hstart : Unbordered CodePoint.startsName := fun c hc => CodePoint.startsName_of_isBorder hc
  refine ⟨fun {x y} hx hy => ?_, fun {x n} hn => ?_⟩
  · have hescape := escapedLength_border hy x
    have hle := escapedLength_le x
    have hone : 1 ≤ x.length := List.length_pos_iff.mpr hx
    rw [Lexeme.name?, Lexeme.name?, hescape]
    -- A name goes on behind its first code point, which may be escaped.
    cases hn : Lexeme.escapedLength x with
    | zero =>
      simp only [headIs_border hstart hy, List.drop_append_of_le_length hone,
        nameLength_border hy]
    | succ n =>
      rw [hn] at hle
      simp only [List.drop_append_of_le_length hle, nameLength_border hy]
  · have hle := escapedLength_le x
    rw [Lexeme.name?] at hn
    cases hm : Lexeme.escapedLength x with
    | zero =>
      simp only [hm] at hn
      split at hn
      · next hhead =>
        obtain rfl := Option.some.inj hn
        have hname := nameLength_le (x.drop 1)
        cases x with
        | nil => contradiction
        | cons c x => exact Nat.succ_le_succ hname
      · contradiction
    | succ m =>
      simp only [hm] at hn
      rw [hm] at hle
      obtain rfl := Option.some.inj hn
      have hname := nameLength_le (x.drop (m + 1))
      rw [List.length_drop] at hname
      omega

/-- Only a hash mark starts a private name. -/
theorem privateName_of_ne {c : CodePoint} (hc : c ≠ scalar '#') (t : Text) :
    Lexeme.privateName? (c :: t) = none := by
  rw [Lexeme.privateName?]
  intro c' t' heq
  exact hc (List.cons.inj heq).1

/-- Private names do not look beyond a border. -/
theorem blind_privateName : Blind Lexeme.privateName? := by
  have hword : Unbordered CodePoint.isWord := fun c hc => CodePoint.isWord_of_isBorder hc
  have hstart : Unbordered fun c => c.isLatinLetter || c == scalar '_' := by
    intro c hc
    exact CodePoint.eq_false_of_isBorder (p := fun c => c.isLatinLetter || c == scalar '_')
      (by decide) hc
  refine ⟨fun {x y} hx hy => ?_, fun {x n} hn => ?_⟩
  · match x with
    | [c] =>
      cases y with
      | nil => rfl
      | cons d y =>
        by_cases hc : c = scalar '#'
        · -- No name starts with a border.
          subst hc
          have hd := hstart d (hy.head d rfl)
          show (if _ then _ else _) = none
          rw [if_neg (Bool.not_eq_true _ ▸ hd)]
        · exact (privateName_of_ne hc _).trans (privateName_of_ne hc _).symm
    | c :: d :: x =>
      by_cases hc : c = scalar '#'
      · subst hc
        simp only [List.cons_append, Lexeme.privateName?, spanLength_border hword hy]
      · exact (privateName_of_ne hc _).trans (privateName_of_ne hc _).symm
  · rw [Lexeme.privateName?.eq_def] at hn
    split at hn
    · next c t =>
      split at hn
      · obtain rfl := Option.some.inj hn
        have hle := Text.spanLength_le CodePoint.isWord t
        simp only [List.length_cons]
        omega
      · contradiction
    · contradiction

end Dialects.Script
