import Dialects.Proofs.Script.Lexemes
import Dialects.Script.Lexer

/-!
# What the rules find nearby

A rule that finds a lexeme in front of a border finds the same one whatever follows the border,
unless the lexeme goes on behind it (`Local`). Comments, strings and regular expressions are looked
at here, then the operators, and from them all rules together.
-/

namespace Dialects

open CodePoint (scalar)
open Text (Stops spanLength startsWith_iff)

/-- A run that ends inside a text does not depend on what follows. -/
theorem Text.spanLength_append_of_le {p : CodePoint → Bool} {x y : Text}
    (h : spanLength p (x ++ y) ≤ x.length) : spanLength p (x ++ y) = spanLength p x := by
  induction x with
  | nil => exact Nat.le_zero.mp h
  | cons c x ih =>
    rw [List.cons_append] at h ⊢
    -- a run that goes on has to end within what is left
    cases hc : p c with
    | true =>
      rw [spanLength_cons_of_pos hc, List.length_cons] at h
      rw [spanLength_cons_of_pos hc, spanLength_cons_of_pos hc, ih (Nat.le_of_succ_le_succ h)]
    | false => rw [spanLength_cons_of_neg hc, spanLength_cons_of_neg hc]

namespace Script

variable {α β : Type} {size : α → Nat} {x y z : Text}

/-- Two results of a rule agree as soon as neither is longer than what comes before the border. A
backslash alone is left out, since it is an operator in front of a line feed only. -/
structure Local (size : α → Nat) (f : Text → Option α) : Prop where
  agree : ∀ {x y z : Text}, x ≠ [] → x ≠ [scalar '\\'] → Border y → Border z →
    (∀ a ∈ f (x ++ y), size a ≤ x.length) → (∀ a ∈ f (x ++ z), size a ≤ x.length) →
    f (x ++ y) = f (x ++ z)
  le : ∀ {x : Text} {a : α}, f x = some a → size a ≤ x.length

/-- A lexeme is fixed if it is found whatever follows it. -/
def Fixed (f : Text → Option Nat) : Prop :=
  ∀ {x y : Text} {n : Nat}, f (x ++ y) = some n → n ≤ x.length → ∀ z, f (x ++ z) = some n

/-- What does not look beyond a border looks only at what is nearby. -/
theorem Blind.local {f : Text → Option Nat} (hf : Blind f) : Local id f := by
  refine ⟨fun hx _ hy hz _ _ => ?_, hf.le⟩
  rw [hf.append hx hy, hf.append hx hz]

/-- What is fixed by the part of the text that it takes finds the same in front of any rest. -/
theorem Fixed.agree {f : Text → Option Nat} (hf : Fixed f)
    (hy : ∀ n ∈ f (x ++ y), n ≤ x.length) (hz : ∀ n ∈ f (x ++ z), n ≤ x.length) :
    f (x ++ y) = f (x ++ z) := by
  -- if one of the two finds something, the other one finds it too
  cases hn : f (x ++ y) with
  | some n => exact (hf hn (hy n hn) z).symm
  | none =>
    cases hm : f (x ++ z) with
    | none => rfl
    | some m =>
      have hfound := hf hm (hz m hm) y
      rw [hn] at hfound
      contradiction

/-! ## Rules made of rules -/

/-- What is made of something that is found nearby is found nearby. -/
theorem Local.map {size' : β → Nat} {f : Text → Option α} (hf : Local size f) {g : α → β}
    (hg : ∀ a, size' (g a) = size a) : Local size' fun t => (f t).map g := by
  refine ⟨fun {x y z} hx hslash hy hz hfy hfz => ?_, fun {x b} hb => ?_⟩
  · have hagree : f (x ++ y) = f (x ++ z) := by
      refine hf.agree hx hslash hy hz (fun a ha => ?_) (fun a ha => ?_)
      · rw [← hg]
        exact hfy (g a) (Option.mem_map_of_mem g ha)
      · rw [← hg]
        exact hfz (g a) (Option.mem_map_of_mem g ha)
    show (f (x ++ y)).map g = (f (x ++ z)).map g
    rw [hagree]
  · obtain ⟨a, ha, rfl⟩ := Option.map_eq_some_iff.mp hb
    rw [hg]
    exact hf.le ha

/-- The first of two that look nearby looks nearby. -/
theorem Local.orElse {f g : Text → Option α} (hf : Local size f) (hg : Local size g) :
    Local size fun t => f t <|> g t := by
  refine ⟨fun {x y z} hx hslash hy hz hfy hfz => ?_, fun {x a} ha => ?_⟩
  · show (f (x ++ y) <|> g (x ++ y)) = (f (x ++ z) <|> g (x ++ z))
    -- What the first of the two functions finds counts, so that it does not go on behind `x`.
    have hleft : ∀ {t : Text}, (∀ a ∈ (f t <|> g t), size a ≤ x.length) →
        ∀ a ∈ f t, size a ≤ x.length := by
      intro t ht a ha
      refine ht a ?_
      rw [ha]
      rfl
    have hagree := hf.agree hx hslash hy hz (hleft hfy) (hleft hfz)
    rw [← hagree]
    cases hfound : f (x ++ y) with
    | some a => rfl
    | none =>
      -- Where the first one finds nothing in front of `y`, it finds nothing in front of `z`
      -- either.
      rw [hagree] at hfound
      have hright : ∀ {t : Text}, f t = none → (∀ a ∈ (f t <|> g t), size a ≤ x.length) →
          ∀ a ∈ g t, size a ≤ x.length := by
        intro t hnone ht a ha
        refine ht a ?_
        rw [hnone]
        exact ha
      exact hg.agree hx hslash hy hz (hright (hagree.trans hfound) hfy) (hright hfound hfz)
  · cases hfound : f x with
    | some b =>
      simp only [hfound] at ha
      obtain rfl := Option.some.inj ha
      exact hf.le hfound
    | none =>
      simp only [hfound] at ha
      exact hg.le ha

/-- To find nothing is to look at nothing. -/
theorem local_none : Local size fun _ => none :=
  ⟨fun _ _ _ _ _ _ => rfl, fun h => by contradiction⟩

/-- The first of a list of rules that finds something. -/
theorem local_findSome {ι : Type} {rs : List ι} {f : ι → Text → Option α}
    (hf : ∀ r ∈ rs, Local size (f r)) : Local size fun t => rs.findSome? fun r => f r t := by
  induction rs with
  | nil => exact local_none
  | cons r rs ih =>
    obtain ⟨hr, hrs⟩ := List.forall_mem_cons.mp hf
    -- the first rule is tried, and then the others
    have hsplit : (fun t => (r :: rs).findSome? fun r => f r t)
        = fun t => f r t <|> rs.findSome? fun r => f r t := by
      funext t
      rw [List.findSome?_cons]
      cases f r t <;> rfl
    rw [hsplit]
    exact hr.orElse (ih hrs)

/-- A choice that the first code points decide. -/
theorem Local.ite {f g : Text → Option α} {p : Text → Bool}
    (hp : ∀ {x y : Text}, x ≠ [] → Border y → p (x ++ y) = p x) (hf : Local size f)
    (hg : Local size g) : Local size fun t => if p t then f t else g t := by
  refine ⟨fun {x y z} hx hslash hy hz hfy hfz => ?_, fun {x a} ha => ?_⟩
  · simp only [hp hx hy, hp hx hz] at hfy hfz ⊢
    split
    · next hpx =>
      simp only [hpx, if_true] at hfy hfz
      exact hf.agree hx hslash hy hz hfy hfz
    · next hpx =>
      simp only [hpx] at hfy hfz
      exact hg.agree hx hslash hy hz hfy hfz
  · split at ha
    · exact hf.le ha
    · exact hg.le ha

/-- The head of a text that is not empty is its head also in a longer text. -/
theorem headIs_append (p : CodePoint → Bool) (hx : x ≠ []) (y : Text) :
    Lexeme.headIs p (x ++ y) = Lexeme.headIs p x := by
  obtain ⟨c, x, rfl⟩ := List.exists_cons_of_ne_nil hx
  rfl

/-! ## Blank space and comments -/

/-- A length that counts is one that is not zero. -/
theorem positive_eq_some {n m : Nat} : Lexeme.positive? n = some m ↔ n = m ∧ 0 < n := by
  rw [Lexeme.positive?]
  split
  · next h => simp [h]
  · next h => simp only [Option.some.injEq]; omega

/-- Runs of any class of code points. -/
theorem local_run (p : CodePoint → Bool) :
    Local id fun t => Lexeme.positive? (spanLength p t) := by
  refine ⟨fun {x y z} _ _ _ _ hy hz => ?_, fun {x n} hn => ?_⟩
  · -- a run that is found ends within the text, and one that is empty does so anyway
    have hspan {t : Text} (ht : ∀ n ∈ Lexeme.positive? (spanLength p (x ++ t)), id n ≤ x.length) :
        spanLength p (x ++ t) = spanLength p x := by
      refine Text.spanLength_append_of_le ?_
      rcases Nat.eq_zero_or_pos (spanLength p (x ++ t)) with hzero | hpos
      · omega
      · exact ht _ (positive_eq_some.mpr ⟨rfl, hpos⟩)
    simp only [hspan hy, hspan hz]
  · obtain ⟨rfl, -⟩ := positive_eq_some.mp hn
    exact Text.spanLength_le p x

theorem local_blank : Local id Lexeme.blank? := local_run CodePoint.isBlank

/-- Within a block comment any code point is passed over that does not begin the end. -/
theorem blockLength_cons {c : CodePoint} (h : ¬ (c = scalar '*' ∧ x.head? = some (scalar '/'))) :
    Lexeme.blockLength? (c :: x) = (Lexeme.blockLength? x).map (· + 1) := by
  rw [Lexeme.blockLength?]
  rintro rest rfl rfl
  exact h ⟨rfl, rfl⟩

/-- A comment ends with the mark that closes it. -/
theorem blockLength_closes {n : Nat} (h : Lexeme.blockLength? x = some n) :
    ∃ v w, x = v ++ scalar '*' :: scalar '/' :: w ∧ v.length + 2 = n := by
  induction x generalizing n with
  | nil => contradiction
  | cons c x ih =>
    by_cases hclose : c = scalar '*' ∧ x.head? = some (scalar '/')
    · obtain ⟨rfl, hhead⟩ := hclose
      obtain ⟨rest, rfl⟩ := List.head?_eq_some_iff.mp hhead
      obtain rfl := Option.some.inj h
      exact ⟨[], rest, rfl, rfl⟩
    · rw [blockLength_cons hclose] at h
      obtain ⟨m, hm, rfl⟩ := Option.map_eq_some_iff.mp h
      obtain ⟨v, w, rfl, rfl⟩ := ih hm
      exact ⟨c :: v, w, rfl, rfl⟩

/-- The rest of a block comment has at least the two code points of its end, and ends within the
text. -/
theorem blockLength_bounds {n : Nat} (h : Lexeme.blockLength? x = some n) :
    2 ≤ n ∧ n ≤ x.length := by
  obtain ⟨v, w, rfl, rfl⟩ := blockLength_closes h
  simp only [List.length_append, List.length_cons]
  omega

/-- What a block comment is does not depend on what follows. -/
theorem fixed_blockLength : Fixed Lexeme.blockLength? := by
  intro x y n hn hle z
  induction x generalizing n with
  | nil =>
    -- A comment that is closed takes up two code points at least.
    have hbounds := blockLength_bounds hn
    rw [List.length_nil] at hle
    omega
  | cons c x ih =>
    cases x with
    | nil =>
      have hbounds := blockLength_bounds hn
      rw [List.length_singleton] at hle
      omega
    | cons d x =>
      rw [List.cons_append] at hn ⊢
      -- The comment is closed here, or by what comes behind the first code point.
      by_cases hclose : c = scalar '*' ∧ d = scalar '/'
      · obtain ⟨rfl, rfl⟩ := hclose
        exact hn
      · have hopen (t : Text) : ¬ (c = scalar '*' ∧ (d :: x ++ t).head? = some (scalar '/')) :=
          fun h => hclose ⟨h.1, Option.some.inj h.2⟩
        rw [blockLength_cons (hopen y)] at hn
        obtain ⟨m, hm, rfl⟩ := Option.map_eq_some_iff.mp hn
        rw [blockLength_cons (hopen z), ih hm (Nat.le_of_succ_le_succ hle)]
        rfl

/-- A text closes a comment if it holds the mark that does so. -/
theorem blockLength_isSome : (Lexeme.blockLength? x).isSome ↔ [scalar '*', scalar '/'] <:+: x := by
  induction x with
  | nil => simp [Lexeme.blockLength?]
  | cons c x ih =>
    rw [List.infix_cons_iff]
    by_cases hclose : c = scalar '*' ∧ x.head? = some (scalar '/')
    · obtain ⟨rfl, hhead⟩ := hclose
      obtain ⟨rest, rfl⟩ := List.head?_eq_some_iff.mp hhead
      exact iff_of_true rfl (Or.inl ⟨rest, rfl⟩)
    · rw [blockLength_cons hclose, Option.isSome_map, ih]
      refine (or_iff_right ?_).symm
      rintro ⟨rest, heq⟩
      obtain ⟨rfl, rfl⟩ := List.cons.inj heq
      exact hclose ⟨rfl, rfl⟩

/-- What opens no comment in code may still open one in a page. -/
theorem comment_of_ne {c : CodePoint}
    (h : c = scalar '/' → x.head? ≠ some (scalar '/') ∧ x.head? ≠ some (scalar '*')) :
    Lexeme.comment? (c :: x) = Lexeme.exactly? "<!--" (c :: x) := by
  rw [Lexeme.comment?]
  · rintro rest heq
    obtain ⟨rfl, rfl⟩ := List.cons.inj heq
    exact (h rfl).1 rfl
  · rintro rest heq
    obtain ⟨rfl, rfl⟩ := List.cons.inj heq
    exact (h rfl).2 rfl

/-- The three ways in which a comment starts. -/
theorem comment_cases (c : CodePoint) (x : Text) :
    (∃ rest, c = scalar '/' ∧ x = scalar '/' :: rest) ∨
    (∃ rest, c = scalar '/' ∧ x = scalar '*' :: rest) ∨
    (c = scalar '/' → x.head? ≠ some (scalar '/') ∧ x.head? ≠ some (scalar '*')) := by
  -- whether the text starts a comment depends on its first two code points
  by_cases hline : c = scalar '/' ∧ x.head? = some (scalar '/')
  · obtain ⟨rfl, hhead⟩ := hline
    obtain ⟨rest, rfl⟩ := List.head?_eq_some_iff.mp hhead
    exact Or.inl ⟨rest, rfl, rfl⟩
  by_cases hblock : c = scalar '/' ∧ x.head? = some (scalar '*')
  · obtain ⟨rfl, hhead⟩ := hblock
    obtain ⟨rest, rfl⟩ := List.head?_eq_some_iff.mp hhead
    exact Or.inr (Or.inl ⟨rest, rfl, rfl⟩)
  · exact Or.inr (Or.inr fun hc => ⟨fun h => hline ⟨hc, h⟩, fun h => hblock ⟨hc, h⟩⟩)

/-- A comment mark of a page does not look beyond a border. -/
theorem blind_pageComment : Blind (Lexeme.exactly? "<!--") := blind_exactly (by decide)

theorem comment_le {n : Nat} (h : Lexeme.comment? x = some n) : n ≤ x.length := by
  cases x with
  | nil => contradiction
  | cons c x =>
    obtain ⟨rest, rfl, rfl⟩ | ⟨rest, rfl, rfl⟩ | hother := comment_cases c x
    · obtain rfl := Option.some.inj h
      have hle := Text.spanLength_le (· ≠ Text.newline) rest
      simp only [List.length_cons]
      exact Nat.add_le_add_right hle 2
    · obtain ⟨m, hm, rfl⟩ := Option.map_eq_some_iff.mp h
      have hle := (blockLength_bounds hm).2
      simp only [List.length_cons]
      omega
    · rw [comment_of_ne hother] at h
      exact blind_pageComment.le h

/-- One code point alone is no comment. -/
theorem comment_singleton {c : CodePoint} (hy : Border y)
    (h : ∀ n ∈ Lexeme.comment? (c :: y), n ≤ 1) : Lexeme.comment? (c :: y) = none := by
  -- Each of the marks that start a comment has two code points at least.
  obtain ⟨rest, rfl, rfl⟩ | ⟨rest, rfl, rfl⟩ | hother := comment_cases c y
  · have hle := h _ rfl
    omega
  · cases hn : Lexeme.blockLength? rest with
    | none => simp only [Lexeme.comment?, hn, Option.map_none]
    | some n =>
      have hle := h (n + 2) (by simp only [Lexeme.comment?, hn]; rfl)
      omega
  · have hpage : Lexeme.exactly? "<!--" (c :: y) = Lexeme.exactly? "<!--" [c] :=
      blind_pageComment.append (x := [c]) (List.cons_ne_nil _ _) hy
    rw [comment_of_ne hother, hpage]
    cases hn : Lexeme.exactly? "<!--" [c] with
    | none => rfl
    | some n =>
      rw [Lexeme.exactly?] at hn
      split at hn
      · next hstarts =>
        have hle := (startsWith_iff.mp hstarts).length_le
        contradiction
      · contradiction

theorem local_comment : Local id Lexeme.comment? := by
  refine ⟨fun {x y z} hx _ hy hz hfy hfz => ?_, comment_le⟩
  match x with
  | [c] => exact (comment_singleton hy hfy).trans (comment_singleton hz hfz).symm
  | c :: d :: x =>
    obtain ⟨rest, rfl, heq⟩ | ⟨rest, rfl, heq⟩ | hother := comment_cases c (d :: x)
    · -- A comment up to the end of the line.
      obtain ⟨rfl, rfl⟩ := List.cons.inj heq
      have hspan {t : Text} (ht : ∀ n ∈ Lexeme.comment? (scalar '/' :: scalar '/' :: x ++ t),
          id n ≤ (scalar '/' :: scalar '/' :: x).length) :
          Lexeme.lineLength (x ++ t) = Lexeme.lineLength x :=
        Text.spanLength_append_of_le (Nat.le_of_add_le_add_right (b := 2) (ht _ rfl))
      simp only [List.cons_append, Lexeme.comment?, hspan hfy, hspan hfz]
    · -- A comment up to an asterisk and a slash.
      obtain ⟨rfl, rfl⟩ := List.cons.inj heq
      have hblock {t : Text} (ht : ∀ n ∈ Lexeme.comment? (scalar '/' :: scalar '*' :: x ++ t),
          id n ≤ (scalar '/' :: scalar '*' :: x).length) :
          ∀ n ∈ Lexeme.blockLength? (x ++ t), n ≤ x.length := by
        intro n hn
        refine Nat.le_of_add_le_add_right (b := 2) (ht (n + 2) ?_)
        simp only [List.cons_append, Lexeme.comment?, Option.mem_def.mp hn]
        rfl
      have hagree := fixed_blockLength.agree (hblock hfy) (hblock hfz)
      simp only [List.cons_append, Lexeme.comment?, hagree]
    · -- The mark of a web page.
      have hpage (t : Text) : Lexeme.comment? (c :: d :: x ++ t)
          = Lexeme.exactly? "<!--" (c :: d :: x ++ t) := comment_of_ne hother
      rw [hpage, hpage, blind_pageComment.append hx hy, blind_pageComment.append hx hz]

/-! ## The first line -/

/-- The rest of a line behind a given lead. -/
def lineAfter? (lead t : Text) : Option Nat :=
  if Text.startsWith t lead then some (Lexeme.lineLength (t.drop lead.length) + lead.length)
  else none

/-- A line after a lead has the lead and all up to the line break. -/
theorem lineAfter_eq_some {lead : Text} {n : Nat} :
    lineAfter? lead x = some n ↔
      lead <+: x ∧ Lexeme.lineLength (x.drop lead.length) + lead.length = n := by
  rw [lineAfter?, ← startsWith_iff]
  split
  · next h => simp [h]
  · next h => simp [h]

/-- A line after a lead is found nearby. -/
theorem local_lineAfter (lead : Text) : Local id (lineAfter? lead) := by
  refine ⟨fun {x y z} _ _ _ _ hy hz => ?_, fun {x n} hn => ?_⟩
  · by_cases hlead : lead <+: x
    · have hspan {t : Text} (ht : ∀ n ∈ lineAfter? lead (x ++ t), id n ≤ x.length) :
          lineAfter? lead (x ++ t)
            = some (Lexeme.lineLength (x.drop lead.length) + lead.length) := by
        have hlong := hlead.length_le
        have hle := ht _ (lineAfter_eq_some.mpr ⟨hlead.trans (List.prefix_append x t), rfl⟩)
        rw [List.drop_append_of_le_length hlong] at hle
        refine lineAfter_eq_some.mpr ⟨hlead.trans (List.prefix_append x t), ?_⟩
        rw [List.drop_append_of_le_length hlong, Lexeme.lineLength,
          Text.spanLength_append_of_le (Nat.le_of_add_le_add_right (b := lead.length) ?_)]
        · rfl
        · rw [List.length_drop, Nat.sub_add_cancel hlong]
          exact hle
      rw [hspan hy, hspan hz]
    · -- A lead that goes on behind the border makes the lexeme longer than what comes before.
      have hnone {t : Text} (ht : ∀ n ∈ lineAfter? lead (x ++ t), id n ≤ x.length) :
          lineAfter? lead (x ++ t) = none := by
        cases hn : lineAfter? lead (x ++ t) with
        | none => rfl
        | some n =>
          obtain ⟨hstarts, hlength⟩ := lineAfter_eq_some.mp hn
          have hle : n ≤ x.length := ht n hn
          have hshort : lead.length ≤ x.length := by omega
          exact absurd (List.prefix_of_prefix_length_le hstarts (List.prefix_append x t) hshort)
            hlead
      rw [hnone hy, hnone hz]
  · obtain ⟨hlead, rfl⟩ := lineAfter_eq_some.mp hn
    have hle := Text.spanLength_le (· ≠ Text.newline) (x.drop lead.length)
    have hlong := hlead.length_le
    rw [List.length_drop] at hle
    show Lexeme.lineLength (x.drop lead.length) + lead.length ≤ x.length
    rw [Lexeme.lineLength]
    omega

/-- The first line of a program names its interpreter in one of two ways. -/
theorem shebang_eq (t : Text) :
    Lexeme.shebang? t = (lineAfter? [scalar '#', scalar '!', scalar '/'] t <|>
      lineAfter? [scalar '#', scalar '!', scalar ' ', scalar '/'] t) := by
  rw [Lexeme.shebang?.eq_def]
  split
  · rfl
  · rfl
  · next hshort hlong =>
    have hnone {lead : Text} (h : ∀ rest, t ≠ lead ++ rest) : lineAfter? lead t = none := by
      rw [lineAfter?, if_neg]
      intro hstarts
      obtain ⟨rest, heq⟩ := startsWith_iff.mp hstarts
      exact h rest heq.symm
    rw [hnone hshort, hnone hlong]
    rfl

/-- Nothing but a hash mark starts the first line of a program. -/
theorem shebang_of_ne {c : CodePoint} (hc : c ≠ scalar '#') (t : Text) :
    Lexeme.shebang? (c :: t) = none := by
  rw [Lexeme.shebang?]
  · rintro rest heq
    exact hc (List.cons.inj heq).1
  · rintro rest heq
    exact hc (List.cons.inj heq).1

/-- The first line of a program is found nearby. -/
theorem local_shebang : Local id Lexeme.shebang? := by
  have hsplit : Lexeme.shebang? = _ := funext shebang_eq
  rw [hsplit]
  exact (local_lineAfter _).orElse (local_lineAfter _)

/-! ## Strings and regular expressions -/

/-- Induction on a text in which a backslash takes the code point behind it with it. -/
@[elab_as_elim]
theorem escaped_induction {motive : Text → Prop} (nil : motive []) (lone : motive [scalar '\\'])
    (escape : ∀ d x, motive x → motive (scalar '\\' :: d :: x))
    (plain : ∀ c x, c ≠ scalar '\\' → motive x → motive (c :: x)) (x : Text) : motive x := by
  match x with
  | [] => exact nil
  | [c] =>
    -- the last code point may be a backslash with nothing behind it
    by_cases hc : c = scalar '\\'
    · exact hc ▸ lone
    · exact plain c [] hc nil
  | c :: d :: x =>
    by_cases hc : c = scalar '\\'
    · exact hc ▸ escape d x (escaped_induction nil lone escape plain x)
    · exact plain c (d :: x) hc (escaped_induction nil lone escape plain (d :: x))

section Quoted

variable {mark : Char}

/-- Within quotes any code point is passed over that neither escapes nor ends. -/
theorem quotedLength_cons {c : CodePoint} (hc : c ≠ scalar '\\') :
    Lexeme.quotedLength? mark (c :: x) =
      if c = scalar mark then some 1 else (Lexeme.quotedLength? mark x).map (· + 1) := by
  rw [Lexeme.quotedLength?]
  · rintro d rest rfl rfl
    exact hc rfl
  · rintro rfl rfl
    exact hc rfl

/-- Behind an escape in quotes two code points are passed over. -/
theorem quotedLength_escape {c : CodePoint} {n : Nat}
    (h : Lexeme.quotedLength? mark (scalar '\\' :: c :: x) = some n) :
    ∃ m, Lexeme.quotedLength? mark x = some m ∧ m + 2 = n := by
  exact Option.map_eq_some_iff.mp h

/-- A string ends with the quotation mark that it starts with. -/
theorem quotedLength_closes {n : Nat} (h : Lexeme.quotedLength? mark x = some n) :
    ∃ v w, x = v ++ scalar mark :: w ∧ v.length + 1 = n := by
  induction x using escaped_induction generalizing n with
  | nil | lone => contradiction
  | escape d x ih =>
    obtain ⟨m, hm, rfl⟩ := quotedLength_escape h
    obtain ⟨v, w, rfl, rfl⟩ := ih hm
    exact ⟨scalar '\\' :: d :: v, w, rfl, rfl⟩
  | plain c x hc ih =>
    rw [quotedLength_cons hc] at h
    split at h
    · next heq =>
      obtain rfl := Option.some.inj h
      exact ⟨[], x, congrArg (· :: x) heq, rfl⟩
    · obtain ⟨m, hm, rfl⟩ := Option.map_eq_some_iff.mp h
      obtain ⟨v, w, rfl, rfl⟩ := ih hm
      exact ⟨c :: v, w, rfl, rfl⟩

/-- What is quoted has at least the mark that ends it, and ends within the text. -/
theorem quotedLength_bounds {n : Nat} (h : Lexeme.quotedLength? mark x = some n) :
    1 ≤ n ∧ n ≤ x.length := by
  obtain ⟨v, w, rfl, rfl⟩ := quotedLength_closes h
  simp only [List.length_append, List.length_cons]
  omega

/-- What is quoted does not depend on what follows. -/
theorem fixed_quotedLength (mark : Char) : Fixed (Lexeme.quotedLength? mark) := by
  intro x y n hn hle z
  induction x using escaped_induction generalizing n with
  | nil =>
    have hpos := (quotedLength_bounds hn).1
    rw [List.length_nil] at hle
    omega
  | lone =>
    -- The escape would take the first code point of `y` with it.
    match y with
    | [] => contradiction
    | d :: y =>
      obtain ⟨m, hm, rfl⟩ := quotedLength_escape hn
      rw [List.length_singleton] at hle
      omega
  | escape d x ih =>
    obtain ⟨m, hm, rfl⟩ := quotedLength_escape hn
    have hrest := ih hm (Nat.le_of_add_le_add_right (b := 2) hle)
    show (Lexeme.quotedLength? mark (x ++ z)).map (· + 2) = some (m + 2)
    rw [hrest]
    rfl
  | plain c x hc ih =>
    rw [List.cons_append, quotedLength_cons hc] at hn ⊢
    split
    · next heq =>
      rw [if_pos heq] at hn
      exact hn
    · next hne =>
      rw [if_neg hne] at hn
      obtain ⟨m, hm, rfl⟩ := Option.map_eq_some_iff.mp hn
      rw [ih hm (Nat.le_of_succ_le_succ hle)]
      rfl

end Quoted

/-- A string is a quote, what is quoted and the same quote again. -/
theorem string_eq_some {n : Nat} (h : Lexeme.string? x = some n) :
    ∃ mark rest m, (mark = '"' ∨ mark = '\'') ∧ x = scalar mark :: rest ∧
      Lexeme.quotedLength? mark rest = some m ∧ m + 1 = n := by
  rw [Lexeme.string?.eq_def] at h
  split at h
  · next rest =>
    obtain ⟨m, hm, rfl⟩ := Option.map_eq_some_iff.mp h
    exact ⟨_, rest, m, Or.inl rfl, rfl, hm, rfl⟩
  · next rest =>
    obtain ⟨m, hm, rfl⟩ := Option.map_eq_some_iff.mp h
    exact ⟨_, rest, m, Or.inr rfl, rfl, hm, rfl⟩
  · contradiction

/-- Behind a quote a string goes on to the quote that ends it. -/
theorem string_quoted {mark : Char} (hmark : mark = '"' ∨ mark = '\'') (t : Text) :
    Lexeme.string? (scalar mark :: t) = (Lexeme.quotedLength? mark t).map (· + 1) := by
  obtain rfl | rfl := hmark <;> rfl

theorem string_le {n : Nat} (h : Lexeme.string? x = some n) : n ≤ x.length := by
  obtain ⟨mark, rest, m, -, rfl, hm, rfl⟩ := string_eq_some h
  exact Nat.succ_le_succ (quotedLength_bounds hm).2

/-- What a string is does not depend on what follows. -/
theorem fixed_string : Fixed Lexeme.string? := by
  intro x y n hn hle z
  obtain ⟨mark, rest, m, hmark, heq, hm, rfl⟩ := string_eq_some hn
  cases x with
  | nil =>
    rw [List.length_nil] at hle
    omega
  | cons c x =>
    obtain ⟨rfl, rfl⟩ := List.cons.inj heq
    have hrest := fixed_quotedLength mark hm (Nat.le_of_succ_le_succ hle) z
    rw [List.cons_append, string_quoted hmark, hrest]
    rfl

/-- What is fixed by what it takes is found nearby. -/
theorem Fixed.local {f : Text → Option Nat} (hf : Fixed f)
    (hle : ∀ {x : Text} {n : Nat}, f x = some n → n ≤ x.length) : Local id f :=
  ⟨fun _ _ _ _ hy hz => hf.agree hy hz, hle⟩

theorem local_string : Local id Lexeme.string? := fixed_string.local string_le

section Pattern

variable {inClass : Bool}

/-- A code point that stands for itself in a pattern, or opens or closes a pair of brackets. -/
theorem patternLength_cons {c : CodePoint} (hslash : c ≠ scalar '\\') :
    Lexeme.patternLength? inClass (c :: x) =
      if c = scalar '\n' then none
      else if c = scalar '/' then
        if inClass then (Lexeme.patternLength? true x).map (· + 1) else some 1
      else (Lexeme.patternLength?
        (if c = scalar '[' then true else if c = scalar ']' then false else inClass) x).map
          (· + 1) := by
  rw [Lexeme.patternLength?.eq_def]
  split <;> simp_all

/-- Behind an escape in a pattern two code points are passed over. -/
theorem patternLength_escape {c : CodePoint} {n : Nat}
    (h : Lexeme.patternLength? inClass (scalar '\\' :: c :: x) = some n) :
    ∃ m, Lexeme.patternLength? inClass x = some m ∧ m + 2 = n :=
  Option.map_eq_some_iff.mp h

/-- A pattern ends with a slash. -/
theorem patternLength_closes {n : Nat} (h : Lexeme.patternLength? inClass x = some n) :
    ∃ v w, x = v ++ scalar '/' :: w ∧ v.length + 1 = n := by
  induction x using escaped_induction generalizing n inClass with
  | nil | lone => contradiction
  | escape d x ih =>
    obtain ⟨m, hm, rfl⟩ := patternLength_escape h
    obtain ⟨v, w, rfl, rfl⟩ := ih hm
    exact ⟨scalar '\\' :: d :: v, w, rfl, rfl⟩
  | plain c x hc ih =>
    have hstep {b : Bool} (h : (Lexeme.patternLength? b x).map (· + 1) = some n) :
        ∃ v w, c :: x = v ++ scalar '/' :: w ∧ v.length + 1 = n := by
      obtain ⟨m, hm, rfl⟩ := Option.map_eq_some_iff.mp h
      obtain ⟨v, w, rfl, rfl⟩ := ih hm
      exact ⟨c :: v, w, rfl, rfl⟩
    rw [patternLength_cons hc] at h
    split at h
    · contradiction
    split at h
    · next hslash =>
      -- Between brackets a slash stands for itself.
      split at h
      · exact hstep h
      · obtain rfl := Option.some.inj h
        exact ⟨[], x, congrArg (· :: x) hslash, rfl⟩
    · exact hstep h

/-- A pattern has at least the slash that ends it, and ends within the text. -/
theorem patternLength_bounds {n : Nat} (h : Lexeme.patternLength? inClass x = some n) :
    1 ≤ n ∧ n ≤ x.length := by
  obtain ⟨v, w, rfl, rfl⟩ := patternLength_closes h
  simp only [List.length_append, List.length_cons]
  omega

/-- What a pattern is does not depend on what follows. -/
theorem fixed_patternLength (inClass : Bool) : Fixed (Lexeme.patternLength? inClass) := by
  intro x y n hn hle z
  induction x using escaped_induction generalizing n inClass with
  | nil =>
    have hpos := (patternLength_bounds hn).1
    rw [List.length_nil] at hle
    omega
  | lone =>
    match y with
    | [] => contradiction
    | d :: y =>
      obtain ⟨m, hm, rfl⟩ := patternLength_escape hn
      rw [List.length_singleton] at hle
      omega
  | escape d x ih =>
    obtain ⟨m, hm, rfl⟩ := patternLength_escape hn
    have hrest := ih inClass hm (Nat.le_of_add_le_add_right (b := 2) hle)
    show (Lexeme.patternLength? inClass (x ++ z)).map (· + 2) = some (m + 2)
    rw [hrest]
    rfl
  | plain c x hc ih =>
    -- Behind any code point the pattern goes on alike, inside a class or not.
    have hstep {b : Bool} (h : (Lexeme.patternLength? b (x ++ y)).map (· + 1) = some n) :
        (Lexeme.patternLength? b (x ++ z)).map (· + 1) = some n := by
      obtain ⟨m, hm, rfl⟩ := Option.map_eq_some_iff.mp h
      rw [ih b hm (Nat.le_of_succ_le_succ hle)]
      rfl
    rw [List.cons_append, patternLength_cons hc] at hn ⊢
    by_cases hline : c = scalar '\n'
    · rw [if_pos hline] at hn
      contradiction
    rw [if_neg hline] at hn ⊢
    by_cases hmark : c = scalar '/'
    · rw [if_pos hmark] at hn ⊢
      -- A slash inside a class does not close the pattern.
      cases inClass with
      | true => exact hstep hn
      | false => exact hn
    · rw [if_neg hmark] at hn ⊢
      exact hstep hn

end Pattern

/-- The flags end in front of a border. -/
theorem blind_flagsLength (hy : Border y) (x : Text) :
    Lexeme.flagsLength? (x ++ y) = Lexeme.flagsLength? x := by
  have hflag : Unbordered Lexeme.isFlag := fun c hc =>
    CodePoint.eq_false_of_isBorder (p := Lexeme.isFlag) (by decide) hc
  have hword : Unbordered CodePoint.isWord := fun c hc => CodePoint.isWord_of_isBorder hc
  have hle := Text.spanLength_le Lexeme.isFlag x
  rw [Lexeme.flagsLength?, Lexeme.flagsLength?, spanLength_border hflag hy,
    List.drop_append_of_le_length hle, headIs_border hword hy]

theorem flagsLength_le {n : Nat} (h : Lexeme.flagsLength? x = some n) : n ≤ x.length := by
  rw [Lexeme.flagsLength?] at h
  split at h
  · contradiction
  · obtain rfl := Option.some.inj h
    exact Text.spanLength_le _ x

/-- A regular expression is a slash, a pattern and its flags, and is no comment. -/
theorem regularExpression_eq_some {n : Nat} (h : Lexeme.regularExpression? x = some n) :
    ∃ rest m k, x = scalar '/' :: rest ∧ rest.head? ≠ some (scalar '/') ∧
      Lexeme.patternLength? false rest = some m ∧ Lexeme.flagsLength? (rest.drop m) = some k ∧
      k + (m + 1) = n := by
  rw [Lexeme.regularExpression?.eq_def] at h
  split at h
  · contradiction
  · next rest hno =>
    split at h
    · contradiction
    · next m hm =>
      obtain ⟨k, hk, rfl⟩ := Option.map_eq_some_iff.mp h
      refine ⟨rest, m, k, rfl, fun hhead => ?_, hm, hk, rfl⟩
      obtain ⟨t, rfl⟩ := List.head?_eq_some_iff.mp hhead
      exact hno t rfl
  · contradiction

/-- Behind a slash a pattern and its flags make a regular expression. -/
theorem regularExpression_slash {rest : Text} {m : Nat} (hhead : rest.head? ≠ some (scalar '/'))
    (hm : Lexeme.patternLength? false rest = some m) :
    Lexeme.regularExpression? (scalar '/' :: rest)
      = (Lexeme.flagsLength? (rest.drop m)).map (· + (m + 1)) := by
  rw [Lexeme.regularExpression?.eq_def]
  split
  · next t heq =>
    obtain rfl := (List.cons.inj heq).2
    contradiction
  · next t _ heq =>
    obtain rfl := (List.cons.inj heq).2
    rw [hm]
  · next hno => exact absurd rfl (hno rest)

theorem regularExpression_le {n : Nat} (h : Lexeme.regularExpression? x = some n) :
    n ≤ x.length := by
  obtain ⟨rest, m, k, rfl, -, hm, hk, rfl⟩ := regularExpression_eq_some h
  have hpattern := (patternLength_bounds hm).2
  have hflags := flagsLength_le hk
  rw [List.length_drop] at hflags
  rw [List.length_cons]
  omega

/-- A regular expression is found again in front of any border. -/
theorem regularExpression_border {n : Nat} (hy : Border y) (hz : Border z)
    (h : Lexeme.regularExpression? (x ++ y) = some n) (hle : n ≤ x.length) :
    Lexeme.regularExpression? (x ++ z) = some n := by
  obtain ⟨rest, m, k, heq, hhead, hm, hk, rfl⟩ := regularExpression_eq_some h
  cases x with
  | nil =>
    rw [List.length_nil] at hle
    omega
  | cons c x =>
    have hrest : x ++ y = rest := (List.cons.inj heq).2
    obtain rfl := (List.cons.inj heq).1
    subst hrest
    rw [List.length_cons] at hle
    have hpattern := patternLength_bounds hm
    have hmx : m ≤ x.length := by omega
    -- Both the pattern and the flags lie in `x` as a whole, so that neither depends on `y`.
    have hmz := fixed_patternLength false hm hmx z
    have hheadz : (x ++ z).head? ≠ some (scalar '/') := by
      cases x with
      | nil =>
        rw [List.length_nil] at hmx
        omega
      | cons d x => exact hhead
    rw [List.drop_append_of_le_length hmx, blind_flagsLength hy] at hk
    rw [List.cons_append, regularExpression_slash hheadz hmz, List.drop_append_of_le_length hmx,
      blind_flagsLength hz, hk]
    rfl

theorem local_regularExpression : Local id Lexeme.regularExpression? := by
  refine ⟨fun {x y z} _ _ hy hz hfy hfz => ?_, regularExpression_le⟩
  -- what is found in one of the texts is found in the other one
  cases hn : Lexeme.regularExpression? (x ++ y) with
  | some n => exact (regularExpression_border hy hz hn (hfy n hn)).symm
  | none =>
    cases hm : Lexeme.regularExpression? (x ++ z) with
    | none => rfl
    | some m =>
      have hfound := regularExpression_border hz hy hm (hfz m hm)
      rw [hn] at hfound
      contradiction

/-! ## Operators -/

/-- A spelling is found where the text starts with it. -/
theorem exactly_eq_some {s : String} {n : Nat} :
    Lexeme.exactly? s x = some n ↔ Text.ofString s <+: x ∧ (Text.ofString s).length = n := by
  have hlength : (Text.ofString s).length = s.length := by
    rw [Text.ofString, List.length_map, String.length_toList]
  rw [Lexeme.exactly?, ← startsWith_iff, hlength]
  split
  · next h => simp [h]
  · next h => simp [h]

theorem exactly_le {s : String} {n : Nat} (h : Lexeme.exactly? s x = some n) : n ≤ x.length := by
  obtain ⟨hlead, rfl⟩ := exactly_eq_some.mp h
  exact hlead.length_le

theorem local_exactly (s : String) : Local id (Lexeme.exactly? s) := by
  refine Fixed.local (fun {x y n} hn hle z => ?_) exactly_le
  obtain ⟨hlead, rfl⟩ := exactly_eq_some.mp hn
  have hshort := List.prefix_of_prefix_length_le hlead (List.prefix_append x y) hle
  exact exactly_eq_some.mpr ⟨hshort.trans (List.prefix_append x z), rfl⟩

/-- The operators that no equals sign can extend. -/
def closedOperator? (t : Text) : Option Nat :=
  Lexeme.closedOperators.findSome? (Lexeme.exactly? · t)

/-- The operators that an equals sign may extend, without that sign. -/
def openOperator? (t : Text) : Option Nat :=
  Lexeme.openOperators.findSome? (Lexeme.exactly? · t)

/-- An operator with the equals sign that extends it. -/
def extended? (t : Text) : Option Nat :=
  (openOperator? t).map fun n =>
    if Lexeme.headIs (· == scalar '=') (t.drop n) then n + 1 else n

/-- Unless a backslash ends the line, an operator is one that no equals sign extends, or else one
that an equals sign may extend. -/
theorem operator_of_ne (h : ∀ rest, x ≠ scalar '\\' :: scalar '\n' :: rest) :
    Lexeme.operator? x = (closedOperator? x <|> extended? x) := by
  rw [Lexeme.operator?, closedOperator?]
  · split
    · next n hn => rw [hn]; rfl
    · next hnone => rw [hnone]; rfl
  · exact h

/-- The operators that no equals sign extends are found nearby. -/
theorem local_closedOperator : Local id closedOperator? :=
  local_findSome fun s _ => local_exactly s

/-- The operators that an equals sign may extend are found nearby, without that sign. -/
theorem local_openOperator : Local id openOperator? :=
  local_findSome fun s _ => local_exactly s

/-- No equals sign comes after a border. -/
theorem extended_border (hy : Border y) {n : Nat} (h : openOperator? (x ++ y) = some n)
    (hle : n ≤ x.length) :
    extended? (x ++ y)
      = some (if Lexeme.headIs (· == scalar '=') (x.drop n) then n + 1 else n) := by
  have hequals : Unbordered (· == scalar '=') := fun c hc =>
    CodePoint.eq_false_of_isBorder (p := (· == scalar '=')) (by decide) hc
  rw [extended?, h, Option.map_some, List.drop_append_of_le_length hle,
    headIs_border hequals hy]

/-- An equals sign makes an operator longer. -/
theorem le_of_extended {n k : Nat} (h : openOperator? x = some n) (hk : extended? x = some k) :
    n ≤ k := by
  rw [extended?, h, Option.map_some, Option.some.injEq] at hk
  split at hk <;> omega

/-- An operator ends within the text with the equals sign that extends it. -/
theorem extended_le {n : Nat} (h : extended? x = some n) : n ≤ x.length := by
  obtain ⟨m, hm, rfl⟩ := Option.map_eq_some_iff.mp h
  have hle : m ≤ x.length := local_openOperator.le hm
  have hsign := headIs_le (· == scalar '=') (x.drop m)
  rw [List.length_drop] at hsign
  split <;> split at hsign <;> omega

/-- An operator is found nearby with the equals sign that extends it. -/
theorem local_extended : Local id extended? := by
  refine ⟨fun {x y z} hx hslash hy hz hfy hfz => ?_, extended_le⟩
  -- An equals sign only makes an operator longer.
  have hopen {t : Text} (ht : ∀ n ∈ extended? (x ++ t), id n ≤ x.length) :
      ∀ n ∈ openOperator? (x ++ t), id n ≤ x.length := by
    intro n hn
    cases hk : extended? (x ++ t) with
    | none => rw [extended?, Option.map_eq_none_iff, hn] at hk; contradiction
    | some k => exact Nat.le_trans (le_of_extended hn hk) (ht k hk)
  have hagree := local_openOperator.agree hx hslash hy hz (hopen hfy) (hopen hfz)
  cases hn : openOperator? (x ++ y) with
  | none =>
    have hm := hn
    rw [hagree] at hm
    rw [extended?, extended?, hn, hm]
    rfl
  | some n =>
    have hle := hopen hfy n hn
    have hm := hn
    rw [hagree] at hm
    rw [extended_border hy hn hle, extended_border hz hm hle]

/-- A border does not complete a backslash with a line feed, unless it stands directly behind. -/
theorem ne_backslash (hx : x ≠ []) (hslash : x ≠ [scalar '\\']) (y : Text)
    (h : ∀ rest, x ≠ scalar '\\' :: scalar '\n' :: rest) :
    ∀ rest, x ++ y ≠ scalar '\\' :: scalar '\n' :: rest := by
  intro rest heq
  -- the two code points are in the text, unless it is a backslash alone
  match x with
  | [c] => exact hslash (congrArg (· :: []) (List.cons.inj heq).1)
  | c :: d :: x =>
    obtain ⟨rfl, hrest⟩ := List.cons.inj heq
    obtain ⟨rfl, -⟩ := List.cons.inj hrest
    exact h x rfl

/-- A backslash at the end of a line is an operator for itself. -/
theorem operator_backslash (t : Text) :
    Lexeme.operator? (scalar '\\' :: scalar '\n' :: t) = some 1 := rfl

theorem local_operator : Local id Lexeme.operator? := by
  have hrules : Local id fun t => closedOperator? t <|> extended? t :=
    local_closedOperator.orElse local_extended
  refine ⟨fun {x y z} hx hslash hy hz hfy hfz => ?_, fun {x n} hn => ?_⟩
  · by_cases hfeed : ∃ rest, x = scalar '\\' :: scalar '\n' :: rest
    · -- A backslash at the end of a line is an operator whatever comes behind.
      obtain ⟨rest, rfl⟩ := hfeed
      exact (operator_backslash _).trans (operator_backslash _).symm
    · have hother (t : Text) : Lexeme.operator? (x ++ t)
          = (closedOperator? (x ++ t) <|> extended? (x ++ t)) :=
        operator_of_ne (ne_backslash hx hslash t fun rest heq => hfeed ⟨rest, heq⟩)
      rw [hother] at hfy hfz
      rw [hother, hother]
      exact hrules.agree hx hslash hy hz hfy hfz
  · by_cases hfeed : ∃ rest, x = scalar '\\' :: scalar '\n' :: rest
    · obtain ⟨rest, rfl⟩ := hfeed
      rw [operator_backslash] at hn
      obtain rfl := Option.some.inj hn
      exact Nat.succ_le_succ (Nat.zero_le _)
    · rw [operator_of_ne fun rest heq => hfeed ⟨rest, heq⟩] at hn
      exact hrules.le hn

end Script

end Dialects
