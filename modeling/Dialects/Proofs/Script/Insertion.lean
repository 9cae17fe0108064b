import Dialects.Proofs.Script.Marked

/-!
# The first token when a semicolon is added

The other way round, the first token of a text is still the first one when a semicolon is added
behind it (`first_inserted`), at once or later. A comment or the text of a template would go on
with the semicolon if it came next, a backslash in front of it would no longer be an operator, and
an open comment must not be closed behind the semicolon if it is not closed without it.
-/

namespace Dialects.Script

open CodePoint (scalar)
open Text (spanLength)

variable {x y z t : Text} {s : LexState} {a : Step}

/-- A run that reaches the end of a text does so whatever follows the text. -/
theorem le_spanLength_append {p : CodePoint → Bool} (h : x.length ≤ spanLength p (x ++ y))
    (z : Text) : x.length ≤ spanLength p (x ++ z) := by
  rw [Text.spanLength_append_of_all (all_of_length_le h)]
  exact Nat.le_add_right _ _

/-- A backslash in front of a border is an operator or starts no token. -/
theorem kind_of_backslash (h : Step.first? s (scalar '\\' :: z) = some a) (hle : a.length ≤ 1)
    (hz : Border z) : a.kind = .operator := by
  cases hs : s.mode with
  | template =>
    rw [Step.first?, hs] at h
    cases z with
    | nil => contradiction
    | cons c z =>
      -- An escape in a template covers the next code point as well.
      obtain rfl := Option.some.inj h
      contradiction
  | code b =>
    -- A name may start with a backslash too, but then a letter follows.
    have hescaped : Lexeme.escapedLength (scalar '\\' :: z) = 0 := by
      rw [Lexeme.escapedLength]
      rintro d e f g rest heq
      exact hz.ne_cons (by decide) _ (List.cons.inj heq).2
    have hrules : ∀ r ∈ rules, r.kind = .operator ∨ r.length? (scalar '\\' :: z) = none :=
      forall_rules (p := fun kind f => kind = .operator ∨ f (scalar '\\' :: z) = none)
        (Or.inr rfl) (Or.inr rfl) (Or.inr rfl) (Or.inr rfl) (Or.inl rfl) (Or.inr rfl) (Or.inr rfl)
        (fun _ ws _ hws => Or.inr (word_of_mark (by decide) hws)) (Or.inr rfl)
        (Or.inr (name_of_mark (by decide +kernel) hescaped)) (Or.inr rfl) (Or.inr rfl)
    have hfound := byRules_of_first hs (fun _ => rfl) (by decide) (by decide) (by decide)
      (by decide) (by decide) h
    obtain ⟨r, hr, hlength, ha⟩ := byRules_cases hfound
    obtain hkind | hnone := hrules r hr
    · rw [ha]
      exact hkind
    · rw [hnone] at hlength
      contradiction

/-- The first line reaches the end of a text in front of any other if it goes on with a
semicolon. -/
theorem shebang_reaches {n : Nat} (h : Lexeme.shebang? (x ++ scalar ';' :: t) = some n)
    (hgt : x.length < n) (y : Text) : ∃ m, Lexeme.shebang? (x ++ y) = some m ∧ x.length ≤ m := by
  have hreaches {v : Text} (hv : v.length ≤ Lexeme.lineLength (v ++ scalar ';' :: t)) :
      v.length ≤ Lexeme.lineLength (v ++ y) := le_spanLength_append hv y
  rw [Lexeme.shebang?.eq_def] at h
  split at h
  · next rest heq =>
    obtain rfl := Option.some.inj h
    -- There is no semicolon among the marks that the line starts with.
    rcases x with _ | ⟨_, _ | ⟨_, _ | ⟨_, v⟩⟩⟩
    · simp at heq
    · simp at heq
    · simp at heq
    · simp only [List.cons_append, List.cons.injEq] at heq
      obtain ⟨rfl, rfl, rfl, rfl⟩ := heq
      have hv := hreaches (v := v) (by simp only [List.length_cons] at hgt; omega)
      exact ⟨_, rfl, Nat.add_le_add_right hv 3⟩
  · next rest heq =>
    obtain rfl := Option.some.inj h
    rcases x with _ | ⟨_, _ | ⟨_, _ | ⟨_, _ | ⟨_, v⟩⟩⟩⟩
    · simp at heq
    · simp at heq
    · simp at heq
    · simp at heq
    · simp only [List.cons_append, List.cons.injEq] at heq
      obtain ⟨rfl, rfl, rfl, rfl, rfl⟩ := heq
      have hv := hreaches (v := v) (by simp only [List.length_cons] at hgt; omega)
      exact ⟨_, rfl, Nat.add_le_add_right hv 4⟩
  · contradiction

section Inserted

variable (h : Step.first? s (x ++ z) = some a) (hle : a.length ≤ x.length)
  (hx : x ≠ []) (hslash : x ≠ [scalar '\\']) (hz : Border z)

include hle hx hslash

/-- The text of a template that goes on with what is added would have reached it before. -/
theorem inTemplate_bound (h : Step.inTemplate? s (x ++ z) = some a)
    (hend : a.length = x.length → a.mode ≠ .template) (hy : Border y) {c : Step}
    (hc : Step.inTemplate? s (x ++ y) = some c) : c.length ≤ x.length := by
  have hone : 1 ≤ x.length := List.length_pos_iff.mpr hx
  rw [Step.inTemplate?.eq_def] at hc
  split at hc
  · obtain rfl := Option.some.inj hc
    exact hone
  · next d rest heq =>
    obtain rfl := Option.some.inj hc
    rcases x with _ | ⟨_, _ | ⟨_, x⟩⟩
    · contradiction
    · exact absurd (congrArg (· :: []) (List.cons.inj heq).1) hslash
    · exact Nat.le_add_left 2 _
  · next rest heq =>
    obtain rfl := Option.some.inj hc
    rcases x with _ | ⟨_, _ | ⟨_, x⟩⟩
    · contradiction
    · exact absurd (List.cons.inj heq).2 (hy.ne_cons (by decide) _)
    · exact Nat.le_add_left 2 _
  · obtain rfl := Option.some.inj hc
    exact hone
  · obtain ⟨n, hn, rfl⟩ := Option.map_eq_some_iff.mp hc
    obtain ⟨rfl, hpos⟩ := positive_eq_some.mp hn
    refine Nat.le_of_not_lt fun hgt => ?_
    -- The text in front of `z` was plain up to the end, so that the token ended in the template.
    have hall := all_of_length_le (Nat.le_of_lt hgt)
    have hreaches := le_spanLength_append (Nat.le_of_lt hgt) z
    obtain ⟨d, x, rfl⟩ := List.exists_cons_of_ne_nil hx
    have hd := hall d List.mem_cons_self
    simp only [Lexeme.isPlainInTemplate, Bool.and_eq_true, bne_iff_ne] at hd
    rw [List.cons_append, inTemplate_of_ne hd.1.1 hd.1.2 hd.2, ← List.cons_append] at h
    obtain ⟨m, hm, rfl⟩ := Option.map_eq_some_iff.mp h
    obtain ⟨rfl, -⟩ := positive_eq_some.mp hm
    exact hend (Nat.le_antisymm hle hreaches) rfl

include h

/-- A line comment that goes on with what is added would have reached it before. -/
theorem lineLength_bound {b : Bool} (hs : s.mode = .code b)
    (hend : a.length = x.length → a.kind ≠ .comment) {v : Text}
    (hv : x = scalar '/' :: scalar '/' :: v) (y : Text) :
    Lexeme.lineLength (v ++ y) ≤ v.length := by
  refine Nat.le_of_not_lt fun hgt => ?_
  have hreaches : v.length ≤ Lexeme.lineLength (v ++ z) :=
    le_spanLength_append (Nat.le_of_lt hgt) z
  subst hv
  obtain ⟨b', -, hcomment⟩ := first_comment hs rfl
    (show Lexeme.comment? (scalar '/' :: scalar '/' :: v ++ z)
      = some (Lexeme.lineLength (v ++ z) + 2) from rfl)
  rw [h] at hcomment
  obtain rfl := Option.some.inj hcomment
  exact hend (Nat.le_antisymm hle (Nat.add_le_add_right hreaches 2)) rfl

include hz

theorem shebang_inserted (hmode : s.mode = .code false) (hstart : s.previous = none)
    (hend : a.length = x.length → a.kind ≠ .comment) :
    Lexeme.shebang? (x ++ scalar ';' :: t) = Lexeme.shebang? (x ++ z) := by
  have hbound {n : Nat} (hn : Lexeme.shebang? (x ++ z) = some n) :
      n ≤ x.length ∧ n ≠ x.length := by
    rw [first_shebang hmode hstart hn] at h
    obtain rfl := Option.some.inj h
    exact ⟨hle, fun heq => hend heq rfl⟩
  refine local_shebang.agree hx hslash (border_semicolon t) hz (fun n hn => ?_)
    (fun n hn => (hbound hn).1)
  refine Nat.le_of_not_lt fun hgt => ?_
  -- The first line would have reached the end of `x` before, as a comment.
  obtain ⟨m, hm, hreaches⟩ := shebang_reaches hn hgt z
  obtain ⟨hshort, hne⟩ := hbound hm
  exact hne (Nat.le_antisymm hshort hreaches)

/-- A token stays the first one when a semicolon is added behind it. If the semicolon comes next,
the token must be read to its end. -/
theorem first_inserted (hend : a.length = x.length → a.kind ≠ .comment ∧ a.mode ≠ .template)
    (hblock : ∀ v, x = scalar '/' :: scalar '*' :: v →
      (Lexeme.blockLength? (v ++ scalar ';' :: t)).isSome → (Lexeme.blockLength? (v ++ z)).isSome) :
    Step.first? s (x ++ scalar ';' :: t) = some a := by
  have hborder := border_semicolon t
  cases hs : s.mode with
  | template =>
    rw [Step.first?, hs] at h ⊢
    have hinserted := (local_inTemplate s).agree hx hslash hborder hz
      (fun c hc => inTemplate_bound hle hx hslash h (fun heq => (hend heq).2) hborder hc)
      (fun c hc => Option.some.inj (h.symm.trans hc) ▸ hle)
    exact hinserted.trans h
  | code b =>
    have hnocomment (heq : a.length = x.length) : a.kind ≠ .comment := (hend heq).1
    have hother {d : CodePoint} (hd : scalar ';' ≠ d) : (scalar ';' :: t).head? ≠ some d :=
      fun heq => hd (Option.some.inj heq)
    have hstar := hother (d := scalar '*') (by decide)
    have hsecond := hother (d := scalar '/') (by decide)
    have hangle := hother (d := scalar '<') (by decide)
    -- Of the lexemes that are not blind to what follows, none goes on with a semicolon but those
    -- that would have gone on before.
    have hends : Ends x (scalar ';' :: t) :=
      { border := hborder
        blank := fun n hn => by
          obtain ⟨rfl, -⟩ := positive_eq_some.mp hn
          refine Nat.le_of_not_lt fun hgt => ?_
          have hblank := eq_true_of_lt_spanLength hgt
          contradiction
        comment := fun n hn =>
          comment_bound hs h hle hx hborder hstar (absurd · hsecond)
            (fun v hv _ => lineLength_bound h hle hx hslash hs hnocomment hv _) hblock hn
        operator := fun n hn =>
          operator_bound hborder hx hstar (absurd · hangle) hn
        string := fun n hn => string_bound hs h hle hx hn }
    exact code_unchanged h hle hx hslash hz hends hs fun hstart hmode =>
      shebang_inserted h hle hx hslash hz hmode hstart hnocomment

end Inserted

end Dialects.Script
