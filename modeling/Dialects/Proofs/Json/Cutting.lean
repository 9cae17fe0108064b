import Dialects.Proofs.Json.Extension

/-!
# How a text is cut into tokens

A text in the lenient dialect is cut from its start on: a blank or a comment is dropped, anything
else is cut off as a token (`Lenient.Cut`). So each token is a piece of the text, at the place that
its offset names, and what stands between two tokens that follow each other is a list of blanks and
comments (`Lenient.Cut.neighbours`).
-/

namespace Dialects.Json

open CodePoint (scalar)
open Text (Stops spanLength)

/-! ## Pieces of the text -/

section Pieces

variable {c : CodePoint} {t rest : Text} {kind : Kind} {n : Nat}

/-- A string ends within the text. -/
theorem closingLength?_le {multiline : Bool} (h : closingLength? multiline t = some n) :
    n ≤ t.length := by
  -- a text or a line that ends too early gives no length, and an escape counts two code points
  fun_induction closingLength? multiline t generalizing n with
  | case1 | case3 | case5 => contradiction
  | case2 c t ih =>
    obtain ⟨m, hm, rfl⟩ := Option.map_eq_some_iff.mp h
    exact Nat.succ_le_succ (Nat.succ_le_succ (ih hm))
  | case4 t =>
    obtain rfl := Option.some.inj h
    exact Nat.succ_le_succ (Nat.zero_le _)
  | case6 c t hescape hlast hquote hline ih =>
    obtain ⟨m, hm, rfl⟩ := Option.map_eq_some_iff.mp h
    exact Nat.succ_le_succ (ih hm)

/-- A token of the lenient dialect is a piece of the text. -/
theorem Lenient.tokenAt?_le (h : Lenient.tokenAt? c rest = some (kind, n)) : n ≤ rest.length := by
  unfold Lenient.tokenAt? at h
  split at h
  · obtain ⟨-, rfl⟩ := Prod.mk.inj (Option.some.inj h)
    exact Nat.zero_le _
  split at h
  · obtain ⟨m, hm, heq⟩ := Option.map_eq_some_iff.mp h
    obtain ⟨-, rfl⟩ := Prod.mk.inj heq
    exact closingLength?_le hm
  split at h
  · next m hm =>
    -- a number is measured from its first code point on, and the rest of it is shorter by one
    obtain ⟨-, rfl⟩ := Prod.mk.inj (Option.some.inj h)
    have hle := numberLength_le (c :: rest)
    rw [hm, List.length_cons] at hle
    exact Nat.le_of_succ_le_succ hle
  · split at h
    · obtain ⟨-, rfl⟩ := Prod.mk.inj (Option.some.inj h)
      exact Text.spanLength_le _ _
    · contradiction

/-- A comment ends with the first mark that closes it. -/
theorem Lenient.exists_of_blockLength? (h : Lenient.blockLength? t = some n) :
    ∃ body rest, t = body ++ scalar '*' :: scalar '/' :: rest ∧ n = body.length + 2 ∧
      ¬ [scalar '*', scalar '/'] <:+: body := by
  fun_induction Lenient.blockLength? t generalizing n with
  | case1 => contradiction
  | case2 rest => exact ⟨[], rest, rfl, (Option.some.inj h).symm, by simp⟩
  | case3 c t hopen ih =>
    obtain ⟨m, hm, rfl⟩ := Option.map_eq_some_iff.mp h
    obtain ⟨body, rest, rfl, rfl, hbody⟩ := ih hm
    refine ⟨c :: body, rest, rfl, rfl, ?_⟩
    rw [List.infix_cons_iff, not_or]
    refine ⟨?_, hbody⟩
    rintro ⟨after, heq⟩
    obtain ⟨rfl, rfl⟩ := List.cons.inj heq
    exact hopen _ rfl rfl

end Pieces

/-! ## Gaps -/

/-- A blank or a comment. -/
inductive Gap : Text → Prop where
  | blank (c : CodePoint) (h : c.isBlank = true) : Gap [c]
  | line (body : Text) (h : Text.newline ∉ body) : Gap (scalar '/' :: scalar '/' :: body)
  | block (body : Text) (h : ¬ [scalar '*', scalar '/'] <:+: body) :
      Gap (scalar '/' :: scalar '*' :: (body ++ [scalar '*', scalar '/']))

/-- What is skipped between tokens is made of blanks and comments. -/
theorem Lenient.exists_gaps_of_gapLength (t : Text) :
    ∃ (gaps : List Text) (rest : Text), (∀ g ∈ gaps, Gap g) ∧ t = gaps.flatten ++ rest ∧
      gaps.flatten.length = Lenient.gapLength t := by
  unfold Lenient.gapLength
  split
  · next rest =>
    -- a line comment reaches up to the line feed
    obtain ⟨body, rest, rfl, hlength, hbody, -⟩ := Text.exists_run (· ≠ Text.newline) rest
    refine ⟨[scalar '/' :: scalar '/' :: body], rest, ?_, by simp, by simpa using hlength⟩
    rw [List.forall_mem_singleton]
    exact .line body fun hmem => by simpa using hbody _ hmem
  · next rest =>
    split
    · exact ⟨[], _, by simp, rfl, rfl⟩
    · next n hn =>
      obtain ⟨body, rest, rfl, rfl, hbody⟩ := Lenient.exists_of_blockLength? hn
      refine ⟨[scalar '/' :: scalar '*' :: (body ++ [scalar '*', scalar '/'])], rest, ?_, by simp,
        by simp⟩
      rw [List.forall_mem_singleton]
      exact .block body hbody
  · -- anything else that is skipped is a run of blanks
    obtain ⟨blanks, rest, rfl, hlength, hblanks, -⟩ := Text.exists_run CodePoint.isBlank t
    refine ⟨blanks.map fun c => [c], rest, ?_, ?_, ?_⟩
    · intro g hg
      obtain ⟨c, hc, rfl⟩ := List.mem_map.mp hg
      exact .blank c (hblanks c hc)
    · rw [← List.flatMap_def, List.flatMap_singleton']
    · rw [← List.flatMap_def, List.flatMap_singleton', hlength]

/-! ## Cutting -/

namespace Lenient

/-- A token is cut off in front of the rest of a text. -/
def CutsOff (t : Token) (rest : Text) : Prop :=
  ∃ c u, t.text = c :: u ∧ gapLength (c :: (u ++ rest)) = 0 ∧
    tokenAt? c (u ++ rest) = some (t.kind, u.length)

/-- The text whose first code point has the given offset is cut into these tokens. -/
inductive Cut : Nat → Text → List Token → Prop where
  | nil (offset : Nat) : Cut offset [] []
  | gap {offset : Nat} {c : CodePoint} {u rest : Text} {ts : List Token}
      (hgap : gapLength (c :: (u ++ rest)) = u.length + 1)
      (h : Cut (offset + (c :: u).length) rest ts) : Cut offset (c :: (u ++ rest)) ts
  | token {t : Token} {rest : Text} {ts : List Token} (ht : CutsOff t rest)
      (h : Cut (t.offset + t.text.length) rest ts) : Cut t.offset (t.text ++ rest) (t :: ts)

variable {offset : Nat} {text rest : Text} {t u : Token} {ts before after : List Token}

theorem gapLength_le (text : Text) : gapLength text ≤ text.length := by
  obtain ⟨gaps, rest, -, heq, hlength⟩ := exists_gaps_of_gapLength text
  rw [← hlength, congrArg List.length heq, List.length_append]
  exact Nat.le_add_right _ _

/-- This is how the tokens of a text come about. -/
theorem cut_of_lexFrom (h : lexFrom offset text = .ok ts) : Cut offset text ts := by
  fun_induction lexFrom offset text generalizing ts with
  | case1 offset =>
    obtain rfl := Except.ok.inj h
    exact .nil offset
  | case2 offset c rest n hgap ih =>
    -- what is skipped is at least one code point long
    have hle := gapLength_le (c :: rest)
    rw [hgap, List.length_cons] at hle
    have hn : (rest.take n).length = n := List.length_take_of_le (Nat.le_of_succ_le_succ hle)
    have hrest := ih h
    rw [Nat.add_assoc, Nat.add_comm 1] at hrest
    have hcut : Cut offset (c :: (rest.take n ++ rest.drop n)) ts :=
      .gap (by rw [List.take_append_drop, hgap, hn]) (by rwa [List.length_cons, hn])
    rwa [List.take_append_drop] at hcut
  | case3 => contradiction
  | case4 offset c rest hgap kind n htoken ih =>
    have hn : (rest.take n).length = n := List.length_take_of_le (tokenAt?_le htoken)
    cases hrest : lexFrom (offset + 1 + n) (rest.drop n) with
    | error f => rw [hrest] at h; contradiction
    | ok us =>
      rw [hrest] at h
      obtain rfl := Except.ok.inj h
      have hrest := ih hrest
      rw [Nat.add_assoc, Nat.add_comm 1] at hrest
      have hcut : Cut offset (c :: rest.take n ++ rest.drop n)
          (⟨kind, c :: rest.take n, offset⟩ :: us) :=
        .token (t := ⟨kind, c :: rest.take n, offset⟩)
          ⟨c, rest.take n, rfl, by rwa [List.take_append_drop], by
            rw [List.take_append_drop, hn, htoken]⟩
          (by rwa [List.length_cons, hn])
      rwa [List.cons_append, List.take_append_drop] at hcut

/-- What stands in front of the first token is a list of blanks and comments. -/
theorem Cut.head (h : Cut offset text (t :: ts)) :
    ∃ (gaps : List Text) (rest : Text), (∀ g ∈ gaps, Gap g) ∧
      text = gaps.flatten ++ (t.text ++ rest) ∧ t.offset = offset + gaps.flatten.length ∧
      CutsOff t rest ∧ Cut (t.offset + t.text.length) rest ts := by
  -- the induction is on the cut, each gap of which comes in front
  generalize hts : t :: ts = us at h
  induction h with
  | nil => contradiction
  | token ht h =>
    obtain ⟨rfl, rfl⟩ := List.cons.inj hts
    exact ⟨[], _, by simp, rfl, rfl, ht, h⟩
  | @gap offset c u rest ts hgap h ih =>
    obtain ⟨gaps, rest', hgaps, rfl, hoffset, hcut⟩ := ih hts
    obtain ⟨front, back, hfront, heq, hlength⟩ :=
      exists_gaps_of_gapLength (c :: (u ++ (gaps.flatten ++ (t.text ++ rest'))))
    rw [hgap] at hlength
    -- both ways to split the text cut off a front of the same length
    rw [← List.cons_append] at heq
    obtain ⟨hhead, hrest⟩ := List.append_inj heq hlength.symm
    refine ⟨front ++ gaps, rest', ?_, ?_, ?_, hcut⟩
    · exact List.forall_mem_append.mpr ⟨hfront, hgaps⟩
    · rw [List.flatten_append, ← hhead, List.append_assoc, List.cons_append]
    · rw [hoffset, List.flatten_append, ← hhead, List.length_append, Nat.add_assoc]

/-- The tokens from some token on are those of the text from its place on. What holds of a text and
of whatever is left of it holds there. -/
theorem Cut.split {P : Text → Prop}
    (hgap : ∀ {c : CodePoint} {u rest : Text}, gapLength (c :: (u ++ rest)) = u.length + 1 →
      P (c :: (u ++ rest)) → P rest)
    (htoken : ∀ {t : Token} {rest : Text}, CutsOff t rest → P (t.text ++ rest) → P rest)
    (h : Cut offset text (before ++ t :: after)) (htext : P text) :
    ∃ front rest : Text, text = front ++ (t.text ++ rest) ∧ t.offset = offset + front.length ∧
      CutsOff t rest ∧ Cut (t.offset + t.text.length) rest after ∧ P (t.text ++ rest) := by
  generalize hts : before ++ t :: after = ts at h
  induction h generalizing before with
  | nil => simp at hts
  | @gap offset c u rest ts hlength h ih =>
    obtain ⟨front, rest', rfl, hoffset, hcut⟩ := ih (hgap hlength htext) hts
    refine ⟨c :: u ++ front, rest', by simp, ?_, hcut⟩
    rw [hoffset, List.length_append, Nat.add_assoc]
  | @token b rest ts hb h ih =>
    -- the token is the first one, or the first one stands before it
    cases before with
    | nil =>
      obtain ⟨rfl, rfl⟩ := List.cons.inj hts
      exact ⟨[], rest, rfl, rfl, hb, h, htext⟩
    | cons d before =>
      obtain ⟨front, rest', rfl, hoffset, hcut⟩ := ih (htoken hb htext) (List.cons.inj hts).2
      refine ⟨b.text ++ front, rest', by simp, ?_, hcut⟩
      rw [hoffset, List.length_append, Nat.add_assoc]

end Lenient

end Dialects.Json
