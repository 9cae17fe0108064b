import Mathlib.Data.List.Basic
import Dialects.Proofs.Script.Marked
import Dialects.Script.Canonical

/-!
# Cutting the lenient text again

A semicolon may keep an operator from a comment behind it, so that the two are read otherwise when
it is left out. If none does that (`unglued`), each token that is left is read as before, but for
blank space that goes on behind it (`first_remaining`). Where moreover every semicolon that is left
out stands directly behind a token that can end a statement (`Fit`), the lenient text is cut into
the tokens that are left (`Lexed.remaining`).
-/

namespace Dialects.Script

open CodePoint (scalar)

variable {s s' : LexState} {t u : Token} {ts : List Token} {ms : List (Token × Bool)}

/-! ## The first semicolon that is left out -/

/-- The text in front of the first token that is left out. -/
def stem : List (Token × Bool) → Text
  | (t, false) :: ms => t.value ++ stem ms
  | _ => []

/-- The tokens from the first one on that is left out. -/
def behind : List (Token × Bool) → List (Token × Bool)
  | (_, false) :: ms => behind ms
  | ms => ms

/-- A token that is kept belongs to the stem. -/
@[simp]
theorem stem_kept (t : Token) (ms : List (Token × Bool)) :
    stem ((t, false) :: ms) = t.value ++ stem ms := rfl

@[simp]
theorem stem_dropped (t : Token) (ms : List (Token × Bool)) : stem ((t, true) :: ms) = [] := rfl

/-- Behind the stem there is nothing or a token that is left out. -/
theorem behind_cases (ms : List (Token × Bool)) :
    behind ms = [] ∨ ∃ t ms', behind ms = (t, true) :: ms' := by
  induction ms with
  | nil => exact Or.inl rfl
  | cons p ms ih =>
    obtain ⟨t, dropped⟩ := p
    cases dropped with
    | true => exact Or.inr ⟨t, ms, rfl⟩
    | false => exact ih

/-- All tokens spell the stem and what is behind it. -/
theorem join_whole (ms : List (Token × Bool)) :
    Token.join (whole ms) = stem ms ++ Token.join (whole (behind ms)) := by
  induction ms with
  | nil => rfl
  | cons p ms ih =>
    obtain ⟨t, dropped⟩ := p
    cases dropped with
    | true => rfl
    | false => rw [whole_cons, join_cons, ih, stem_kept, behind, List.append_assoc]

/-- The remaining tokens spell the stem and what remains behind it. -/
theorem join_remaining (ms : List (Token × Bool)) :
    Token.join (remaining ms) = stem ms ++ Token.join (remaining (behind ms)) := by
  induction ms with
  | nil => rfl
  | cons p ms ih =>
    obtain ⟨t, dropped⟩ := p
    cases dropped with
    | true => rfl
    | false => rw [remaining_kept, join_cons, ih, stem_kept, behind, List.append_assoc]

/-- What is behind the stem is read in some state. -/
theorem lexed_behind (h : Lexed s (whole ms)) : ∃ s₁, Lexed s₁ (whole (behind ms)) := by
  induction ms generalizing s with
  | nil => exact ⟨s, h⟩
  | cons p ms ih =>
    obtain ⟨t, dropped⟩ := p
    cases dropped with
    | true => exact ⟨s, h⟩
    | false =>
      obtain ⟨a, -, -, -, rest⟩ := h.split
      exact ih rest

/-- Behind the stem only semicolons at the ends of lines are left out. -/
theorem sound_behind (h : Sound ms) : Sound (behind ms) := by
  induction ms with
  | nil => exact h
  | cons p ms ih =>
    obtain ⟨t, dropped⟩ := p
    cases dropped with
    | true => exact h
    | false => exact ih h.2

/-- Behind the stem there is a semicolon to be left out, or nothing. -/
theorem behind_split (h : Lexed s (whole ms)) (hsound : Sound ms) :
    behind ms = [] ∨ (∃ r, Token.join (whole (behind ms)) = scalar ';' :: r) ∧
      Gap (Token.join (remaining (behind ms))) := by
  obtain hnil | ⟨t, ms', heq⟩ := behind_cases ms
  · exact Or.inl hnil
  · right
    obtain ⟨s₁, hlexed⟩ := lexed_behind h
    have hbehind := sound_behind hsound
    rw [heq] at hlexed hbehind ⊢
    obtain ⟨-, hvalue⟩ := isSemicolon_iff.mp (hbehind.1 rfl).1
    have hgap : Gap (Token.join (remaining ms')) := gap_of_dropped hlexed hbehind
    refine ⟨⟨Token.join (whole ms'), ?_⟩, hgap⟩
    show t.value ++ _ = _
    rw [hvalue]
    rfl

/-! ## What semicolons keep apart -/

/-- The ends of operators and the beginnings of comments that are read together. -/
def joints : List (Char × Char) := [('/', '/'), ('*', '/'), ('<', '<')]

/-- Whether an operator and a comment are read otherwise if one stands directly behind the other. -/
def glues (t w : Token) : Bool :=
  t.kind == .operator && w.kind == .comment && joints.any fun p =>
    t.value.getLast? == some (scalar p.1) && w.value.head? == some (scalar p.2)

/-- Whether the token directly behind `t` is left out and keeps it from a comment that goes with
it. -/
def keepsApart (t : Token) : List (Token × Bool) → Bool
  | (_, true) :: (w, false) :: _ => glues t w
  | _ => false

/-- No token that is left out stands directly between an operator and a comment that are read
otherwise without it. -/
def unglued : List (Token × Bool) → Bool
  | [] => true
  | (t, _) :: ms => !keepsApart t ms && unglued ms

/-- Tokens that are not glued together are not behind the first one either. -/
theorem unglued_tail {m : Token × Bool} (h : unglued (m :: ms) = true) : unglued ms = true := by
  rw [unglued, Bool.and_eq_true] at h
  exact h.2

/-- Tokens that are not glued together are not behind the stem either. -/
theorem unglued_behind (h : unglued ms = true) : unglued (behind ms) = true := by
  induction ms with
  | nil => exact h
  | cons m ms ih =>
    obtain ⟨t, dropped⟩ := m
    cases dropped with
    | true => exact h
    | false => exact ih (unglued_tail h)

/-- A token in front of a semicolon that ends with an asterisk is an operator. -/
theorem operator_of_star {a : Step} {x rest : Text}
    (hfirst : Step.first? s (x ++ scalar ';' :: rest) = some a)
    (hlength : x.length = a.length - 1 + 1) (hstar : x.getLast? = some (scalar '*'))
    (hmode : a.mode ≠ .template) : a.kind = .operator := by
  obtain ⟨z, rfl⟩ := List.getLast?_eq_some_iff.mp hstar
  rw [List.length_append, List.length_singleton] at hlength
  cases z with
  | nil =>
    refine kind_of_single hfirst ?_ (Or.inr (Or.inr rfl))
    rw [List.length_nil] at hlength
    rw [List.nil_append, List.length_singleton]
    omega
  | cons c z =>
    rw [List.append_assoc] at hfirst
    refine kind_of_star hfirst ?_ hmode
    rw [List.length_cons] at hlength ⊢
    omega

/-- What comes behind a semicolon that is left out does not go with an operator in front of it. -/
theorem head_ne_of_unglued (hlexed : Lexed s (whole ((t, false) :: (u, true) :: ms)))
    (hsound : Sound ((t, false) :: (u, true) :: ms))
    (hunglued : unglued ((t, false) :: (u, true) :: ms) = true) (hkind : t.kind = .operator)
    {p : Char × Char} (hp : p ∈ joints) (hlast : t.value.getLast? = some (scalar p.1)) :
    (Token.join (remaining ms)).head? ≠ some (scalar p.2) := by
  intro hhead
  obtain ⟨_, -, -, -, hrest⟩ := hlexed.split
  obtain ⟨hsemicolon, hends, -⟩ := hsound.2.1 rfl
  obtain ⟨-, hlexed'⟩ := hrest.of_semicolon hsemicolon
  match ms with
  | [] => contradiction
  | (w, dropped) :: ms =>
    obtain rfl := kept_of_lineEnds hsound.2.2 hends
    obtain ⟨a, -, -, length, -⟩ := hlexed'.split
    obtain ⟨c, value, hvalue⟩ := List.exists_cons_of_ne_nil (ne_nil_of_length length)
    rw [remaining_kept, join_cons, hvalue] at hhead
    obtain rfl := Option.some.inj hhead
    have hmark : (scalar p.2).isBlank = false := by
      have hmarks : ∀ p ∈ joints, (scalar p.2).isBlank = false := by decide
      exact hmarks p hp
    -- The next token starts with the second code point of the joint, so that it is no blank space.
    have hcomment : w.kind = .comment := by
      obtain hblank | hcomment := insignificant_iff.mp (insignificant_of_lineEnds hends)
      · rw [hvalue] at hblank
        rw [List.all_eq_true.mp hblank _ List.mem_cons_self] at hmark
        contradiction
      · exact hcomment
    have hglues : glues t w = true := by
      rw [glues, hkind, hcomment, hlast, hvalue]
      simp only [beq_self_eq_true, Bool.true_and]
      exact List.any_eq_true.mpr ⟨p, hp, by simp⟩
    rw [unglued, keepsApart, hglues] at hunglued
    contradiction

/-- The token in front of a semicolon that is left out does not end with an asterisk if a slash
comes behind. -/
theorem getLast_ne_star (hlexed : Lexed s (whole ((t, false) :: (u, true) :: ms)))
    (hsound : Sound ((t, false) :: (u, true) :: ms))
    (hunglued : unglued ((t, false) :: (u, true) :: ms) = true)
    (hslash : (Token.join (remaining ms)).head? = some (scalar '/')) :
    t.value.getLast? ≠ some (scalar '*') := by
  intro hstar
  obtain ⟨a, first, kind, length, rest⟩ := hlexed.split
  have hsemicolon := (hsound.2.1 rfl).1
  obtain ⟨-, hvalue⟩ := isSemicolon_iff.mp hsemicolon
  obtain ⟨⟨b, hcode⟩, -⟩ := rest.of_semicolon hsemicolon
  rw [whole_cons, join_cons, hvalue] at first
  have hmode : a.mode ≠ .template := fun hmode => by
    rw [Step.after, hmode] at hcode
    contradiction
  have hoperator : t.kind = .operator := kind.trans (operator_of_star first length hstar hmode)
  exact head_ne_of_unglued hlexed hsound hunglued hoperator (p := ('*', '/')) (by decide) hstar
    hslash

/-- No asterisk comes in front of what is left out if a slash comes behind. -/
theorem getLast_stem (hlexed : Lexed s (whole ms)) (hsound : Sound ms)
    (hunglued : unglued ms = true)
    (hslash : (Token.join (remaining (behind ms))).head? = some (scalar '/')) :
    (stem ms).getLast? ≠ some (scalar '*') := by
  induction ms generalizing s with
  | nil => exact fun hstar => by contradiction
  | cons m ms ih =>
    obtain ⟨t, dropped⟩ := m
    cases dropped with
    | true => exact fun hstar => by contradiction
    | false =>
      obtain ⟨a, -, -, -, rest⟩ := hlexed.split
      rw [stem_kept]
      match ms with
      | [] => contradiction
      | (u, true) :: ms =>
        rw [stem_dropped, List.append_nil]
        -- The token in front of the semicolon is the last one of the stem.
        exact getLast_ne_star hlexed hsound hunglued hslash
      | (u, false) :: ms =>
        obtain ⟨_, -, -, length, -⟩ := rest.split
        have hne : stem ((u, false) :: ms) ≠ [] :=
          List.append_ne_nil_of_left_ne_nil (ne_nil_of_length length) _
        rw [List.getLast?_append_of_ne_nil _ hne]
        exact ih rest hsound.2 (unglued_tail hunglued) hslash

/-- Two code points in a row do not come from both sides of a place if the first one is not in front
of it or the second one is not behind it. -/
theorem infix_append {c d : CodePoint} {x y : Text} (h : [c, d] <:+: x ++ y)
    (hx : y.head? = some d → x.getLast? ≠ some c) : [c, d] <:+: x ∨ [c, d] <:+: y := by
  induction x with
  | nil => exact Or.inr h
  | cons e x ih =>
    rw [List.cons_append, List.infix_cons_iff] at h
    obtain hhead | hrest := h
    · -- The two code points stand at the front: they belong together unless the first is all of
      -- `x`.
      obtain ⟨rfl, htail⟩ := List.cons_prefix_cons.mp hhead
      cases x with
      | nil =>
        obtain ⟨v, rfl⟩ := htail
        exact absurd rfl (hx rfl)
      | cons f x =>
        obtain ⟨rfl, -⟩ := List.cons_prefix_cons.mp htail
        exact Or.inl ⟨[], x, rfl⟩
    · have hlast : y.head? = some d → x.getLast? ≠ some c := by
        cases x with
        | nil => exact fun _ heq => by contradiction
        | cons f x =>
          rw [List.getLast?_cons_cons] at hx
          exact hx
      obtain hleft | hright := ih hrest hlast
      · exact Or.inl (List.infix_cons_iff.mpr (Or.inr hleft))
      · exact Or.inr hright

/-- Leaving out semicolons closes no comment, unless an asterisk comes in front. -/
theorem infix_of_remaining (hlexed : Lexed s (whole ms)) (hsound : Sound ms)
    (hunglued : unglued ms = true) {p : Text}
    (hp : ∀ u ms', ms = (u, true) :: ms' →
      (Token.join (remaining ms')).head? = some (scalar '/') → p.getLast? ≠ some (scalar '*'))
    (h : [scalar '*', scalar '/'] <:+: p ++ Token.join (remaining ms)) :
    [scalar '*', scalar '/'] <:+: p ++ Token.join (whole ms) := by
  induction ms generalizing s p with
  | nil => exact h
  | cons m ms ih =>
    obtain ⟨t, dropped⟩ := m
    obtain ⟨a, -, -, length, rest⟩ := hlexed.split
    rw [whole_cons, join_cons]
    cases dropped with
    | true =>
      rw [remaining_dropped] at h
      -- The semicolon is left out, so that the place is where it stood.
      obtain hleft | hright := infix_append h (hp t ms rfl)
      · exact hleft.trans (List.infix_append [] _ _)
      · have hnone : ∀ u ms', ms = (u, true) :: ms' →
            (Token.join (remaining ms')).head? = some (scalar '/') →
              ([] : Text).getLast? ≠ some (scalar '*') := fun _ _ _ _ hstar => by contradiction
        have hwhole := ih rest hsound.2 (unglued_tail hunglued) hnone hright
        refine hwhole.trans ⟨p ++ t.value, [], ?_⟩
        simp only [List.nil_append, List.append_assoc, List.append_nil]
    | false =>
      rw [remaining_kept, join_cons, ← List.append_assoc] at h
      rw [← List.append_assoc]
      refine ih rest hsound.2 (unglued_tail hunglued) ?_ h
      rintro u ms' rfl hslash
      rw [List.getLast?_append_of_ne_nil _ (ne_nil_of_length length)]
      exact getLast_ne_star hlexed hsound hunglued hslash

/-! ## The first token that is left -/

/-- A token that stands alone in front of what is left out stands directly there. -/
theorem behind_of_stem (hlexed : Lexed s (whole ((t, false) :: ms)))
    (hbehind : behind ms ≠ []) {c : CodePoint} (hstem : stem ((t, false) :: ms) = [c]) :
    t.value = [c] ∧ ∃ u ms', ms = (u, true) :: ms' := by
  obtain ⟨a, -, -, length, rest⟩ := hlexed.split
  obtain ⟨d, value, hvalue⟩ := List.exists_cons_of_ne_nil (ne_nil_of_length length)
  rw [stem_kept, hvalue, List.cons_append] at hstem
  obtain ⟨rfl, hrest⟩ := List.cons.inj hstem
  obtain ⟨rfl, hnil⟩ := List.append_eq_nil_iff.mp hrest
  refine ⟨hvalue, ?_⟩
  match ms with
  | [] => exact absurd rfl hbehind
  | (u, true) :: ms => exact ⟨u, ms, rfl⟩
  | (u, false) :: ms =>
    obtain ⟨_, -, -, length', -⟩ := rest.split
    exact absurd (List.append_eq_nil_iff.mp hnil).1 (ne_nil_of_length length')

/-- What is left in front of a semicolon that is left out and what is left behind it do not make one
token. -/
theorem apart_of_unglued {a : Step} {r : Text} (hlexed : Lexed s (whole ((t, false) :: ms)))
    (hsound : Sound ((t, false) :: ms)) (hunglued : unglued ((t, false) :: ms) = true)
    (hr : Token.join (whole (behind ms)) = scalar ';' :: r)
    (hfirst : Step.first? s' (stem ((t, false) :: ms) ++ scalar ';' :: r) = some a)
    (hkind : t.kind = a.kind) (hle : a.length ≤ (stem ((t, false) :: ms)).length)
    (hblank : ∀ c ∈ (Token.join (remaining (behind ms))).head?, c.isBlank = true →
      ∃ d ∈ stem ((t, false) :: ms), d.isBlank = false) :
    Apart (stem ((t, false) :: ms)) r (Token.join (remaining (behind ms))) := by
  have hbehind : behind ms ≠ [] := fun hnil => by
    rw [hnil] at hr
    contradiction
  have hgap : Gap (Token.join (remaining (behind ms))) := by
    obtain ⟨_, -, -, -, rest⟩ := hlexed.split
    obtain hnil | ⟨-, hgap⟩ := behind_split rest hsound.2
    · exact absurd hnil hbehind
    · exact hgap
  -- An operator alone in front of the semicolon would go with the comment behind it.
  have halone {c : Char} (hc : (c, c) ∈ joints)
      (hsingle : [scalar c] = [scalar '<'] ∨ [scalar c] = [scalar '/'] ∨
        [scalar c] = [scalar '*'])
      (hhead : (Token.join (remaining (behind ms))).head? = some (scalar c)) :
      stem ((t, false) :: ms) ≠ [scalar c] := by
    intro hstem
    obtain ⟨hvalue, u, ms', rfl⟩ := behind_of_stem hlexed hbehind hstem
    rw [hstem] at hfirst hle
    have hoperator : t.kind = .operator := hkind.trans (kind_of_single hfirst hle hsingle)
    refine head_ne_of_unglued hlexed hsound hunglued hoperator hc ?_ hhead
    rw [hvalue]
    rfl
  have hne : stem ((t, false) :: ms) ≠ [] := by
    obtain ⟨_, -, -, length, -⟩ := hlexed.split
    exact List.append_ne_nil_of_left_ne_nil (ne_nil_of_length length) _
  refine ⟨hne, hgap, hblank, halone (by decide) (Or.inl rfl),
    halone (by decide) (Or.inr (Or.inl rfl)), fun v hv hclosed => ?_⟩
  have hlast : (Token.join (remaining (behind ms))).head? = some (scalar '/') →
      v.getLast? ≠ some (scalar '*') := by
    intro hslash
    have hstem := getLast_stem hlexed hsound hunglued hslash
    cases v with
    | nil => exact fun heq => by contradiction
    | cons c v =>
      rw [hv, List.getLast?_cons_cons, List.getLast?_cons_cons] at hstem
      exact hstem
  rw [blockLength_isSome] at hclosed ⊢
  obtain hleft | hright := infix_append hclosed hlast
  · exact hleft.trans (List.infix_append [] v _)
  · obtain ⟨s₁, hlexed₁⟩ := lexed_behind hlexed
    have hwhole := infix_of_remaining hlexed₁ (sound_behind hsound) (unglued_behind hunglued)
      (p := []) (fun _ _ _ _ hstar => by contradiction) hright
    have hr' : Token.join (whole (behind ((t, false) :: ms))) = scalar ';' :: r := hr
    rw [List.nil_append, hr'] at hwhole
    exact hwhole.trans ⟨v, [], List.append_nil _⟩

/-- The first token that is left is read as before, unless blank space goes on behind it. -/
theorem first_remaining {a : Step} (hlexed : Lexed s (whole ((t, false) :: ms)))
    (hsound : Sound ((t, false) :: ms)) (hunglued : unglued ((t, false) :: ms) = true)
    (hfirst : Step.first? s' (t.value ++ Token.join (whole ms)) = some a) (hkind : t.kind = a.kind)
    (hlength : t.value.length = a.length - 1 + 1)
    (hblank : ∀ c ∈ (Token.join (remaining (behind ms))).head?, c.isBlank = true →
      ∃ d ∈ stem ((t, false) :: ms), d.isBlank = false) :
    Step.first? s' (t.value ++ Token.join (remaining ms)) = some a := by
  have hwhole : t.value ++ Token.join (whole ms)
      = stem ((t, false) :: ms) ++ Token.join (whole (behind ms)) := join_whole ((t, false) :: ms)
  have hremaining : t.value ++ Token.join (remaining ms)
      = stem ((t, false) :: ms) ++ Token.join (remaining (behind ms)) :=
    join_remaining ((t, false) :: ms)
  obtain ⟨_, -, -, -, rest⟩ := hlexed.split
  obtain hnil | ⟨⟨r, hr⟩, -⟩ := behind_split rest hsound.2
  · rw [hwhole, hnil] at hfirst
    rw [hremaining, hnil]
    exact hfirst
  · rw [hwhole, hr] at hfirst
    have hle : a.length ≤ (stem ((t, false) :: ms)).length := by
      rw [stem_kept, List.length_append]
      omega
    rw [hremaining]
    exact first_unchanged hfirst hle
      (apart_of_unglued hlexed hsound hunglued hr hfirst hkind hle hblank)

/-! ## Where semicolons may be left out -/

/-- Every token that is left out stands directly behind one that can end a statement. -/
inductive Fit : List (Token × Bool) → Prop
  | nil : Fit []
  | kept {t : Token} {ms : List (Token × Bool)} : Fit ms → Fit ((t, false) :: ms)
  | dropped {t u : Token} {ms : List (Token × Bool)} (significant : t.isSignificant = true)
      (complete : Canonical.awaitsOperand t = false) :
      Fit ms → Fit ((t, false) :: (u, true) :: ms)

/-- Something that is not blank stands in front of what is left out. -/
theorem Fit.exists_stem (h : Fit ms) (hbehind : behind ms ≠ []) :
    ∃ c ∈ stem ms, c.isBlank = false := by
  induction h with
  | nil => exact absurd rfl hbehind
  | kept _ ih =>
    obtain ⟨c, hc, hblank⟩ := ih hbehind
    exact ⟨c, List.mem_append_right _ hc, hblank⟩
  | @dropped t u ms significant _ _ _ =>
    have hvalue : Text.isBlank t.value = false := by
      refine Bool.eq_false_iff.mpr fun hblank => ?_
      rw [insignificant_iff.mpr (Or.inl hblank)] at significant
      contradiction
    obtain ⟨c, hc, hblank⟩ := List.all_eq_false.mp hvalue
    exact ⟨c, List.mem_append_left _ hc, Bool.eq_false_iff.mpr hblank⟩

/-- An operator awaits an operand unless it is one behind its operand. -/
theorem awaitsOperand_of_operator (hkind : t.kind = .operator)
    (hvalue : t.value ∉ Canonical.postfixOperators) : Canonical.awaitsOperand t = true := by
  rw [Canonical.awaitsOperand, hkind, Bool.and_eq_true]
  refine ⟨rfl, ?_⟩
  rw [Bool.not_eq_true', Bool.eq_false_iff]
  exact fun hmem => hvalue (List.contains_iff_mem.mp hmem)

/-- An operator that can end a statement goes with no comment. -/
theorem glues_of_complete (hcomplete : Canonical.awaitsOperand t = false) (w : Token) :
    glues t w = false := by
  refine Bool.eq_false_iff.mpr fun hglues => ?_
  simp only [glues, Bool.and_eq_true, beq_iff_eq, List.any_eq_true] at hglues
  obtain ⟨⟨hkind, -⟩, p, hp, hlast, -⟩ := hglues
  rw [awaitsOperand_of_operator hkind fun hmem => ?_] at hcomplete
  · contradiction
  · -- no operator of these ends with what a comment would go on with
    have hnone : ∀ v ∈ Canonical.postfixOperators, ∀ p ∈ joints,
        v.getLast? ≠ some (scalar p.1) := by decide
    exact hnone t.value hmem p hp hlast

/-- Tokens that fit are not glued together. -/
theorem Fit.unglued (h : Fit ms) : unglued ms = true := by
  have hcons {t : Token} {ms : List (Token × Bool)} (hapart : keepsApart t ms = false)
      (hms : Script.unglued ms = true) {dropped : Bool} :
      Script.unglued ((t, dropped) :: ms) = true := by
    rw [Script.unglued, hapart, hms]
    rfl
  -- A fitting list does not start with a token that is left out.
  have hkept {t : Token} {ms : List (Token × Bool)} (hfit : Fit ms) : keepsApart t ms = false := by
    cases hfit with
    | nil => rfl
    | kept => rfl
    | dropped => rfl
  induction h with
  | nil => rfl
  | kept hfit ih => exact hcons (hkept hfit) ih
  | @dropped t u ms significant complete hfit ih =>
    refine hcons ?_ (hcons (hkept hfit) ih)
    match ms with
    | [] => rfl
    | (w, true) :: ms => rfl
    | (w, false) :: ms => exact glues_of_complete complete w

/-- Where semicolons may be left out, the tokens that are left are read again. -/
theorem Lexed.remaining (h : Lexed s (whole ms)) (hsound : Sound ms) (hfit : Fit ms)
    (hfollows : Follows s s' (whole ms)) : Lexed s' (remaining ms) := by
  -- The state `s` is that of the lexer in the script, `s'` that of the lexer in what is left.
  have hstem {t : Token} {ms : List (Token × Bool)} (hfit : Fit ((t, false) :: ms)) :
      ∀ c ∈ (Token.join (Script.remaining (behind ms))).head?, c.isBlank = true →
        ∃ d ∈ stem ((t, false) :: ms), d.isBlank = false := by
    intro c hc _
    refine hfit.exists_stem fun hnil => ?_
    rw [show behind ms = [] from hnil] at hc
    contradiction
  induction hfit generalizing s s' with
  | nil => exact .nil
  | @kept t ms hfit ih =>
    obtain ⟨a, first, kind, length, rest⟩ := h.split
    obtain ⟨a', hfirst, hkind, hlength, -, hnext⟩ := hfollows.first first kind length
    rw [← hkind] at kind
    rw [← hlength] at length
    have hfirst' := first_remaining h hsound hfit.kept.unglued hfirst kind length (hstem hfit.kept)
    exact .cons hfirst' kind length (ih rest hsound.2 hnext)
  | @dropped t u ms significant complete hfit ih =>
    obtain ⟨a, first, kind, length, rest⟩ := h.split
    obtain ⟨a', hfirst, hkind, hlength, hsame, hnext⟩ := hfollows.first first kind length
    rw [← hkind] at kind
    rw [← hlength] at length
    have hfit' : Fit ((t, false) :: (u, true) :: ms) := .dropped significant complete hfit
    have hfirst' := first_remaining h hsound hfit'.unglued hfirst kind length (hstem hfit')
    -- The token is significant, so that both are in the same state until the semicolon is missed.
    obtain rfl := hsame significant
    obtain ⟨-, hlexed⟩ := rest.of_semicolon (hsound.2.1 rfl).1
    have hadrift := adrift_of_dropped rest hsound.2 (Or.inl rfl)
      (getLast_ne_none (ne_nil_of_length length))
    exact .cons hfirst' kind length (ih hlexed hsound.2.2 (Or.inr hadrift))

end Dialects.Script
