import Dialects.Proofs.Script.Supplied

/-!
# Scripts whose brackets match

Whether the brackets of a script match depends neither on the places of its tokens nor on its
semicolons, so that it is the same in both dialects.
-/

namespace Dialects.Script

variable {t : Token} {ts us : List Token} {ms : List (Token × Bool)} {b : Bracket}
  {pending pending' : List (Nat × Bracket)}

theorem tokens_eq_ok {script : Text} {ts : List Token} :
    tokens script = .ok ts ↔ lex script = .ok ts ∧ checkBrackets [] ts = .ok () := by
  constructor
  · intro h
    rw [tokens] at h
    split at h
    · contradiction
    · next us hlex =>
      split at h
      · contradiction
      · next hbrackets =>
        obtain rfl := Except.ok.inj h
        exact ⟨hlex, hbrackets⟩
  · rintro ⟨hlex, hbrackets⟩
    simp only [tokens, hlex, hbrackets]

theorem checkBrackets_opener (hopens : t.opens? = some b) :
    checkBrackets pending (t :: ts) = checkBrackets ((t.offset, b) :: pending) ts := by
  rw [checkBrackets, hopens]

theorem checkBrackets_other (hopens : t.opens? = none) (hcloses : t.closes? = none) :
    checkBrackets pending (t :: ts) = checkBrackets pending ts := by
  rw [checkBrackets, hopens, hcloses]

/-- A bracket that closes was opened last. -/
theorem checkBrackets_closer (hopens : t.opens? = none) (hcloses : t.closes? = some b) :
    checkBrackets pending (t :: ts) = .ok () ↔
      ∃ o outer, pending = (o, b) :: outer ∧ checkBrackets outer ts = .ok () := by
  rw [checkBrackets, hopens, hcloses]
  cases pending with
  | nil => simp
  | cons p outer =>
    obtain ⟨o, b'⟩ := p
    by_cases heq : b = b'
    · subst heq
      simp only [if_true]
      constructor
      · exact fun hrest => ⟨o, outer, rfl, hrest⟩
      · rintro ⟨o', outer', heq, hrest⟩
        obtain rfl := (List.cons.inj heq).2
        exact hrest
    · simp [heq, Ne.symm heq]

/-- Whether a token opens or closes a bracket. -/
def Token.isBracket (t : Token) : Bool := t.opens?.isSome || t.closes?.isSome

/-- Only the brackets are looked at. -/
theorem checkBrackets_filter (pending : List (Nat × Bracket)) (ts : List Token) :
    checkBrackets pending (ts.filter Token.isBracket) = checkBrackets pending ts := by
  induction ts generalizing pending with
  | nil => rfl
  | cons t ts ih =>
    cases hbracket : t.isBracket with
    | true =>
      rw [List.filter_cons_of_pos hbracket, checkBrackets, checkBrackets]
      simp only [ih]
    | false =>
      rw [Token.isBracket, Bool.or_eq_false_iff, Option.isSome_eq_false_iff,
        Option.isSome_eq_false_iff, Option.isNone_iff_eq_none,
        Option.isNone_iff_eq_none] at hbracket
      rw [List.filter_cons_of_neg (by rw [Token.isBracket, hbracket.1, hbracket.2]; decide), ih,
        checkBrackets_other hbracket.1 hbracket.2]

/-- The places of the tokens, and of the brackets that are open, are of no account. -/
theorem checkBrackets_congr (hbare : ts.map Token.bare = us.map Token.bare)
    (hpending : pending.map Prod.snd = pending'.map Prod.snd)
    (h : checkBrackets pending ts = .ok ()) : checkBrackets pending' us = .ok () := by
  induction ts generalizing pending pending' us with
  | nil =>
    obtain rfl := List.map_eq_nil_iff.mp hbare.symm
    cases pending with
    | nil =>
      obtain rfl := List.map_eq_nil_iff.mp hpending.symm
      rfl
    | cons p pending => contradiction
  | cons t ts ih =>
    obtain ⟨u, us, rfl, hu, hus⟩ := List.map_eq_cons_iff.mp hbare.symm
    have hopens' : u.opens? = t.opens? := opens_of_bare hu
    have hcloses' : u.closes? = t.closes? := closes_of_bare hu
    -- A bracket counts by its kind alone, so that both checks take the same case.
    cases hopens : t.opens? with
    | some b =>
      rw [checkBrackets_opener hopens] at h
      rw [checkBrackets_opener (hopens'.trans hopens)]
      refine ih hus.symm ?_ h
      rw [List.map_cons, List.map_cons, hpending]
    | none =>
      cases hcloses : t.closes? with
      | none =>
        rw [checkBrackets_other hopens hcloses] at h
        rw [checkBrackets_other (hopens'.trans hopens) (hcloses'.trans hcloses)]
        exact ih hus.symm hpending h
      | some b =>
        obtain ⟨o, outer, rfl, hrest⟩ := (checkBrackets_closer hopens hcloses).mp h
        obtain ⟨p, outer', rfl, hb, houter⟩ := List.map_eq_cons_iff.mp hpending.symm
        obtain ⟨o', b'⟩ := p
        obtain rfl : b' = b := hb
        exact (checkBrackets_closer (hopens'.trans hopens) (hcloses'.trans hcloses)).mpr
          ⟨o', outer', rfl, ih hus.symm houter.symm hrest⟩

/-- Semicolons have no part in the matching of brackets. -/
theorem checkBrackets_whole (hsound : Sound ms) (pending : List (Nat × Bracket)) :
    checkBrackets pending (whole ms) = checkBrackets pending (remaining ms) := by
  induction ms generalizing pending with
  | nil => rfl
  | cons m ms ih =>
    obtain ⟨t, dropped⟩ := m
    rw [whole_cons]
    cases dropped with
    | true =>
      obtain ⟨hopens, hcloses⟩ := opens_of_semicolon (hsound.1 rfl).1
      rw [checkBrackets_other hopens hcloses, remaining_dropped]
      exact ih hsound.2 pending
    | false =>
      rw [remaining_kept, checkBrackets, checkBrackets]
      simp only [ih hsound.2]

/-- The brackets of the canonical text match as those of the script do. -/
theorem checkBrackets_supplied (c : Canonical.Context) (pending : List (Nat × Bracket))
    (ts : List Token) :
    checkBrackets pending (whole (supplied c ts)) = checkBrackets pending ts := by
  rw [checkBrackets_whole (sound_supplied c ts), remaining_supplied]

theorem bare_placed (offset : Nat) (ts : List Token) :
    (placed offset ts).map Token.bare = ts.map Token.bare := by
  induction ts generalizing offset with
  | nil => rfl
  | cons t ts ih => rw [placed, List.map_cons, List.map_cons, ih]; rfl

/-- The brackets of the tokens that are left match wherever those stand. -/
theorem checkBrackets_remaining (hsound : Sound ms)
    (hpending : pending.map Prod.snd = pending'.map Prod.snd)
    (h : checkBrackets pending (whole ms) = .ok ()) (offset : Nat) :
    checkBrackets pending' (placed offset (remaining ms)) = .ok () :=
  checkBrackets_congr (bare_placed offset _).symm hpending (checkBrackets_whole hsound pending ▸ h)

end Dialects.Script
