import Mathlib.Data.List.Induction
import Dialects.Proofs.Script.Brackets

/-!
# Nested brackets

The check of a script's brackets succeeds if and only if they are well nested (`WellNested`).
Otherwise it blames the first bracket that closes what is not open, or else the innermost one of
those that stay open (`Blames`).

Both dialects keep a level for each open bracket while they go over the tokens. The levels rise and
fall with the brackets (`Raised.advance`), so that in a script whose brackets match none is left
that was not entered, and none stays at the end (`checkBrackets_exact`).
-/

namespace Dialects.Script

open CodePoint (scalar)
open Canonical (Context lacking classify)

variable {t : Token} {ts us vs rest : List Token} {c d : Context} {b : Bracket} {f : Fault}
  {pending pending' : List (Nat × Bracket)}

/-! ## Well-nested brackets -/

/-- Brackets that are well nested: each pair has well-nested brackets inside and behind it. -/
inductive WellNested : List Token → Prop
  | nil : WellNested []
  | pair {o t : Token} {b : Bracket} {us vs : List Token} (opens : o.opens? = some b)
      (inner : WellNested us) (closes : t.closes? = some b) (rest : WellNested vs) :
      WellNested (o :: us ++ t :: vs)

/-- Brackets of which some stay open, here with their offsets and innermost first. Behind each of
these come well-nested brackets only. -/
inductive LeavesOpen : List Token → List (Nat × Bracket) → Prop
  | nested {us : List Token} (nested : WellNested us) : LeavesOpen us []
  | opened {us vs : List Token} {o : Token} {b : Bracket} {pending : List (Nat × Bracket)}
      (outer : LeavesOpen us pending) (opens : o.opens? = some b) (inner : WellNested vs) :
      LeavesOpen (us ++ o :: vs) ((o.offset, b) :: pending)

/-- What is at fault with some brackets. -/
inductive Blames : List Token → Fault → Prop
  /-- A bracket that does not close the innermost one of those that are open in front of it, be it
  that there is none. Those in front of it are not at fault. -/
  | closer {us vs : List Token} {t : Token} {b : Bracket} {pending : List (Nat × Bracket)}
      (before : LeavesOpen us pending) (closes : t.closes? = some b)
      (innermost : pending.head?.map Prod.snd ≠ some b) :
      Blames (us ++ t :: vs) (.unexpectedCloser t.offset b)
  /-- The innermost bracket of those that stay open, where no other one is at fault. -/
  | opener {us : List Token} {offset : Nat} {b : Bracket} {pending : List (Nat × Bracket)}
      (before : LeavesOpen us ((offset, b) :: pending)) : Blames us (.unclosed offset b)

theorem WellNested.append (hus : WellNested us) (hvs : WellNested vs) : WellNested (us ++ vs) := by
  induction hus with
  | nil => exact hvs
  | @pair o t b us ws opens inner closes rest ihinner ihrest =>
    rw [List.append_assoc, List.cons_append]
    exact .pair opens inner closes ihrest

/-- Where no bracket stays open they are well nested. -/
theorem LeavesOpen.wellNested (h : LeavesOpen us []) : WellNested us := by
  cases h with
  | nested nested => exact nested

/-- Well-nested brackets behind them leave the same ones open. -/
theorem LeavesOpen.append (hus : LeavesOpen us pending) (hvs : WellNested vs) :
    LeavesOpen (us ++ vs) pending := by
  cases hus with
  | nested nested => exact .nested (nested.append hvs)
  | opened outer opens inner =>
    rw [List.append_assoc, List.cons_append]
    exact .opened outer opens (inner.append hvs)

/-- A bracket closes the innermost open one, which becomes part of a pair. -/
theorem LeavesOpen.close {offset : Nat} (h : LeavesOpen us ((offset, b) :: pending))
    (hcloses : t.closes? = some b) : LeavesOpen (us ++ [t]) pending := by
  cases h with
  | @opened us vs o _ _ outer opens inner =>
    rw [List.append_assoc]
    apply outer.append
    exact .pair opens inner hcloses .nil

/-- Brackets leave some open, unless one that closes is at fault. -/
theorem leavesOpen_or_blames (h : ∀ t ∈ ts, t.isBracket = true) :
    (∃ pending, LeavesOpen ts pending) ∨ ∃ n b, Blames ts (.unexpectedCloser n b) := by
  -- The induction is on the last bracket, for a fault lies behind all that is not at fault.
  induction ts using List.reverseRecOn with
  | nil => exact Or.inl ⟨[], .nested .nil⟩
  | append_singleton ts t ih =>
    obtain ⟨pending, hopen⟩ | ⟨n, b, hfault⟩ := ih fun u hu => h u (List.mem_append_left [t] hu)
    · have hbracket := h t (List.mem_append_right ts (List.mem_singleton_self t))
      rw [Token.isBracket, Bool.or_eq_true, Option.isSome_iff_exists,
        Option.isSome_iff_exists] at hbracket
      obtain ⟨b, hopens⟩ | ⟨b, hcloses⟩ := hbracket
      · exact Or.inl ⟨_, .opened hopen hopens .nil⟩
      by_cases hinnermost : pending.head?.map Prod.snd = some b
      · obtain ⟨⟨offset, b'⟩, hhead, hb⟩ := Option.map_eq_some_iff.mp hinnermost
        obtain ⟨outer, rfl⟩ := List.head?_eq_some_iff.mp hhead
        obtain rfl : b' = b := hb
        exact Or.inl ⟨outer, hopen.close hcloses⟩
      · exact Or.inr ⟨_, _, .closer hopen hcloses hinnermost⟩
    · cases hfault with
      | closer before closes innermost =>
        rw [List.append_assoc, List.cons_append]
        exact Or.inr ⟨_, _, .closer before closes innermost⟩

/-! ## The check of the brackets -/

theorem opens_of_closes (h : t.closes? = some b) : t.opens? = none := by
  obtain ⟨hkind, hvalue⟩ := value_of_closes h
  rw [Token.opens?, if_pos hkind, hvalue]
  cases b <;> rfl

theorem significant_of_isBracket (h : t.isBracket = true) : t.isSignificant = true := by
  refine Bool.of_not_eq_false fun hno => ?_
  obtain ⟨hopens, hcloses⟩ := opens_of_insignificant hno
  rw [Token.isBracket, hopens, hcloses] at h
  contradiction

/-- A token that opens is a bracket. -/
theorem isBracket_of_opens (h : t.opens? = some b) : t.isBracket = true := by
  rw [Token.isBracket, h]
  rfl

/-- A token that closes is a bracket. -/
theorem isBracket_of_closes (h : t.closes? = some b) : t.isBracket = true := by
  rw [Token.isBracket, h, Bool.or_comm]
  rfl

/-- A bracket that closes the innermost one is accepted. -/
theorem checkBrackets_close {offset : Nat} (hcloses : t.closes? = some b) :
    checkBrackets ((offset, b) :: pending) (t :: ts) = checkBrackets pending ts := by
  rw [checkBrackets, opens_of_closes hcloses, hcloses]
  exact if_pos rfl

/-- Well-nested brackets are passed over by the check. -/
theorem WellNested.check (h : WellNested us) (pending : List (Nat × Bracket)) (rest : List Token) :
    checkBrackets pending (us ++ rest) = checkBrackets pending rest := by
  induction h generalizing pending rest with
  | nil => rfl
  | pair opens inner closes behind ihinner ihbehind =>
    rw [List.append_assoc, List.cons_append, List.cons_append, checkBrackets_opener opens, ihinner,
      checkBrackets_close closes, ihbehind]

/-- What is left open comes on top of what was open before. -/
theorem LeavesOpen.check (h : LeavesOpen us pending) (pending' : List (Nat × Bracket))
    (rest : List Token) :
    checkBrackets pending' (us ++ rest) = checkBrackets (pending ++ pending') rest := by
  induction h generalizing pending' rest with
  | nested nested => exact nested.check pending' rest
  | opened outer opens inner ih =>
    rw [List.append_assoc, List.cons_append, ih, checkBrackets_opener opens, inner.check]
    rfl

/-- The check finds what is at fault. -/
theorem Blames.check (h : Blames us f) : checkBrackets [] us = .error f := by
  cases h with
  | @closer us vs t b pending before closes innermost =>
    rw [before.check, List.append_nil, checkBrackets, opens_of_closes closes, closes]
    cases pending with
    | nil => rfl
    | cons p outer =>
      obtain ⟨offset, b'⟩ := p
      have hne : b ≠ b' := fun heq => innermost (congrArg some heq.symm)
      exact if_neg hne
  | opener before =>
    have hcheck := before.check [] []
    rw [List.append_nil, List.append_nil] at hcheck
    exact hcheck

/-- A script with well-nested brackets passes the check. -/
theorem checkBrackets_of_wellNested (h : WellNested (ts.filter Token.isBracket)) :
    checkBrackets [] ts = .ok () := by
  rw [← checkBrackets_filter, ← List.append_nil (ts.filter Token.isBracket), h.check]
  rfl

/-- A script with a fault in its brackets is refused for this fault. -/
theorem checkBrackets_of_blames (h : Blames (ts.filter Token.isBracket) f) :
    checkBrackets [] ts = .error f := by
  rw [← checkBrackets_filter]
  exact h.check

/-- Brackets that are not well nested have one that is at fault. -/
theorem wellNested_or_blames (ts : List Token) :
    WellNested (ts.filter Token.isBracket) ∨ ∃ f, Blames (ts.filter Token.isBracket) f := by
  obtain ⟨pending, hopen⟩ | ⟨n, b, hfault⟩ :=
    leavesOpen_or_blames fun t (ht : t ∈ ts.filter Token.isBracket) => List.of_mem_filter ht
  · cases pending with
    | nil => exact Or.inl hopen.wellNested
    | cons p pending => exact Or.inr ⟨_, .opener hopen⟩
  · exact Or.inr ⟨_, hfault⟩

/-- The check succeeds on well-nested brackets only. -/
theorem checkBrackets_ok_iff :
    checkBrackets [] ts = .ok () ↔ WellNested (ts.filter Token.isBracket) := by
  refine ⟨fun h => (wellNested_or_blames ts).resolve_right ?_, checkBrackets_of_wellNested⟩
  rintro ⟨f, hfault⟩
  rw [checkBrackets_of_blames hfault] at h
  contradiction

/-- Any other brackets fail with what is at fault. -/
theorem checkBrackets_error_iff :
    checkBrackets [] ts = .error f ↔ Blames (ts.filter Token.isBracket) f := by
  refine ⟨fun h => ?_, checkBrackets_of_blames⟩
  obtain hnested | ⟨f', hfault⟩ := wellNested_or_blames ts
  · rw [checkBrackets_of_wellNested hnested] at h
    contradiction
  · obtain rfl := Except.error.inj (h.symm.trans (checkBrackets_of_blames hfault))
    exact hfault

/-! ## The levels of both dialects -/

/-- What is known behind the tokens `ts`, given what is known in front of them and that `rest`
follows. -/
def reach (c : Context) : List Token → List Token → Context
  | [], _ => c
  | t :: ts, rest => reach (advance c t (ts ++ rest)) ts rest

/-- What is known behind two parts is what the second one leads to from behind the first one. -/
theorem reach_append (c : Context) (ts us rest : List Token) :
    reach c (ts ++ us) rest = reach (reach c ts (us ++ rest)) us rest := by
  induction ts generalizing c with
  | nil => rfl
  | cons t ts ih => rw [List.cons_append, reach, reach, ih, List.append_assoc]

/-- Behind some tokens, the canonical dialect decides by what is known there. -/
theorem lacking_drop (c : Context) (ts rest : List Token) :
    (lacking c (ts ++ rest)).drop ts.length = lacking (reach c ts rest) rest := by
  induction ts generalizing c with
  | nil => rfl
  | cons t ts ih =>
    rw [List.cons_append, lacking_cons]
    exact ih (advance c t (ts ++ rest))

/-- Behind some tokens, the lenient dialect decides by the brackets that are open there. -/
theorem redundant_drop (pending : List Bracket) (ts rest : List Token) :
    (Lenient.redundant pending (ts ++ rest)).drop ts.length
      = Lenient.redundant (ts.foldl nested pending) rest := by
  induction ts generalizing pending with
  | nil => rfl
  | cons t ts ih =>
    rw [List.cons_append, redundant_cons]
    exact ih (nested pending t)

/-- A bracket that opens is classified by what comes before it. -/
theorem openers_of_opens (hopens : t.opens? = some b) (c : Context) (rest : List Token) :
    (advance c t rest).openers = classify b c.last c.afterLabel :: c.openers := by
  rw [advance, if_pos (significant_of_isBracket (isBracket_of_opens hopens)), after_openers,
    Context.nest, hopens]

/-- How a context `d` behind some tokens differs from the one in front of them: it has a level more
for each of the `height` brackets that they leave open. Further out no bracket has changed, and of
the question marks only the number of those directly beside the tokens. -/
structure Raised (c : Context) (height : Nat) (d : Context) : Prop where
  openers : ∃ os : List Opener, os.length = height ∧ d.openers = os ++ c.openers
  conditionals : ∃ (ns : List Nat) (n : Nat), ns.length = height ∧
    d.conditionals = ns ++ n :: c.conditionals.tail

/-- A level for the question marks is all that a context needs to count them. -/
theorem Raised.refl (h : c.conditionals ≠ []) : Raised c 0 c := by
  obtain ⟨n, outer, hconditionals⟩ := List.exists_cons_of_ne_nil h
  refine ⟨⟨[], rfl, rfl⟩, [], n, rfl, ?_⟩
  rw [hconditionals]
  rfl

/-- Only the innermost level of question marks is counted at. -/
theorem answer_conditionals {n : Nat} {outer : List Nat} (h : d.conditionals = n :: outer)
    (t : Token) (rest : List Token) : ∃ m, (d.answer t rest).conditionals = m :: outer := by
  rw [Context.answer, h]
  dsimp only
  split
  · exact ⟨n + 1, rfl⟩
  · split
    · split
      · exact ⟨n, rfl⟩
      · exact ⟨n - 1, rfl⟩
    · exact ⟨n, rfl⟩

/-- Question marks and colons keep the levels of a context. -/
theorem Raised.answer {height : Nat} (h : Raised c height d) (t : Token) (rest : List Token) :
    Raised c height (d.answer t rest) := by
  obtain ⟨os, hos, hopeners⟩ := h.openers
  obtain ⟨ns, n, hns, hconditionals⟩ := h.conditionals
  refine ⟨⟨os, hos, (answer_openers d t rest).trans hopeners⟩, ?_⟩
  -- the innermost level is the one of the start, or a level that has been opened since
  cases ns with
  | nil =>
    obtain ⟨m, hm⟩ := answer_conditionals hconditionals t rest
    exact ⟨[], m, hns, hm⟩
  | cons k ns =>
    obtain ⟨m, hm⟩ := answer_conditionals hconditionals t rest
    exact ⟨m :: ns, n, hns, hm⟩

/-- A bracket that opens adds a level, and one that closes takes away the innermost one. -/
theorem Raised.nest (h : Raised c pending.length d)
    (hcheck : checkBrackets pending (t :: ts) = .ok ()) :
    ∃ pending', checkBrackets pending' ts = .ok () ∧
      nested (pending.map Prod.snd) t = pending'.map Prod.snd ∧
      Raised c pending'.length (d.nest t) := by
  obtain ⟨os, hos, hopeners⟩ := h.openers
  obtain ⟨ns, n, hns, hconditionals⟩ := h.conditionals
  rw [nested, Context.nest]
  cases hopens : t.opens? with
  | some b =>
    rw [checkBrackets_opener hopens] at hcheck
    refine ⟨_, hcheck, rfl, ⟨⟨_ :: os, ?_, congrArg (_ :: ·) hopeners⟩,
      ⟨0 :: ns, n, ?_, congrArg (0 :: ·) hconditionals⟩⟩⟩
    · rw [List.length_cons, hos, List.length_cons]
    · rw [List.length_cons, hns, List.length_cons]
  | none =>
    cases hcloses : t.closes? with
    | none =>
      rw [checkBrackets_other hopens hcloses] at hcheck
      exact ⟨pending, hcheck, rfl, h⟩
    | some b =>
      -- The check has found the bracket that is closed, which is the innermost level of each stack.
      obtain ⟨offset, outer, rfl, hrest⟩ := (checkBrackets_closer hopens hcloses).mp hcheck
      obtain ⟨o, os, rfl⟩ := List.exists_cons_of_length_eq_add_one hos
      obtain ⟨k, ns, rfl⟩ := List.exists_cons_of_length_eq_add_one hns
      exact ⟨outer, hrest, rfl, ⟨⟨os, Nat.succ.inj hos, congrArg List.tail hopeners⟩,
        ⟨ns, n, Nat.succ.inj hns, congrArg List.tail hconditionals⟩⟩⟩

/-- Going on by one token keeps the levels of a context in step with the brackets that are open. -/
theorem Raised.advance (h : Raised c pending.length d)
    (hcheck : checkBrackets pending (t :: ts) = .ok ()) (rest : List Token) :
    ∃ pending', checkBrackets pending' ts = .ok () ∧
      nested (pending.map Prod.snd) t = pending'.map Prod.snd ∧
      Raised c pending'.length (advance d t rest) := by
  obtain ⟨pending', hrest, hnested, hraised⟩ := h.nest hcheck
  refine ⟨pending', hrest, hnested, ?_⟩
  rw [Script.advance]
  split
  · obtain ⟨hopeners, hconditionals⟩ := hraised.answer t rest
    exact ⟨hopeners, hconditionals⟩
  · next hinsignificant =>
    obtain ⟨hopens, hcloses⟩ := opens_of_insignificant (Bool.eq_false_iff.mpr hinsignificant)
    rw [Context.nest, hopens, hcloses] at hraised
    exact hraised

/-- The run over tokens whose brackets match so far. -/
theorem Raised.reach (h : Raised c pending.length d)
    (hcheck : checkBrackets pending (ts ++ us) = .ok ()) (rest : List Token) :
    ∃ pending', checkBrackets pending' us = .ok () ∧
      ts.foldl nested (pending.map Prod.snd) = pending'.map Prod.snd ∧
      Raised c pending'.length (reach d ts rest) := by
  -- the induction is on the tokens, with the brackets that are pending at each of them
  induction ts generalizing pending d with
  | nil => exact ⟨pending, hcheck, rfl, h⟩
  | cons t ts ih =>
    obtain ⟨pending₁, hcheck₁, hnested, hraised⟩ := h.advance hcheck (ts ++ rest)
    obtain ⟨pending₂, hcheck₂, hrest, hreached⟩ := ih hraised hcheck₁
    rw [← hnested] at hrest
    exact ⟨pending₂, hcheck₂, hrest, hreached⟩

/-- What both dialects know behind the first tokens of a script whose brackets match so far. -/
theorem raised_initial (h : checkBrackets [] (us ++ vs) = .ok ()) (rest : List Token) :
    ∃ pending, checkBrackets pending vs = .ok () ∧
      us.foldl nested [] = pending.map Prod.snd ∧
      Raised .initial pending.length (reach .initial us rest) := by
  have hraised : Raised .initial ([] : List (Nat × Bracket)).length .initial :=
    Raised.refl (List.cons_ne_nil 0 [])
  exact hraised.reach h rest

/-- Behind well-nested brackets the open brackets are those in front of them. -/
theorem openers_of_wellNested (h : WellNested (ts.filter Token.isBracket))
    (hd : d.conditionals ≠ []) (rest : List Token) : (reach d ts rest).openers = d.openers := by
  have hcheck : checkBrackets [] (ts ++ []) = .ok () := by
    rw [List.append_nil]
    exact checkBrackets_ok_iff.mpr h
  have hraised : Raised d ([] : List (Nat × Bracket)).length d := Raised.refl hd
  obtain ⟨pending', hend, -, hreached⟩ := hraised.reach hcheck rest
  -- no bracket is pending at the end, so that all that were opened have been closed
  cases pending' with
  | nil =>
    obtain ⟨os, hos, hopeners⟩ := hreached.openers
    obtain rfl := List.eq_nil_of_length_eq_zero hos
    exact hopeners
  | cons p pending' => contradiction

/-! ## Scripts whose brackets match -/

/-- The levels that both dialects have behind the tokens `us` and in front of `vs`. -/
structure Leveled (us vs : List Token) : Prop where
  /-- The lenient dialect goes on with the brackets that are open there. -/
  lenient : (Lenient.redundant [] (us ++ vs)).drop us.length
    = Lenient.redundant (us.foldl nested []) vs
  /-- The canonical dialect goes on with the context that is reached there. -/
  canonical : (lacking .initial (us ++ vs)).drop us.length = lacking (reach .initial us vs) vs
  /-- There is a level of question marks for each open bracket, and one for the script itself. -/
  conditionals : (reach .initial us vs).conditionals.length
    = (reach .initial us vs).openers.length + 1
  /-- If a bracket closes next, it has been opened for both dialects. -/
  closes : ∀ t ∈ vs.head?, t.closes?.isSome = true →
    us.foldl nested [] ≠ [] ∧ (reach .initial us vs).openers ≠ []
  /-- Whatever comes next, there is a level at which question marks are counted. -/
  counts : ∀ t ∈ vs.head?, ((reach .initial us vs).nest t).conditionals ≠ []

/-- In a script that passes the check both dialects have the levels of its brackets. -/
theorem leveled_of_check (h : checkBrackets [] (us ++ vs) = .ok ()) : Leveled us vs := by
  obtain ⟨pending, hcheck, hnested, hraised⟩ := raised_initial h vs
  obtain ⟨os, hos, hopeners⟩ := hraised.openers
  obtain ⟨ns, n, hns, hconditionals⟩ := hraised.conditionals
  refine ⟨redundant_drop [] us vs, lacking_drop .initial us vs, ?_, fun t ht hcloses => ?_,
    fun t ht => ?_⟩
  · rw [hopeners, hconditionals, List.length_append, List.length_append, List.length_cons, hos, hns]
    rfl
  · obtain ⟨vs, rfl⟩ := List.head?_eq_some_iff.mp ht
    obtain ⟨b, hb⟩ := Option.isSome_iff_exists.mp hcloses
    obtain ⟨offset, outer, rfl, -⟩ := (checkBrackets_closer (opens_of_closes hb) hb).mp hcheck
    rw [hnested, hopeners]
    obtain ⟨o, os, rfl⟩ := List.exists_cons_of_length_eq_add_one hos
    exact ⟨List.cons_ne_nil _ _, List.cons_ne_nil _ _⟩
  · obtain ⟨vs, rfl⟩ := List.head?_eq_some_iff.mp ht
    obtain ⟨pending', -, -, hnest⟩ := hraised.nest hcheck
    obtain ⟨ns, n, -, hconditionals⟩ := hnest.conditionals
    rw [hconditionals]
    exact List.append_ne_nil_of_right_ne_nil ns (List.cons_ne_nil _ _)

/-- The check of the brackets succeeds on well-nested ones, and blames the first one at fault
otherwise. Where it succeeds, both dialects leave no level that they have not entered, and at the
end of the script they are at the level of the script itself, as at its start. -/
theorem checkBrackets_exact (ts : List Token) :
    (checkBrackets [] ts = .ok () ↔ WellNested (ts.filter Token.isBracket)) ∧
      (∀ f, checkBrackets [] ts = .error f ↔ Blames (ts.filter Token.isBracket) f) ∧
      (checkBrackets [] ts = .ok () → (∀ us vs, us ++ vs = ts → Leveled us vs) ∧
        ts.foldl nested [] = [] ∧ (reach .initial ts []).openers = [] ∧
        (reach .initial ts []).conditionals.length = 1) := by
  refine ⟨checkBrackets_ok_iff, fun f => checkBrackets_error_iff, fun h => ⟨?_, ?_⟩⟩
  · rintro us vs rfl
    exact leveled_of_check h
  · -- At the end of the script no bracket is open, so that nothing is left on any of the stacks.
    rw [← List.append_nil ts] at h
    obtain ⟨pending, hend, hnested, hraised⟩ := raised_initial h []
    cases pending with
    | nil =>
      obtain ⟨os, hos, hopeners⟩ := hraised.openers
      obtain ⟨ns, n, hns, hconditionals⟩ := hraised.conditionals
      obtain rfl := List.eq_nil_of_length_eq_zero hos
      obtain rfl := List.eq_nil_of_length_eq_zero hns
      rw [hconditionals]
      exact ⟨hnested, hopeners, rfl⟩
    | cons p pending => contradiction

/-- The tokens of the script `f([],{})`. -/
def callTokens : List Token :=
  placed 0 (⟨0, .other, Text.ofString "f"⟩ :: ["(", "[", "]", ",", "\x7b", "\x7d", ")"].map
    fun s => ⟨0, .punctuation, Text.ofString s⟩)

/-- A call with an array and an object: the brackets match, and nothing stays open. -/
theorem checkBrackets_exact_call :
    checkBrackets [] callTokens = .ok () ∧ WellNested (callTokens.filter Token.isBracket) ∧
      (reach .initial callTokens []).openers = [] := by
  obtain ⟨hok, -, hlevels⟩ := checkBrackets_exact callTokens
  have hcheck : checkBrackets [] callTokens = .ok () := by decide +kernel
  exact ⟨hcheck, hok.mp hcheck, (hlevels hcheck).2.2.1⟩

/-- The second bracket is at fault, not the first one, though that stays open as well. -/
example : checkBrackets [] (placed 0 (["(", "]", ")"].map
    fun s => ⟨0, .punctuation, Text.ofString s⟩)) = .error (.unexpectedCloser 1 .square) := by
  decide +kernel

end Dialects.Script
