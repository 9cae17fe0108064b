import Mathlib.Data.List.Nodup
import Mathlib.Data.Option.Basic
import Dialects.Proofs.Script.Nesting

/-!
# The colons of conditionals and of labels

A colon answers the nearest question mark in front of it, inside the same brackets, that no earlier
colon answers (`answered?`). If there is one, the two belong to a conditional. The colon of a label
or of a clause answers none, and stands where statements do.

The canonical dialect keeps no question marks but only their number, one for each bracket that is
open. These are the numbers of the question marks that still wait at each level (`Counted`), so that
a colon finds a number other than zero if and only if it answers a question mark. A brace behind a
colon is thus taken for what it is (`openerAt_behind_colon`), be there comments in between, and
whatever brackets and conditionals stand in front of the colon.
-/

namespace Dialects.Script

open Canonical (Context lacking classify)

variable {t : Token} {ts rest : List Token} {c d : Context} {b : Bracket} {i j k n count : Nat}
  {l : Option Nat} {outer taken : List Nat}

/-! ## Which question mark a colon answers -/

/-- Whether the token is a question mark that opens a conditional, and not an optional chain. -/
def Token.asks (t : Token) (rest : List Token) : Bool :=
  t.kind = .operator && t.spells "?" && !Canonical.startsChain t rest

/-- Whether the token is a colon. -/
def Token.answers (t : Token) : Bool := t.kind = .operator && t.spells ":"

/-- Whether a question mark at place `n` opens a conditional. -/
def asksAt (ts : List Token) (n : Nat) : Bool := ts[n]?.any fun t => t.asks (ts.drop (n + 1))

/-- Whether a colon stands at place `n`. -/
def answersAt (ts : List Token) (n : Nat) : Bool := ts[n]?.any Token.answers

/-- The places of the brackets that are open in front of place `n`, innermost first. -/
def enclosing (ts : List Token) : (n : Nat) → List Nat
  | 0 => []
  | n + 1 =>
    match ts[n]?.bind Token.opens?, ts[n]?.bind Token.closes? with
    | some _, _ => n :: enclosing ts n
    | none, some _ => (enclosing ts n).tail
    | none, none => enclosing ts n

/-- The place of the bracket directly around place `n`; there is none at top level. -/
def level (ts : List Token) (n : Nat) : Option Nat := (enclosing ts n).head?

/-- The question marks in front of place `n` that open a conditional at a level and are not among
those `taken`, the nearest one first. -/
def waiting (ts : List Token) (taken : List Nat) (l : Option Nat) (n : Nat) : List Nat :=
  ((List.range n).filter fun i => asksAt ts i && level ts i == l && !taken.contains i).reverse

/-- The question mark that is answered at place `n`, given those that are answered in front of
it. -/
def partner? (ts : List Token) (taken : List Nat) (n : Nat) : Option Nat :=
  if answersAt ts n then (waiting ts taken (level ts n) n).head? else none

/-- The question marks that are answered in front of place `n`. -/
def answeredBefore (ts : List Token) : (n : Nat) → List Nat
  | 0 => []
  | n + 1 => (partner? ts (answeredBefore ts n) n).toList ++ answeredBefore ts n

/-- The question mark that the colon at place `n` answers. -/
def answered? (ts : List Token) (n : Nat) : Option Nat := partner? ts (answeredBefore ts n) n

/-! ## Brackets by their places -/

/-- Behind a bracket that opens, the bracket is the innermost one. -/
theorem enclosing_of_opens (ht : ts[n]? = some t) (hopens : t.opens? = some b) :
    enclosing ts (n + 1) = n :: enclosing ts n := by
  simp only [enclosing, ht, Option.bind_some, hopens]

/-- Behind a bracket that closes, the innermost one is closed. -/
theorem enclosing_of_closes (ht : ts[n]? = some t) (hcloses : t.closes? = some b) :
    enclosing ts (n + 1) = (enclosing ts n).tail := by
  simp only [enclosing, ht, Option.bind_some, opens_of_closes hcloses, hcloses]

/-- Any other token leaves the brackets as they are. -/
theorem enclosing_of_other (ht : ts[n]? = some t) (hopens : t.opens? = none)
    (hcloses : t.closes? = none) : enclosing ts (n + 1) = enclosing ts n := by
  simp only [enclosing, ht, Option.bind_some, hopens, hcloses]

/-- A bracket around a place has been opened in front of it, and further out come earlier ones. -/
theorem enclosing_sorted (ts : List Token) (n : Nat) :
    (∀ p ∈ enclosing ts n, p < n) ∧ (enclosing ts n).Pairwise (· > ·) := by
  induction n with
  | zero => exact ⟨List.forall_mem_nil _, List.Pairwise.nil⟩
  | succ n ih =>
    obtain ⟨hlt, hsorted⟩ := ih
    have hlt' : ∀ p ∈ enclosing ts n, p < n + 1 := fun p hp => Nat.lt_succ_of_lt (hlt p hp)
    -- an opening bracket is the innermost one, and a closing one takes the innermost one off
    rw [enclosing]
    split
    · exact ⟨List.forall_mem_cons.mpr ⟨Nat.lt_succ_self n, hlt'⟩,
        List.pairwise_cons.mpr ⟨hlt, hsorted⟩⟩
    · exact ⟨fun p hp => hlt' p (List.mem_of_mem_tail hp), hsorted.tail⟩
    · exact ⟨hlt', hsorted⟩

/-- The levels around place `n`, innermost first and the script itself last. -/
def levels (ts : List Token) (n : Nat) : List (Option Nat) := (enclosing ts n).map some ++ [none]

/-- The innermost level is the one of the place. -/
theorem levels_eq_cons (ts : List Token) (n : Nat) :
    levels ts n = level ts n :: (levels ts n).tail := by
  rw [levels, level]
  cases enclosing ts n <;> rfl

/-- The levels around a place are different ones. -/
theorem nodup_levels (ts : List Token) (n : Nat) : (levels ts n).Nodup := by
  have hsorted := (enclosing_sorted ts n).2
  have hnodup : (enclosing ts n).Nodup := hsorted.imp fun hgt => Nat.ne_of_gt hgt
  refine List.nodup_append.mpr ⟨hnodup.map (Option.some_injective _), List.nodup_singleton _, ?_⟩
  intro l hl l' hl'
  obtain ⟨p, -, rfl⟩ := List.mem_map.mp hl
  obtain rfl := List.mem_singleton.mp hl'
  exact Option.some_ne_none p

/-- Further out no level is the innermost one. -/
theorem ne_level_of_mem_tail (hl : l ∈ (levels ts n).tail) : level ts n ≠ l := by
  have hnodup := nodup_levels ts n
  rw [levels_eq_cons, List.nodup_cons] at hnodup
  exact fun heq => hnodup.1 (heq ▸ hl)

/-! ## Question marks that wait -/

/-- A question mark waits in front of a place if it stands there at the level and is not taken. -/
theorem mem_waiting :
    i ∈ waiting ts taken l n ↔ i < n ∧ asksAt ts i = true ∧ level ts i = l ∧ i ∉ taken := by
  simp [waiting, and_assoc]

theorem nodup_waiting (ts : List Token) (taken : List Nat) (l : Option Nat) (n : Nat) :
    (waiting ts taken l n).Nodup := List.nodup_reverse.mpr (List.nodup_range.filter _)

/-- What is no question mark does not wait. -/
theorem waiting_succ_of_silent (h : asksAt ts n = false) (taken : List Nat) (l : Option Nat) :
    waiting ts taken l (n + 1) = waiting ts taken l n := by
  rw [waiting, List.range_succ, List.filter_append, List.filter_cons_of_neg (by simp [h]),
    List.filter_nil, List.append_nil]
  rfl

/-- A question mark waits at its own level. -/
theorem waiting_succ_of_asks (h : asksAt ts n = true) (hfree : n ∉ taken) :
    waiting ts taken (level ts n) (n + 1) = n :: waiting ts taken (level ts n) n := by
  rw [waiting, List.range_succ, List.filter_append, List.filter_cons_of_pos (by simp [h, hfree]),
    List.filter_nil, List.reverse_append]
  rfl

/-- A token at another level makes nothing wait at this one. -/
theorem waiting_succ_of_ne (hne : level ts n ≠ l) (taken : List Nat) :
    waiting ts taken l (n + 1) = waiting ts taken l n := by
  rw [waiting, List.range_succ, List.filter_append, List.filter_cons_of_neg (by simp [hne]),
    List.filter_nil, List.append_nil]
  rfl

/-- A question mark that is answered waits no longer. -/
theorem waiting_cons (ts : List Token) (taken : List Nat) (i : Nat) (l : Option Nat) (n : Nat) :
    waiting ts (i :: taken) l n = (waiting ts taken l n).filter (· ≠ i) := by
  rw [waiting, waiting, List.filter_reverse, List.filter_filter]
  refine congrArg List.reverse (List.filter_congr fun k _ => ?_)
  by_cases heq : k = i <;> simp [heq]

/-- Taking a question mark that does not wait takes nothing from those that do. -/
theorem waiting_cons_of_notMem (h : i ∉ waiting ts taken l n) :
    waiting ts (i :: taken) l n = waiting ts taken l n := by
  rw [waiting_cons, List.filter_eq_self]
  exact fun k hk => decide_eq_true fun heq => h (heq ▸ hk)

/-- Once the nearest question mark is taken, the next one is the nearest. -/
theorem waiting_cons_of_head {is : List Nat} (h : waiting ts taken l n = i :: is) :
    waiting ts (i :: taken) l n = is := by
  have hnodup := nodup_waiting ts taken l n
  rw [h, List.nodup_cons] at hnodup
  rw [waiting_cons, h, List.filter_cons_of_neg (by simp), List.filter_eq_self]
  exact fun k hk => decide_eq_true fun heq => hnodup.1 (heq ▸ hk)

/-- Only what stands in front of a place has been answered there. -/
theorem lt_of_answeredBefore (h : i ∈ answeredBefore ts n) : i < n := by
  induction n with
  | zero => contradiction
  | succ n ih =>
    rw [answeredBefore, List.mem_append, Option.mem_toList, partner?] at h
    -- what is answered by the last token has been waiting there
    obtain hnow | hbefore := h
    · split at hnow
      · exact Nat.lt_succ_of_lt (mem_waiting.mp (List.mem_of_head? hnow)).1
      · contradiction
    · exact Nat.lt_succ_of_lt (ih hbefore)

theorem answeredBefore_succ_of_silent (h : answersAt ts n = false) :
    answeredBefore ts (n + 1) = answeredBefore ts n := by
  rw [answeredBefore, partner?, h]
  rfl

/-! ## What the canonical dialect knows of them -/

/-- What the canonical dialect knows in front of place `n`. -/
def contextAt (ts : List Token) (n : Nat) : Context := reach .initial (ts.take n) (ts.drop n)

/-- What the canonical dialect takes the bracket at place `n` to open. -/
def openerAt (ts : List Token) (n : Nat) : Option Opener := (contextAt ts (n + 1)).openers.head?

/-- The context goes from token to token. -/
theorem contextAt_succ (ht : ts[n]? = some t) :
    contextAt ts (n + 1) = advance (contextAt ts n) t (ts.drop (n + 1)) := by
  obtain ⟨hn, rfl⟩ := List.getElem?_eq_some_iff.mp ht
  rw [contextAt, List.take_succ_eq_append_getElem hn, reach_append, contextAt,
    List.drop_eq_getElem_cons hn]
  rfl

/-- The canonical dialect decides by what it knows in front of a place. -/
theorem lacking_contextAt (ts : List Token) (hn : n ≤ ts.length) :
    (lacking .initial ts).drop n = lacking (contextAt ts n) (ts.drop n) := by
  have hdrop := lacking_drop .initial (ts.take n) (ts.drop n)
  rw [List.take_append_drop, List.length_take, Nat.min_eq_left hn] at hdrop
  exact hdrop

theorem opens_of_operator (h : t.kind = .operator) : t.opens? = none ∧ t.closes? = none := by
  rw [Token.opens?, Token.closes?, h]
  exact ⟨rfl, rfl⟩

/-- An operator leaves the brackets as they are. -/
theorem nest_of_operator (h : t.kind = .operator) (c : Context) : c.nest t = c := by
  obtain ⟨hopens, hcloses⟩ := opens_of_operator h
  rw [Context.nest, hopens, hcloses]

/-- A token asks if it is a question mark that starts no optional chain. -/
theorem asks_iff : t.asks rest = true ↔
    t.kind = .operator ∧ t.value = Text.ofString "?" ∧ Canonical.startsChain t rest = false := by
  simp [Token.asks, Token.spells, and_assoc]

/-- A token answers if it is a colon. -/
theorem answers_iff : t.answers = true ↔ t.kind = .operator ∧ t.value = Text.ofString ":" := by
  simp [Token.answers, Token.spells]

theorem asks_of_answers (h : t.answers = true) (rest : List Token) : t.asks rest = false := by
  refine Bool.eq_false_iff.mpr fun hasks => ?_
  have hvalue := (answers_iff.mp h).2
  rw [(asks_iff.mp hasks).2.1] at hvalue
  revert hvalue
  decide

/-- An operator that is not blank is significant. -/
theorem significant_of_operator (hkind : t.kind = .operator)
    (hvalue : Text.isBlank t.value = false) : t.isSignificant = true := by
  rw [Token.isSignificant, Token.isComment, hkind, hvalue]
  rfl

theorem significant_of_asks (h : t.asks rest = true) : t.isSignificant = true := by
  obtain ⟨hkind, hvalue, -⟩ := asks_iff.mp h
  exact significant_of_operator hkind (by rw [hvalue]; decide)

theorem significant_of_answers (h : t.answers = true) : t.isSignificant = true := by
  obtain ⟨hkind, hvalue⟩ := answers_iff.mp h
  exact significant_of_operator hkind (by rw [hvalue]; decide)

/-- A question mark is counted at the innermost level, a colon takes one away or ends a label, and
any other token leaves the count. -/
theorem answer_eq (hc : c.conditionals = count :: outer) (t : Token) (rest : List Token) :
    c.answer t rest =
      if t.asks rest then { c with conditionals := (count + 1) :: outer, afterLabel := false }
      else if t.answers then
        if count = 0 then { c with afterLabel := c.inStatements }
        else { c with conditionals := (count - 1) :: outer, afterLabel := false }
      else { c with afterLabel := false } := by
  rw [Context.answer, hc]
  rfl

/-- A question mark is counted. -/
theorem answer_of_asks (hc : c.conditionals = count :: outer) (h : t.asks rest = true) :
    (c.answer t rest).conditionals = (count + 1) :: outer := by
  rw [answer_eq hc, if_pos h]

/-- A colon takes one off if there is any, and is that of a label if there is none. -/
theorem answer_of_answers (hc : c.conditionals = count :: outer) (h : t.answers = true)
    (rest : List Token) :
    (c.answer t rest).conditionals = (count - 1) :: outer ∧
      (c.answer t rest).afterLabel = (decide (count = 0) && c.inStatements) := by
  rw [answer_eq hc, if_neg (Bool.eq_false_iff.mp (asks_of_answers h rest)), if_pos h]
  -- the count is the number of question marks that wait, and a colon without one ends a label
  by_cases hcount : count = 0
  · rw [if_pos hcount, hc, hcount]
    exact ⟨rfl, rfl⟩
  · rw [if_neg hcount, decide_eq_false hcount]
    exact ⟨rfl, rfl⟩

/-- Nothing else is counted. -/
theorem answer_of_silent (hc : c.conditionals = count :: outer) (hasks : t.asks rest = false)
    (hanswers : t.answers = false) : (c.answer t rest).conditionals = count :: outer := by
  rw [answer_eq hc, if_neg (Bool.eq_false_iff.mp hasks), if_neg (Bool.eq_false_iff.mp hanswers),
    hc]

/-! ## The numbers are right -/

/-- How many question marks wait at a level in front of place `n`. -/
def numberWaiting (ts : List Token) (n : Nat) (l : Option Nat) : Nat :=
  (waiting ts (answeredBefore ts n) l n).length

/-- Nothing waits at the level of a bracket that is about to open. -/
theorem numberWaiting_self (ts : List Token) (n : Nat) : numberWaiting ts n (some n) = 0 := by
  refine List.eq_nil_iff_length_eq_zero.mp (List.eq_nil_iff_forall_not_mem.mpr fun i hi => ?_)
  obtain ⟨hi, -, hlevel, -⟩ := mem_waiting.mp hi
  have hlt := (enclosing_sorted ts i).1 n (List.mem_of_head? hlevel)
  omega

/-- What neither asks nor answers leaves the numbers as they are. -/
theorem numberWaiting_of_silent (hasks : asksAt ts n = false) (hanswers : answersAt ts n = false) :
    numberWaiting ts (n + 1) = numberWaiting ts n := by
  funext l
  rw [numberWaiting, answeredBefore_succ_of_silent hanswers, waiting_succ_of_silent hasks]
  rfl

/-- A question mark adds one at its level. -/
theorem numberWaiting_of_asks (hasks : asksAt ts n = true) (hanswers : answersAt ts n = false) :
    numberWaiting ts (n + 1) (level ts n) = numberWaiting ts n (level ts n) + 1 := by
  have hfree : n ∉ answeredBefore ts n := fun hn => Nat.lt_irrefl n (lt_of_answeredBefore hn)
  rw [numberWaiting, answeredBefore_succ_of_silent hanswers, waiting_succ_of_asks hasks hfree]
  rfl

/-- A colon takes one away at its level, if there is one. -/
theorem numberWaiting_of_answers (hasks : asksAt ts n = false) (hanswers : answersAt ts n = true) :
    numberWaiting ts (n + 1) (level ts n) = numberWaiting ts n (level ts n) - 1 := by
  rw [numberWaiting, numberWaiting, answeredBefore, partner?, if_pos hanswers,
    waiting_succ_of_silent hasks]
  -- the colon answers the question mark that has waited for the shortest time, if there is one
  cases hwaiting : waiting ts (answeredBefore ts n) (level ts n) n with
  | nil =>
    rw [List.head?_nil, Option.toList_none, List.nil_append, hwaiting]
    rfl
  | cons i is =>
    rw [List.head?_cons, Option.toList_some, List.singleton_append, waiting_cons_of_head hwaiting]
    rfl

/-- Further out nothing begins or ceases to wait. -/
theorem numberWaiting_of_ne (hne : level ts n ≠ l) :
    numberWaiting ts (n + 1) l = numberWaiting ts n l := by
  rw [numberWaiting, numberWaiting, waiting_succ_of_ne hne, answeredBefore]
  cases hpartner : partner? ts (answeredBefore ts n) n with
  | none => rfl
  | some i =>
    rw [Option.toList_some, List.singleton_append, waiting_cons_of_notMem]
    intro hi
    rw [partner?] at hpartner
    split at hpartner
    · -- The question mark that is answered is at the level of the colon.
      have hlevel := (mem_waiting.mp (List.mem_of_head? hpartner)).2.2.1
      exact hne (hlevel.symm.trans (mem_waiting.mp hi).2.2.1)
    · contradiction

/-- The context in front of place `n` has the open brackets, and for each level the number of the
question marks that wait there. -/
structure Counted (ts : List Token) (n : Nat) (c : Context) : Prop where
  openers : c.openers.map some = (enclosing ts n).map (openerAt ts)
  conditionals : c.conditionals = (levels ts n).map (numberWaiting ts n)

/-- In front of the script there is nothing to count. -/
theorem counted_initial (ts : List Token) : Counted ts 0 .initial := ⟨rfl, rfl⟩

/-- The innermost number is that of the level of the place. -/
theorem Counted.conditionals_eq_cons (h : Counted ts n c) : c.conditionals
    = numberWaiting ts n (level ts n) :: (levels ts n).tail.map (numberWaiting ts n) := by
  rw [h.conditionals, levels_eq_cons, List.map_cons, List.tail_cons]

theorem silent_of_punctuation (h : t.kind = .punctuation) (rest : List Token) :
    t.asks rest = false ∧ t.answers = false := by
  rw [Token.asks, Token.answers, h]
  exact ⟨rfl, rfl⟩

/-- A bracket is neither a question mark nor a colon, so that only the levels change. -/
theorem conditionals_of_isBracket (hbracket : t.isBracket = true)
    (hkind : t.kind = .punctuation) (hnest : (c.nest t).conditionals = count :: outer) :
    (advance c t rest).conditionals = count :: outer := by
  obtain ⟨hasks, hanswers⟩ := silent_of_punctuation hkind rest
  rw [advance, if_pos (significant_of_isBracket hbracket)]
  exact answer_of_silent hnest hasks hanswers

section Step

variable (h : Counted ts n (contextAt ts n)) (ht : ts[n]? = some t)

include ht

/-- Whether a given token asks at its place. -/
theorem asksAt_eq : asksAt ts n = t.asks (ts.drop (n + 1)) := by rw [asksAt, ht, Option.any_some]

/-- Whether a given token answers at its place. -/
theorem answersAt_eq : answersAt ts n = t.answers := by rw [answersAt, ht, Option.any_some]

/-- Punctuation leaves the numbers as they are. -/
theorem numberWaiting_of_punctuation (hkind : t.kind = .punctuation) :
    numberWaiting ts (n + 1) = numberWaiting ts n := by
  obtain ⟨hasks, hanswers⟩ := silent_of_punctuation hkind (ts.drop (n + 1))
  exact numberWaiting_of_silent ((asksAt_eq ht).trans hasks) ((answersAt_eq ht).trans hanswers)

include h

/-- A bracket that opens adds a level at which nothing waits. -/
theorem Counted.opens (hopens : t.opens? = some b) :
    Counted ts (n + 1) (contextAt ts (n + 1)) := by
  have hkind := (value_of_opens hopens).1
  have hopeners := openers_of_opens hopens (contextAt ts n) (ts.drop (n + 1))
  rw [← contextAt_succ ht] at hopeners
  constructor
  · have hself : openerAt ts n
        = some (classify b (contextAt ts n).last (contextAt ts n).afterLabel) := by
      rw [openerAt, hopeners, List.head?_cons]
    rw [hopeners, enclosing_of_opens ht hopens, List.map_cons, List.map_cons, h.openers, hself]
  · have hnest : ((contextAt ts n).nest t).conditionals = 0 :: (contextAt ts n).conditionals := by
      rw [Context.nest, hopens]
    have hlevels : levels ts (n + 1) = some n :: levels ts n := by
      rw [levels, enclosing_of_opens ht hopens]
      rfl
    rw [contextAt_succ ht, conditionals_of_isBracket (isBracket_of_opens hopens) hkind hnest,
      h.conditionals, numberWaiting_of_punctuation ht hkind, hlevels, List.map_cons,
      numberWaiting_self]

/-- A bracket that closes takes the innermost level away. -/
theorem Counted.closes (hcloses : t.closes? = some b) (hopen : enclosing ts n ≠ []) :
    Counted ts (n + 1) (contextAt ts (n + 1)) := by
  have hkind := (value_of_closes hcloses).1
  have hnest : (contextAt ts n).nest t = { contextAt ts n with
      openers := (contextAt ts n).openers.tail
      conditionals := (contextAt ts n).conditionals.tail } := by
    rw [Context.nest, opens_of_closes hcloses, hcloses]
  have hbracket := isBracket_of_closes hcloses
  constructor
  · rw [contextAt_succ ht, advance, if_pos (significant_of_isBracket hbracket), after_openers,
      hnest, enclosing_of_closes ht hcloses, List.map_tail, List.map_tail, h.openers]
  · -- At the outer levels nothing is asked or answered by the bracket.
    obtain ⟨p, ps, henclosing⟩ := List.exists_cons_of_ne_nil hopen
    have houter : (levels ts n).tail = levels ts (n + 1) := by
      rw [levels, levels, enclosing_of_closes ht hcloses, henclosing]
      rfl
    have hconditionals : ((contextAt ts n).nest t).conditionals
        = (levels ts (n + 1)).map (numberWaiting ts n) := by
      rw [hnest, h.conditionals, ← List.map_tail, houter]
    rw [levels_eq_cons, List.map_cons] at hconditionals
    rw [contextAt_succ ht, conditionals_of_isBracket hbracket hkind hconditionals,
      numberWaiting_of_punctuation ht hkind, ← List.map_cons, ← levels_eq_cons]

/-- Any other token leaves the levels as they are, and what is counted is counted at the innermost
one. -/
theorem Counted.other (hopens : t.opens? = none) (hcloses : t.closes? = none) :
    Counted ts (n + 1) (contextAt ts (n + 1)) := by
  have henclosing := enclosing_of_other ht hopens hcloses
  have hlevels : levels ts (n + 1) = levels ts n := by rw [levels, henclosing]; rfl
  have hnest : (contextAt ts n).nest t = contextAt ts n := by rw [Context.nest, hopens, hcloses]
  have houter : (levels ts n).tail.map (numberWaiting ts n)
      = (levels ts n).tail.map (numberWaiting ts (n + 1)) :=
    List.map_congr_left fun l hl => (numberWaiting_of_ne (ne_level_of_mem_tail hl)).symm
  have hnumbers := h.conditionals_eq_cons
  rw [houter] at hnumbers
  constructor
  · rw [contextAt_succ ht, henclosing, advance]
    split
    · rw [after_openers, hnest, h.openers]
    · exact h.openers
  -- It is enough to say what becomes of the innermost number.
  suffices hinnermost : (contextAt ts (n + 1)).conditionals
      = numberWaiting ts (n + 1) (level ts n) ::
        (levels ts n).tail.map (numberWaiting ts (n + 1)) by
    rw [hinnermost, hlevels, ← List.map_cons, ← levels_eq_cons]
  rw [contextAt_succ ht, advance]
  cases hanswers : t.answers with
  | true =>
    have hasks := asks_of_answers hanswers (ts.drop (n + 1))
    rw [if_pos (significant_of_answers hanswers), Context.after, hnest,
      (answer_of_answers hnumbers hanswers _).1,
      numberWaiting_of_answers ((asksAt_eq ht).trans hasks) ((answersAt_eq ht).trans hanswers)]
  | false =>
    have hanswersAt := (answersAt_eq ht).trans hanswers
    cases hasks : t.asks (ts.drop (n + 1)) with
    | true =>
      rw [if_pos (significant_of_asks hasks), Context.after, hnest, answer_of_asks hnumbers hasks,
        numberWaiting_of_asks ((asksAt_eq ht).trans hasks) hanswersAt]
    | false =>
      rw [numberWaiting_of_silent ((asksAt_eq ht).trans hasks) hanswersAt] at hnumbers ⊢
      split
      · rw [Context.after, hnest, answer_of_silent hnumbers hasks hanswers]
      · exact hnumbers

end Step

/-- In a script whose brackets match, the numbers are right at every place. -/
theorem counted_contextAt (hbrackets : checkBrackets [] ts = .ok ()) (hn : n ≤ ts.length) :
    Counted ts n (contextAt ts n) := by
  induction n with
  | zero => exact counted_initial ts
  | succ n ih =>
    have h := ih (Nat.le_of_lt hn)
    have ht := List.getElem?_eq_getElem hn
    generalize ts[n] = t at ht
    cases hopens : t.opens? with
    | some b => exact h.opens ht hopens
    | none =>
      cases hcloses : t.closes? with
      | none => exact h.other ht hopens hcloses
      | some b =>
        -- The bracket that is closed is still open in front of it.
        have hleveled : Leveled (ts.take n) (ts.drop n) :=
          leveled_of_check (by rw [List.take_append_drop]; exact hbrackets)
        have hhead : t ∈ (ts.drop n).head? := by
          rw [List.head?_drop]
          exact ht
        have hopen := (hleveled.closes t hhead (by rw [hcloses]; rfl)).2
        refine h.closes ht hcloses fun hnone => hopen ?_
        have hopeners := h.openers
        rw [hnone, List.map_nil, List.map_eq_nil_iff] at hopeners
        exact hopeners

/-! ## Braces behind a colon -/

/-- Whether a place is one for statements: at top level, or directly inside a block. -/
def AmongStatements (ts : List Token) (n : Nat) : Prop :=
  ∀ p ∈ level ts n, openerAt ts p = some .block

instance (ts : List Token) (n : Nat) : Decidable (AmongStatements ts n) :=
  inferInstanceAs (Decidable (∀ p ∈ level ts n, openerAt ts p = some .block))

/-- The context counts as being among statements just where the brackets say so. -/
theorem Counted.inStatements_iff (h : Counted ts n c) :
    c.inStatements = true ↔ AmongStatements ts n := by
  have hopeners := h.openers
  rw [Context.inStatements, AmongStatements, level]
  cases henclosing : enclosing ts n with
  | nil =>
    rw [henclosing] at hopeners
    rw [List.map_eq_nil_iff.mp hopeners]
    exact iff_of_true rfl (by rintro p ⟨⟩)
  | cons p ps =>
    rw [henclosing] at hopeners
    obtain ⟨o, os, heq, hp, -⟩ := List.map_eq_cons_iff.mp hopeners
    rw [heq]
    simp [← hp]

/-- What is known behind a colon, of which alone a brace behind it depends. -/
theorem contextAt_of_answers (h : Counted ts n (contextAt ts n)) (ht : ts[n]? = some t)
    (hanswers : t.answers = true) : (contextAt ts (n + 1)).last = some t ∧
      (contextAt ts (n + 1)).afterLabel
        = decide (answered? ts n = none ∧ AmongStatements ts n) := by
  have hsignificant := significant_of_answers hanswers
  have hnest := nest_of_operator (answers_iff.mp hanswers).1 (contextAt ts n)
  -- a colon without a question mark is one that answers none
  have hcount : numberWaiting ts n (level ts n) = 0 ↔ answered? ts n = none := by
    rw [answered?, partner?, if_pos ((answersAt_eq ht).trans hanswers), List.head?_eq_none_iff,
      numberWaiting, List.length_eq_zero_iff]
  rw [contextAt_succ ht, advance, if_pos hsignificant, Context.after, hnest]
  refine ⟨rfl, ?_⟩
  rw [(answer_of_answers h.conditionals_eq_cons hanswers _).2, Bool.eq_iff_iff, Bool.and_eq_true,
    decide_eq_true_iff, decide_eq_true_iff, hcount, h.inStatements_iff]

/-- Comments and blank space change nothing. -/
theorem contextAt_of_gap (hle : j ≤ n) (hn : n ≤ ts.length)
    (hgap : ∀ k u, j ≤ k → k < n → ts[k]? = some u → u.isSignificant = false) :
    contextAt ts n = contextAt ts j := by
  -- the induction is on the tokens of the gap, none of which is significant
  induction hle with
  | refl => rfl
  | @step n hle ih =>
    have ht := List.getElem?_eq_getElem hn
    have hinsignificant := hgap n _ hle (Nat.lt_succ_self n) ht
    rw [contextAt_succ ht, advance, if_neg (Bool.eq_false_iff.mp hinsignificant)]
    exact ih (Nat.le_of_lt hn) fun k u hjk hkn => hgap k u hjk (Nat.lt_succ_of_lt hkn)

/-- Behind a colon a brace opens a block if that ends a label, and an object otherwise. -/
theorem classify_of_answers (hanswers : t.answers = true) (label : Bool) :
    classify .curly (some t) label = if label then .block else .object := by
  have hawaits : Canonical.awaitsOperand t = true := by
    obtain ⟨hkind, hvalue⟩ := answers_iff.mp hanswers
    rw [Canonical.awaitsOperand, hkind, hvalue]
    decide
  rw [classify, Option.any_some, hawaits]
  rfl

/-- In a script whose brackets are well nested, what the canonical dialect takes a brace behind a
colon to open: a block if the colon answers no question mark and stands where statements do, and an
object literal otherwise. -/
theorem openerAt_behind_colon (hnested : WellNested (ts.filter Token.isBracket))
    (hcolon : answersAt ts j = true) (hlt : j < n)
    (hgap : ∀ k u, j < k → k < n → ts[k]? = some u → u.isSignificant = false)
    (hbrace : ts[n]?.bind Token.opens? = some .curly) :
    (∀ m ≤ ts.length, (lacking .initial ts).drop m = lacking (contextAt ts m) (ts.drop m)) ∧
      openerAt ts n
        = some (if answered? ts j = none ∧ AmongStatements ts j then .block else .object) := by
  refine ⟨fun m hm => lacking_contextAt ts hm, ?_⟩
  obtain ⟨colon, hj, hanswers⟩ : ∃ t, ts[j]? = some t ∧ t.answers = true := by
    rw [answersAt] at hcolon
    cases ht : ts[j]? with
    | none => rw [ht] at hcolon; contradiction
    | some t => exact ⟨t, rfl, by rw [ht] at hcolon; exact hcolon⟩
  obtain ⟨brace, hn, hopens⟩ := Option.bind_eq_some_iff.mp hbrace
  have hbrackets := checkBrackets_ok_iff.mpr hnested
  have hnlt := (List.getElem?_eq_some_iff.mp hn).1
  have hjlt := (List.getElem?_eq_some_iff.mp hj).1
  -- Between the colon and the brace nothing changes the context.
  have hbehind := contextAt_of_gap hlt (Nat.le_of_lt hnlt) hgap
  obtain ⟨hlast, hlabel⟩ :=
    contextAt_of_answers (counted_contextAt hbrackets (Nat.le_of_lt hjlt)) hj hanswers
  rw [openerAt, contextAt_succ hn, openers_of_opens hopens, List.head?_cons, hbehind, hlast,
    hlabel, classify_of_answers hanswers]
  simp only [decide_eq_true_eq]

/-- The tokens of a labelled block with a conditional that has another one inside brackets, a
comment behind its colon, and an object with a property as its last operand. -/
def labelledConditional : List Token :=
  placed 0 ([(.other, "l"), (.operator, ":"), (.punctuation, "\x7b"), (.other, "a"),
    (.operator, "?"), (.punctuation, "["), (.other, "b"), (.operator, "?"), (.other, "c"),
    (.operator, ":"), (.other, "d"), (.punctuation, "]"), (.operator, ":"), (.comment, "/**/"),
    (.punctuation, "\x7b"), (.other, "k"), (.operator, ":"), (.punctuation, "\x7b"),
    (.punctuation, "\x7d"), (.punctuation, "\x7d"), (.punctuation, "\x7d")].map
      fun p : Kind × String => ⟨0, p.1, Text.ofString p.2⟩)

/-- The brace behind the label opens a block, the one behind the comment an object since the colon
answers the outer question mark, and the innermost one an object since it stands in one. -/
theorem openerAt_behind_colon_labelled :
    answered? labelledConditional 1 = none ∧ openerAt labelledConditional 2 = some .block ∧
      answered? labelledConditional 12 = some 4 ∧
      openerAt labelledConditional 14 = some .object ∧
      answered? labelledConditional 16 = none ∧
      openerAt labelledConditional 17 = some .object := by
  have hnested : WellNested (labelledConditional.filter Token.isBracket) :=
    checkBrackets_ok_iff.mp (by decide +kernel)
  have hlabel := openerAt_behind_colon (j := 1) (n := 2) hnested (by decide +kernel) (by decide)
    (fun k u hk hk' => by omega) (by decide +kernel)
  have hconditional := openerAt_behind_colon (j := 12) (n := 14) hnested (by decide +kernel)
    (by decide)
    (fun k u hk hk' hu => by
      obtain rfl : k = 13 := by omega
      obtain rfl := Option.some.inj hu
      decide +kernel)
    (by decide +kernel)
  have hproperty := openerAt_behind_colon (j := 16) (n := 17) hnested (by decide +kernel)
    (by decide) (fun k u hk hk' => by omega) (by decide +kernel)
  refine ⟨by decide +kernel, hlabel.2.trans ?_, by decide +kernel, hconditional.2.trans ?_,
    by decide +kernel, hproperty.2.trans ?_⟩
  · decide +kernel
  · decide +kernel
  · decide +kernel

end Dialects.Script
