import Dialects.Proofs.Script.Steps

/-!
# Lists of tokens that texts are cut into

Cutting a text is described without offsets: a list of tokens is `Lexed` if each of them is the
first token of the text that it and those behind it cover. The function `lexFrom` finds such a list
and places it (`placed`).
-/

namespace Dialects.Script

open CodePoint (scalar)

variable {s : LexState} {t : Token} {ts : List Token} {text : Text}

/-- The state after a token of some length whose text is known. -/
def Step.after (a : Step) (value : Text) : LexState := ⟨a.mode, a.interpolations, value.getLast?⟩

/-- Each token is the first one of the text from there on. -/
inductive Lexed : LexState → List Token → Prop
  | nil {s : LexState} : Lexed s []
  | cons {s : LexState} {t : Token} {ts : List Token} {a : Step}
      (first : Step.first? s (t.value ++ Token.join ts) = some a) (kind : t.kind = a.kind)
      (length : t.value.length = a.length - 1 + 1) (rest : Lexed (a.after t.value) ts) :
      Lexed s (t :: ts)

/-- The tokens at the places where they stand if the first one stands at `offset`. -/
def placed (offset : Nat) : List Token → List Token
  | [] => []
  | t :: ts => { t with offset := offset } :: placed (offset + t.value.length) ts

@[simp]
theorem join_nil : Token.join [] = [] := rfl

@[simp]
theorem join_cons (t : Token) (ts : List Token) :
    Token.join (t :: ts) = t.value ++ Token.join ts := rfl

@[simp]
theorem placed_placed (offset offset' : Nat) (ts : List Token) :
    placed offset (placed offset' ts) = placed offset ts := by
  induction ts generalizing offset offset' with
  | nil => rfl
  | cons t ts ih => rw [placed, placed, placed, ih]

/-- Cutting off the first token. -/
theorem lexFrom_append {value rest : Text} {a : Step} (hlength : value.length = a.length - 1 + 1)
    (hfirst : Step.first? s (value ++ rest) = some a) (offset : Nat) :
    lexFrom s offset (value ++ rest) =
      (lexFrom (a.after value) (offset + value.length) rest).map
        (Token.mk offset a.kind value :: ·) := by
  cases value with
  | nil => contradiction
  | cons c value =>
    -- what is cut off behind the first code point is the rest of the value
    have hmore : value.length = a.length - 1 := Nat.succ.inj hlength
    rw [List.cons_append] at hfirst
    rw [List.cons_append, lexFrom, hfirst]
    simp only [← hmore, List.take_left, List.drop_left]
    rfl

theorem lexFrom_join (h : Lexed s ts) (offset : Nat) :
    lexFrom s offset (Token.join ts) = .ok (placed offset ts) := by
  induction h generalizing offset with
  | nil => rw [join_nil, lexFrom, placed]
  | cons first kind length rest ih =>
    rw [join_cons, lexFrom_append length first, ih, placed, ← kind]
    rfl

/-- Every list that `lexFrom` gives is placed, and each of its tokens is the first one from
there on. -/
theorem lexed_of_lexFrom {offset : Nat} (h : lexFrom s offset text = .ok ts) :
    Lexed s ts ∧ Token.join ts = text ∧ placed offset ts = ts := by
  -- The induction is on what is left of the text: every token takes at least one code point.
  induction hn : text.length using Nat.strongRecOn generalizing s offset text ts with
  | ind n ih =>
    cases text with
    | nil =>
      rw [lexFrom] at h
      obtain rfl := Except.ok.inj h
      exact ⟨.nil, rfl, rfl⟩
    | cons c rest =>
      cases hfirst : Step.first? s (c :: rest) with
      | none =>
        rw [lexFrom, hfirst] at h
        contradiction
      | some a =>
        -- A token does not reach beyond the text, so that it can be split off.
        have hle : a.length ≤ rest.length + 1 := (local_first s).le hfirst
        have hlength : (c :: rest.take (a.length - 1)).length = a.length - 1 + 1 := by
          rw [List.length_cons, List.length_take, Nat.min_eq_left (by omega)]
        have hsplit : c :: rest = (c :: rest.take (a.length - 1)) ++ rest.drop (a.length - 1) := by
          rw [List.cons_append, List.take_append_drop]
        rw [hsplit] at h hfirst
        rw [lexFrom_append hlength hfirst] at h
        cases hrest : lexFrom (a.after (c :: rest.take (a.length - 1)))
            (offset + (c :: rest.take (a.length - 1)).length) (rest.drop (a.length - 1)) with
        | error f =>
          rw [hrest] at h
          contradiction
        | ok ts' =>
          rw [hrest] at h
          obtain rfl := Except.ok.inj h
          have hshorter : (rest.drop (a.length - 1)).length < n := by
            rw [List.length_drop]
            rw [List.length_cons] at hn
            omega
          obtain ⟨hlexed, hjoin, hplaced⟩ := ih _ hshorter hrest rfl
          refine ⟨.cons ?_ rfl hlength hlexed, ?_, ?_⟩
          · rw [hjoin]
            exact hfirst
          · rw [join_cons, hjoin]
            exact hsplit.symm
          · rw [placed, hplaced]

end Dialects.Script
