import Dialects.Text.Ranges

/-!
# Code points and their numbers

A code point is known by its number, so that a class of code points can be looked through number by
number.
-/

namespace Dialects

/-- The number of a code point determines it. -/
@[simp]
theorem CodePoint.ofNat?_val (c : CodePoint) : CodePoint.ofNat? c.val = some c := by
  cases c with
  | scalar c =>
    have hvalid : Nat.isValidChar c.toNat := c.valid
    rw [CodePoint.val, CodePoint.ofNat?, dif_pos hvalid]
    rfl
  | surrogate n =>
    have hinvalid : ¬ Nat.isValidChar (0xD800 + n.val) := by
      have hlt := n.isLt
      simp only [Nat.isValidChar]
      omega
    have hrange : 0xD800 ≤ 0xD800 + n.val ∧ 0xD800 + n.val < 0xE000 := by
      have hlt := n.isLt
      omega
    rw [CodePoint.val, CodePoint.ofNat?, dif_neg hinvalid, dif_pos hrange]
    simp

/-- The number of a code point between two characters lies between theirs. -/
theorem CodePoint.val_of_isBetween {lo hi : Char} {c : CodePoint} (h : c.isBetween lo hi = true) :
    lo.toNat ≤ c.val ∧ c.val ≤ hi.toNat := by
  cases c with
  | surrogate n => contradiction
  | scalar c =>
    simp only [CodePoint.isBetween, Bool.and_eq_true, decide_eq_true_eq] at h
    exact h

/-- A number of a class lies in one of its ranges. -/
theorem Ranges.exists_of_contains {rs : Ranges} {n : Nat} (h : rs.contains n = true) :
    ∃ r ∈ rs, r.1 ≤ n ∧ n ≤ r.2 := by
  induction rs with
  | nil => contradiction
  | cons r rs ih =>
    obtain ⟨lo, hi⟩ := r
    -- the ranges are in order, so that a number below one of them is in none
    by_cases hlo : n < lo
    · simp [Ranges.contains, hlo] at h
    simp only [Ranges.contains, if_neg hlo, Bool.or_eq_true, decide_eq_true_eq] at h
    rcases h with hhi | hrest
    · exact ⟨(lo, hi), List.mem_cons_self, Nat.le_of_not_lt hlo, hhi⟩
    · obtain ⟨r, hr, hbetween⟩ := ih hrest
      exact ⟨r, List.mem_cons_of_mem _ hr, hbetween⟩

end Dialects
