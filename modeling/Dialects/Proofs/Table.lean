/-!
# Looking up in tables

A table is a list of pairs of a key and a value. The entries of a key are dropped by a filter, and a
new one is put at the end.
-/

namespace Dialects

variable {α β : Type} [DecidableEq α] {a b : α}

theorem lookup_filter_self (a : α) (t : List (α × β)) :
    (t.filter fun p => p.1 ≠ a).lookup a = none := by
  refine List.lookup_eq_none_iff.mpr fun p hp => ?_
  have hne := (List.mem_filter.mp hp).2
  simp only [ne_eq, decide_eq_true_eq] at hne
  exact bne_iff_ne.mpr (Ne.symm hne)

theorem lookup_filter_of_ne (ha : a ≠ b) (t : List (α × β)) :
    (t.filter fun p => p.1 ≠ b).lookup a = t.lookup a := by
  induction t with
  | nil => rfl
  | cons p t ih =>
    obtain ⟨k, l⟩ := p
    by_cases hk : k = b
    · have hne : (a == k) = false := by simpa [hk] using ha
      rw [List.filter_cons_of_neg (by simpa using hk), ih, List.lookup_cons, hne]
    · rw [List.filter_cons_of_pos (by simpa using hk), List.lookup_cons, List.lookup_cons, ih]

theorem lookup_append_self {t : List (α × β)} (hfree : t.lookup a = none) (l : β) :
    (t ++ [(a, l)]).lookup a = some l := by
  rw [List.lookup_append, hfree]
  simp

theorem lookup_append_of_ne (ha : a ≠ b) (t : List (α × β)) (l : β) :
    (t ++ [(b, l)]).lookup a = t.lookup a := by
  have hne : (a == b) = false := by simpa using ha
  rw [List.lookup_append, List.lookup_cons, hne]
  simp

theorem mem_keys_of_lookup {t : List (α × β)} {l : β} (h : t.lookup a = some l) :
    a ∈ t.map Prod.fst := by
  obtain ⟨before, after, rfl, -⟩ := List.lookup_eq_some_iff.mp h
  rw [List.map_append, List.map_cons]
  exact List.mem_append_right _ List.mem_cons_self

theorem not_mem_keys_of_lookup {t : List (α × β)} (h : t.lookup a = none) :
    a ∉ t.map Prod.fst := by
  intro hmem
  obtain ⟨p, hp, rfl⟩ := List.mem_map.mp hmem
  exact bne_iff_ne.mp (List.lookup_eq_none_iff.mp h p hp) rfl

/-- A table of what a function gives for some keys. -/
theorem lookup_filterMap (f : α → Option β) (keys : List α) :
    (keys.filterMap fun k => (f k).map (k, ·)).lookup a = if a ∈ keys then f a else none := by
  induction keys with
  | nil => rfl
  | cons k keys ih =>
    rw [List.filterMap_cons]
    by_cases hk : a = k
    · subst hk
      rw [if_pos List.mem_cons_self]
      cases hf : f a with
      | none => rw [Option.map_none, ih, hf, ite_self]
      | some l => rw [Option.map_some, List.lookup_cons_self]
    · have hne : (a == k) = false := beq_false_of_ne hk
      have hmem : a ∈ k :: keys ↔ a ∈ keys := by rw [List.mem_cons, or_iff_right hk]
      simp only [hmem]
      cases f k with
      | none => exact ih
      | some l => rw [Option.map_some, List.lookup_cons, hne, ih]

end Dialects
