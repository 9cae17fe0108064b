import Dialects.Proofs.Json.Number
import Dialects.Proofs.Json.Steps

/-!
# Documents that can be written down

A document keeps the spelling of its numbers, so it can be written down only if each of them is
spelled like a number (`Value.WellFormed`). Every document that has been read can: whatever either
dialect cuts off a text as a number is one (`Canonical.lexFrom_sound`, `Lenient.lexFrom_sound`), and
no step of reading makes up a number (`Step.wellFormed`).
-/

namespace Dialects.Json

/-- Every number of the document is spelled like one. -/
inductive Value.WellFormed : Value → Prop where
  | null : WellFormed .null
  | bool (b : Bool) : WellFormed (.bool b)
  | number (t : Text) (h : IsNumber t) : WellFormed (.number t)
  | string (content : Text) : WellFormed (.string content)
  | array (items : List Value) (h : ∀ v ∈ items, WellFormed v) : WellFormed (.array items)
  | object (members : List (Text × Value)) (h : ∀ m ∈ members, WellFormed m.2) :
      WellFormed (.object members)

open Value (WellFormed)

/-! ## Tokens -/

/-- A token that is called a number is one. -/
def Token.Sound (t : Token) : Prop := t.kind = .number → IsNumber t.text

/-- A code point and what is cut off behind it are a number if it is measured as one. -/
theorem isNumber_cons_take {c : CodePoint} {rest : Text} {n : Nat}
    (h : numberLength (c :: rest) = n + 1) : IsNumber (c :: rest.take n) := by
  have htake := isNumber_take (t := c :: rest) (by rw [h]; exact Nat.succ_ne_zero n)
  rwa [h, List.take_succ_cons] at htake

/-- The canonical dialect calls only numbers so. -/
theorem Canonical.tokenAt_number {c : CodePoint} {rest : Text} {n : Nat}
    (h : Canonical.tokenAt c rest = (.number, n)) : IsNumber (c :: rest.take n) := by
  unfold Canonical.tokenAt at h
  split at h
  · simp at h
  split at h
  · simp at h
  split at h
  · simp at h
  split at h
  · simp at h
  · next m hm =>
    obtain rfl : m = n := (Prod.mk.inj h).2
    exact isNumber_cons_take hm

/-- The lenient dialect calls only numbers so. -/
theorem Lenient.tokenAt?_number {c : CodePoint} {rest : Text} {n : Nat}
    (h : Lenient.tokenAt? c rest = some (.number, n)) : IsNumber (c :: rest.take n) := by
  unfold Lenient.tokenAt? at h
  split at h
  · -- marks and strings come first, and words last, so only a positive length of a number is left
    simp at h
  split at h
  · simp at h
  split at h
  · next m hm =>
    obtain rfl : m = n := (Prod.mk.inj (Option.some.inj h)).2
    exact isNumber_cons_take hm
  · split at h <;> simp at h

/-- Every number of a text in the canonical dialect is one. -/
theorem Canonical.lexFrom_sound (offset : Nat) (text : Text) :
    ∀ t ∈ Canonical.lexFrom offset text, t.Sound := by
  fun_induction Canonical.lexFrom offset text with
  | case1 => simp
  | case2 offset c rest hblank ih => exact ih
  | case3 offset c rest hblank kind n htoken ih =>
    intro t ht
    obtain rfl | ht := List.mem_cons.mp ht
    · intro hkind
      obtain rfl : kind = .number := hkind
      exact Canonical.tokenAt_number htoken
    · exact ih t ht

/-- Every number of a text in the lenient dialect is one. -/
theorem Lenient.lexFrom_sound {offset : Nat} {text : Text} {ts : List Token}
    (h : Lenient.lexFrom offset text = .ok ts) : ∀ t ∈ ts, t.Sound := by
  fun_induction Lenient.lexFrom offset text generalizing ts with
  | case1 =>
    obtain rfl := Except.ok.inj h
    simp
  | case2 offset c rest n hgap ih => exact ih h
  | case3 => contradiction
  | case4 offset c rest hgap kind n htoken ih =>
    cases hrest : Lenient.lexFrom (offset + 1 + n) (rest.drop n) with
    | error f => rw [hrest] at h; contradiction
    | ok us =>
      rw [hrest] at h
      obtain rfl := Except.ok.inj h
      intro t ht
      obtain rfl | ht := List.mem_cons.mp ht
      · -- only a token that is a number has to be one
        intro hkind
        obtain rfl : kind = .number := hkind
        exact Lenient.tokenAt?_number htoken
      · exact ih hrest t ht

/-! ## States -/

/-- Whatever stands before the value being read is well formed. -/
def Frame.WellFormed : Frame → Prop
  | .array _ before => ∀ v ∈ before, v.WellFormed
  | .member _ before _ => ∀ m ∈ before, m.2.WellFormed

/-- Whatever has been read is well formed. -/
def State.WellFormed : State → Prop
  | .value outer => ∀ f ∈ outer, f.WellFormed
  | .item _ _ before outer => (∀ v ∈ before, v.WellFormed) ∧ ∀ f ∈ outer, f.WellFormed
  | .key _ _ before outer => (∀ m ∈ before, m.2.WellFormed) ∧ ∀ f ∈ outer, f.WellFormed
  | .colon _ before _ outer => (∀ m ∈ before, m.2.WellFormed) ∧ ∀ f ∈ outer, f.WellFormed
  | .done v => v.WellFormed

/-- A well-formed value that is delivered leaves all that is open well formed. -/
theorem State.deliver_wellFormed {v : Value} {outer : List Frame} (hv : v.WellFormed)
    (houter : ∀ f ∈ outer, f.WellFormed) : (State.deliver v outer).WellFormed := by
  cases outer with
  | nil => exact hv
  | cons f outer =>
    have hbefore : f.WellFormed := houter f List.mem_cons_self
    have hrest : ∀ g ∈ outer, g.WellFormed := fun g hg => houter g (List.mem_cons_of_mem f hg)
    cases f with
    | array o before => exact ⟨List.forall_mem_cons.mpr ⟨hv, hbefore⟩, hrest⟩
    | member o before k => exact ⟨List.forall_mem_cons.mpr ⟨hv, hbefore⟩, hrest⟩

/-- A closed array of well-formed values is delivered as one. -/
theorem State.deliver_array_wellFormed {before : List Value} {outer : List Frame}
    (hbefore : ∀ v ∈ before, v.WellFormed) (houter : ∀ f ∈ outer, f.WellFormed) :
    (State.deliver (.array before.reverse) outer).WellFormed :=
  State.deliver_wellFormed (.array _ fun v hv => hbefore v (List.mem_reverse.mp hv)) houter

/-- A closed object of well-formed values is delivered as one. -/
theorem State.deliver_object_wellFormed {before : List (Text × Value)} {outer : List Frame}
    (hbefore : ∀ m ∈ before, m.2.WellFormed) (houter : ∀ f ∈ outer, f.WellFormed) :
    (State.deliver (.object before.reverse) outer).WellFormed :=
  State.deliver_wellFormed (.object _ fun m hm => hbefore m (List.mem_reverse.mp hm)) houter

/-- Before the first token nothing has been read. -/
theorem State.wellFormed_start : (State.value []).WellFormed :=
  List.forall_mem_nil _

/-- The words for values stand for well-formed ones. -/
theorem reserved?_wellFormed {t : Text} {v : Value} (h : reserved? t = some v) :
    v.WellFormed := by
  simp only [reserved?, reserved, List.lookup_cons, List.lookup_nil] at h
  repeat' split at h
  · obtain rfl := Option.some.inj h
    exact .bool true
  · obtain rfl := Option.some.inj h
    exact .bool false
  · obtain rfl := Option.some.inj h
    exact .null
  · contradiction

/-- A token of a sound text stands for a well-formed value. -/
theorem Stands.wellFormed {t : Token} {v : Value} (h : Stands t v) (ht : t.Sound) :
    v.WellFormed := by
  cases h with
  | string => exact .string _
  | number kind => exact .number _ (ht kind)
  | word _ reserved => exact reserved?_wellFormed reserved

theorem Begins.wellFormed {t : Token} {outer : List Frame} {s : State} (h : Begins t outer s)
    (ht : t.Sound) (houter : ∀ f ∈ outer, f.WellFormed) : s.WellFormed := by
  cases h with
  | object | array => exact ⟨List.forall_mem_nil _, houter⟩
  | value stands => exact State.deliver_wellFormed (stands.wellFormed ht) houter

/-- Both dialects read well-formed documents only. -/
theorem Step.wellFormed {d : Style} {t : Token} {s s' : State} (h : Step d t s s')
    (ht : t.Sound) (hs : s.WellFormed) : s'.WellFormed := by
  cases h with
  | value begins => exact begins.wellFormed ht hs
  | item _ begins => exact begins.wellFormed ht (List.forall_mem_cons.mpr hs)
  | itemComma | keyComma => exact hs
  | itemClose => exact State.deliver_array_wellFormed hs.1 hs.2
  | keyClose => exact State.deliver_object_wellFormed hs.1 hs.2
  -- A key does not change what stands before it.
  | key => exact hs
  | colon => exact List.forall_mem_cons.mpr hs

/-! ## Documents -/

/-- What sound tokens spell is well formed. -/
theorem wellFormed_of_runIn {d : Style} {ts : List Token} {v : Value}
    (hts : ∀ t ∈ ts, t.Sound) (h : runIn d (.value []) ts = .ok (.done v)) : v.WellFormed :=
  runIn_keeps State.wellFormed_start (fun t ht _ _ hstep => hstep.wellFormed (hts t ht)) h

/-- A document in the canonical dialect is well formed. -/
theorem Canonical.parse_wellFormed {text : Text} {v : Value}
    (h : Canonical.parse text = .ok v) : v.WellFormed := by
  obtain ⟨-, hrun⟩ := Canonical.parse_eq_ok_iff.mp h
  exact wellFormed_of_runIn (Canonical.lexFrom_sound 0 text) hrun

/-- A document in the lenient dialect is well formed. -/
theorem Lenient.parse_wellFormed {text : Text} {v : Value}
    (h : Lenient.parse text = .ok v) : v.WellFormed := by
  obtain ⟨ts, hlex, hrun⟩ := Lenient.parse_eq_ok_iff.mp h
  exact wellFormed_of_runIn (Lenient.lexFrom_sound hlex) hrun

end Dialects.Json
