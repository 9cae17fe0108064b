import Dialects.Proofs.Json.Extension
import Dialects.Proofs.Json.Reading

/-!
# The grammar of the lenient dialect

A document in the lenient dialect is a list of tokens that `Derives` relates to a value: a token
that stands for a value, or an array or object with a comma or none behind each item or member.
Reading the tokens one by one accepts these lists and no others (`read_exact`).

What has been read so far is always what the state says (`Reached`): each step keeps that
(`Reached.step`), so that only what is derived is accepted. The other way round, the tokens that
derive a value are read as this value wherever a value may start (`Derives.run`). As reading has one
outcome, no list of tokens derives two values.
-/

namespace Dialects.Json

variable {t o c key colon : Token} {ts us vs : List Token} {k : Text} {v w : Value}
  {before : List Value} {members : List (Text × Value)} {outer : List Frame} {place : Place}
  {s s' : State}

/-! ## The grammar -/

/-- An item of an array: its tokens, the value that they are to derive, and the comma behind it, if
there is one. -/
structure Item where
  tokens : List Token
  value : Value
  comma : Option Token
  isComma : ∀ t ∈ comma, t.isMark ',' = true

/-- All tokens of an item. -/
def Item.all (i : Item) : List Token := i.tokens ++ i.comma.toList

/-- A member of an object: a key and a colon, and what is an item otherwise. -/
structure Member where
  key : Token
  name : Text
  names : Names key name
  colon : Token
  isColon : colon.isMark ':' = true
  item : Item

/-- All tokens of a member. -/
def Member.all (m : Member) : List Token := m.key :: m.colon :: m.item.all

/-- A member of the object that is read. -/
def Member.value (m : Member) : Text × Value := (m.name, m.item.value)

/-- The tokens are a document in the lenient dialect that has this value. -/
inductive Derives : List Token → Value → Prop
  | token {t : Token} {v : Value} (stands : Stands t v) : Derives [t] v
  | array {o c : Token} {items : List Item} (opens : o.isMark '[' = true)
      (derives : ∀ i ∈ items, Derives i.tokens i.value) (closes : c.isMark ']' = true) :
      Derives (o :: items.flatMap Item.all ++ [c]) (.array (items.map Item.value))
  | object {o c : Token} {members : List Member} (opens : o.isMark '\x7b' = true)
      (derives : ∀ m ∈ members, Derives m.item.tokens m.item.value)
      (closes : c.isMark '\x7d' = true) :
      Derives (o :: members.flatMap Member.all ++ [c]) (.object (members.map Member.value))

/-! ## What has been read -/

/-- The tokens of an array that is still open, with its items before, last one first. -/
inductive OpenArray : Token → List Value → List Token → Prop
  | intro {o : Token} {items : List Item} (opens : o.isMark '[' = true)
      (derives : ∀ i ∈ items, Derives i.tokens i.value) :
      OpenArray o (items.map Item.value).reverse (o :: items.flatMap Item.all)

/-- The tokens of an object that is still open, with its members before, last one first. -/
inductive OpenObject : Token → List (Text × Value) → List Token → Prop
  | intro {o : Token} {members : List Member} (opens : o.isMark '\x7b' = true)
      (derives : ∀ m ∈ members, Derives m.item.tokens m.item.value) :
      OpenObject o (members.map Member.value).reverse (o :: members.flatMap Member.all)

/-- The tokens of the arrays and objects around the value that comes next. -/
inductive Around : List Frame → List Token → Prop
  | nil : Around [] []
  | array {o : Token} {before : List Value} {outer : List Frame} {ts us : List Token}
      (around : Around outer ts) (inside : OpenArray o before us) :
      Around (.array o before :: outer) (ts ++ us)
  | member {o key colon : Token} {before : List (Text × Value)} {k : Text} {outer : List Frame}
      {ts us : List Token} (around : Around outer ts) (inside : OpenObject o before us)
      (names : Names key k) (isColon : colon.isMark ':' = true) :
      Around (.member o before k :: outer) (ts ++ us ++ [key, colon])

/-- The tokens that have been read in a state. Behind an item or member, its comma may still come,
so that it is not counted among those before. -/
inductive Reached : State → List Token → Prop
  | value {outer : List Frame} {ts : List Token} (around : Around outer ts) :
      Reached (.value outer) ts
  | item {place : Place} {o : Token} {before : List Value} {outer : List Frame}
      {ts us : List Token} (hplace : place ≠ .ended) (around : Around outer ts)
      (inside : OpenArray o before us) : Reached (.item place o before outer) (ts ++ us)
  | itemEnded {o : Token} {before : List Value} {outer : List Frame} {ts us vs : List Token}
      {v : Value} (around : Around outer ts) (inside : OpenArray o before us)
      (derives : Derives vs v) :
      Reached (.item .ended o (v :: before) outer) (ts ++ us ++ vs)
  | key {place : Place} {o : Token} {before : List (Text × Value)} {outer : List Frame}
      {ts us : List Token} (hplace : place ≠ .ended) (around : Around outer ts)
      (inside : OpenObject o before us) : Reached (.key place o before outer) (ts ++ us)
  | keyEnded {o key colon : Token} {before : List (Text × Value)} {k : Text} {outer : List Frame}
      {ts us vs : List Token} {v : Value} (around : Around outer ts)
      (inside : OpenObject o before us) (names : Names key k)
      (isColon : colon.isMark ':' = true) (derives : Derives vs v) :
      Reached (.key .ended o ((k, v) :: before) outer) (ts ++ us ++ [key, colon] ++ vs)
  | colon {o key : Token} {before : List (Text × Value)} {k : Text} {outer : List Frame}
      {ts us : List Token} (around : Around outer ts) (inside : OpenObject o before us)
      (names : Names key k) : Reached (.colon o before k outer) (ts ++ us ++ [key])
  | done {ts : List Token} {v : Value} (derives : Derives ts v) : Reached (.done v) ts

/-- A value and perhaps a comma lengthen an open array. -/
theorem OpenArray.item (h : OpenArray o before us) (hv : Derives vs v) (comma : Option Token)
    (hcomma : ∀ t ∈ comma, t.isMark ',' = true) :
    OpenArray o (v :: before) (us ++ (vs ++ comma.toList)) := by
  cases h with
  | @intro items opens derives =>
    have hmore : ∀ i ∈ items ++ [⟨vs, v, comma, hcomma⟩], Derives i.tokens i.value :=
      List.forall_mem_append.mpr ⟨derives, List.forall_mem_singleton.mpr hv⟩
    have hopen := OpenArray.intro opens hmore
    rw [List.map_append, List.reverse_append, List.flatMap_append, List.flatMap_singleton] at hopen
    exact hopen

/-- A key, a colon, a value and perhaps a comma lengthen an open object. -/
theorem OpenObject.member (h : OpenObject o members us) (hkey : Names key k)
    (hcolon : colon.isMark ':' = true) (hv : Derives vs v) (comma : Option Token)
    (hcomma : ∀ t ∈ comma, t.isMark ',' = true) :
    OpenObject o ((k, v) :: members) (us ++ (key :: colon :: (vs ++ comma.toList))) := by
  cases h with
  | @intro before opens derives =>
    have hmore : ∀ m ∈ before ++ [⟨key, k, hkey, colon, hcolon, ⟨vs, v, comma, hcomma⟩⟩],
        Derives m.item.tokens m.item.value :=
      List.forall_mem_append.mpr ⟨derives, List.forall_mem_singleton.mpr hv⟩
    have hopen := OpenObject.intro opens hmore
    rw [List.map_append, List.reverse_append, List.flatMap_append, List.flatMap_singleton] at hopen
    exact hopen

/-- A closing bracket makes a value of an open array. -/
theorem OpenArray.close (h : OpenArray o before us) (hc : c.isMark ']' = true) :
    Derives (us ++ [c]) (.array before.reverse) := by
  cases h with
  | intro opens derives =>
    rw [List.reverse_reverse]
    exact .array opens derives hc

/-- A closing brace makes a value of an open object. -/
theorem OpenObject.close (h : OpenObject o members us) (hc : c.isMark '\x7d' = true) :
    Derives (us ++ [c]) (.object members.reverse) := by
  cases h with
  | intro opens derives =>
    rw [List.reverse_reverse]
    exact .object opens derives hc

/-- A value that has been read ends an item, a member or the document. -/
theorem Around.deliver (h : Around outer ts) (hv : Derives us v) :
    Reached (.deliver v outer) (ts ++ us) := by
  cases h with
  | nil => exact .done hv
  | array around inside => exact .itemEnded around inside hv
  | member around inside names isColon => exact .keyEnded around inside names isColon hv

/-- The token that a value begins with has been read in the next state. -/
theorem Around.begins (h : Around outer ts) (hs : Begins t outer s) : Reached s (ts ++ [t]) := by
  cases hs with
  | object opens =>
    have hopen : OpenObject t [] [t] := .intro opens (List.forall_mem_nil _)
    exact .key (by decide) h hopen
  | array opens =>
    have hopen : OpenArray t [] [t] := .intro opens (List.forall_mem_nil _)
    exact .item (by decide) h hopen
  | value stands => exact h.deliver (.token stands)

/-- Where an item may start or the array may end, the tokens are those of an open array. -/
theorem Reached.openArray (h : Reached (.item place o before outer) ts) :
    ∃ us vs, ts = us ++ vs ∧ Around outer us ∧ OpenArray o before vs := by
  cases h with
  | item hplace around inside => exact ⟨_, _, rfl, around, inside⟩
  | itemEnded around inside derives =>
    -- No comma has been read behind the last item.
    have hitem := inside.item derives none fun t ht => by contradiction
    rw [Option.toList_none, List.append_nil] at hitem
    exact ⟨_, _, List.append_assoc _ _ _, around, hitem⟩

/-- Where a member may start or the object may end, the tokens are those of an open object. -/
theorem Reached.openObject (h : Reached (.key place o members outer) ts) :
    ∃ us vs, ts = us ++ vs ∧ Around outer us ∧ OpenObject o members vs := by
  cases h with
  | key hplace around inside => exact ⟨_, _, rfl, around, inside⟩
  | keyEnded around inside names isColon derives =>
    -- a member that has ended joins those in front of it, with no comma of its own
    have hmember := inside.member names isColon derives none fun t ht => by contradiction
    rw [Option.toList_none, List.append_nil] at hmember
    refine ⟨_, _, ?_, around, hmember⟩
    rw [List.append_assoc, List.append_assoc]
    rfl

/-- A comma behind an item belongs to it. -/
theorem Reached.itemComma (h : Reached (.item .ended o before outer) ts)
    (hcomma : t.isMark ',' = true) : Reached (.item .comma o before outer) (ts ++ [t]) := by
  cases h with
  | item hplace => contradiction
  | itemEnded around inside derives =>
    -- the item joins those in front of it together with its comma
    have hitem := inside.item derives (some t) fun u hu => by
      obtain rfl := Option.some.inj hu
      exact hcomma
    rw [List.append_assoc, List.append_assoc]
    exact .item (by decide) around hitem

/-- A comma behind a member belongs to it. -/
theorem Reached.memberComma (h : Reached (.key .ended o members outer) ts)
    (hcomma : t.isMark ',' = true) : Reached (.key .comma o members outer) (ts ++ [t]) := by
  cases h with
  | key hplace => contradiction
  | keyEnded around inside names isColon derives =>
    have hmember := inside.member names isColon derives (some t) fun u hu => by
      obtain rfl := Option.some.inj hu
      exact hcomma
    rw [List.append_assoc, List.append_assoc, List.append_assoc]
    exact .key (by decide) around hmember

/-- What has been read in a state and the token that is read next have been read in the next
state. -/
theorem Reached.step (h : Reached s ts) (hs : Step .lenient t s s') : Reached s' (ts ++ [t]) := by
  cases hs with
  | value begins =>
    cases h with
    | value around => exact around.begins begins
  | item _ begins =>
    -- Also where no comma has been read, what is read starts another item.
    obtain ⟨us, vs, rfl, around, inside⟩ := h.openArray
    exact (Around.array around inside).begins begins
  | itemComma comma => exact h.itemComma comma
  | itemClose _ closes =>
    -- The array ends, be it behind a comma or not, and is the next value of what is around it.
    obtain ⟨us, vs, rfl, around, inside⟩ := h.openArray
    rw [List.append_assoc]
    exact around.deliver (inside.close closes)
  | key _ names _ =>
    obtain ⟨us, vs, rfl, around, inside⟩ := h.openObject
    exact .colon around inside names
  | keyComma comma => exact h.memberComma comma
  | keyClose _ closes =>
    obtain ⟨us, vs, rfl, around, inside⟩ := h.openObject
    rw [List.append_assoc]
    exact around.deliver (inside.close closes)
  | colon isColon =>
    cases h with
    | colon around inside names =>
      rw [List.append_assoc]
      exact .value (.member around inside names isColon)

/-- What has been read in a state and all tokens that are read next have been read in the state that
they lead to. -/
theorem Reached.run (h : Reached s ts) (hrun : runIn .lenient s us = .ok s') :
    Reached s' (ts ++ us) := by
  induction us generalizing s ts with
  | nil =>
    obtain rfl := Except.ok.inj hrun
    rw [List.append_nil]
    exact h
  | cons u us ih =>
    obtain ⟨next, hstep, hrest⟩ := runIn_cons_eq_ok_iff.mp hrun
    have hreached := ih (h.step hstep) hrest
    rw [List.append_assoc] at hreached
    exact hreached

/-! ## What is read -/

/-- Reading entry by entry: `st` gives the state at a place behind some of them, and `hread` says
what each of them does to it. -/
theorem run_flatMap {α β : Type} (st : Place → List α → State) (all : β → List Token)
    (value : β → α) {xs : List β}
    (hread : ∀ x ∈ xs, ∀ place before, ∃ place',
      runIn .lenient (st place before) (all x) = .ok (st place' (value x :: before)))
    (place : Place) (before : List α) :
    ∃ place', runIn .lenient (st place before) (xs.flatMap all)
      = .ok (st place' ((xs.map value).reverse ++ before)) := by
  -- the induction is on the entries, each of which leaves some place behind
  induction xs generalizing place before with
  | nil => exact ⟨place, rfl⟩
  | cons x xs ih =>
    obtain ⟨hx, hxs⟩ := List.forall_mem_cons.mp hread
    obtain ⟨next, hnext⟩ := hx place before
    obtain ⟨last, hlast⟩ := ih hxs next (value x :: before)
    refine ⟨last, ?_⟩
    rw [List.flatMap_cons, runIn_append hnext, hlast, List.map_cons, List.reverse_cons,
      List.append_assoc]
    rfl

/-- Wherever a value may start, the tokens are read as this one. -/
def ReadAs (ts : List Token) (v : Value) : Prop :=
  ∀ (st : State) (outer : List Frame), st.Expects .lenient outer →
    runIn .lenient st ts = .ok (.deliver v outer)

/-- An item is read into the array that is open. -/
theorem Item.run {i : Item} (h : ReadAs i.tokens i.value) (o : Token) (outer : List Frame)
    (place : Place) (before : List Value) :
    ∃ place', runIn .lenient (.item place o before outer) i.all
      = .ok (.item place' o (i.value :: before) outer) := by
  have hexpects : (State.item place o before outer).Expects .lenient (.array o before :: outer) :=
    expects_item (Or.inr rfl) o before outer
  have hvalue := h _ _ hexpects
  rw [Item.all, runIn_append hvalue]
  cases hcomma : i.comma with
  | none => exact ⟨.ended, rfl⟩
  | some t => exact ⟨.comma, runIn_cons (.itemComma (i.isComma t hcomma)) []⟩

/-- A member is read into the object that is open. -/
theorem Member.run {m : Member} (h : ReadAs m.item.tokens m.item.value) (o : Token)
    (outer : List Frame) (place : Place) (before : List (Text × Value)) :
    ∃ place', runIn .lenient (.key place o before outer) m.all
      = .ok (.key place' o (m.value :: before) outer) := by
  have hvalue := h _ _ (expects_value (.member o before m.name :: outer))
  rw [Member.all, runIn_cons (.key (Or.inr rfl) m.names (Or.inr rfl)),
    runIn_cons (.colon m.isColon), Item.all, runIn_append hvalue]
  cases hcomma : m.item.comma with
  | none => exact ⟨.ended, rfl⟩
  | some t => exact ⟨.comma, runIn_cons (.keyComma (m.item.isComma t hcomma)) []⟩

/-- Tokens that derive a value are read as this value. -/
theorem Derives.run (h : Derives ts v) : ReadAs ts v := by
  -- The induction is on the derivation: each item and member is read as what it derives.
  induction h with
  | token stands =>
    intro st outer hst
    rw [runIn_cons (hst.step (.value stands)), runIn_nil]
  | @array o c items opens derives closes ih =>
    intro st outer hst
    obtain ⟨place, hitems⟩ := run_flatMap (fun place before => .item place o before outer) Item.all
      Item.value (fun i hi => Item.run (ih i hi) o outer) .opened []
    rw [List.cons_append, runIn_cons (hst.step (.array opens)), runIn_append hitems,
      runIn_cons (.itemClose (Or.inr rfl) closes), runIn_nil, List.append_nil,
      List.reverse_reverse]
  | @object o c members opens derives closes ih =>
    intro st outer hst
    obtain ⟨place, hmembers⟩ := run_flatMap (fun place before => .key place o before outer)
      Member.all Member.value (fun m hm => Member.run (ih m hm) o outer) .opened []
    rw [List.cons_append, runIn_cons (hst.step (.object opens)), runIn_append hmembers,
      runIn_cons (.keyClose (Or.inr rfl) closes), runIn_nil, List.append_nil,
      List.reverse_reverse]

/-! ## The lenient dialect and its grammar -/

/-- The lenient dialect reads just the tokens that the grammar derives. -/
theorem Lenient.read_iff_derives (length : Nat) (ts : List Token) (v : Value) :
    Lenient.read length ts = .ok v ↔ Derives ts v := by
  rw [Lenient.read_eq_ok_iff]
  constructor
  · intro h
    -- Nothing is open any more, so that all the tokens are those of the document.
    have hreached : Reached (.done v) ts := (Reached.value .nil).run h
    cases hreached with
    | done derives => exact derives
  · intro h
    exact h.run (.value []) [] (expects_value [])

/-- The lenient dialect accepts its grammar and nothing else: tokens are read as a value if and only
if they derive it, which at most one value is, and fail if they derive none. -/
theorem Lenient.read_exact (length : Nat) (ts : List Token) :
    (∀ v, Lenient.read length ts = .ok v ↔ Derives ts v) ∧
      (∀ v w, Derives ts v → Derives ts w → v = w) ∧
      ((∃ f, Lenient.read length ts = .error f) ↔ ∀ v, ¬ Derives ts v) := by
  have hiff := Lenient.read_iff_derives length ts
  -- that at most one value is derived follows from what is read
  refine ⟨hiff, fun v w hv hw => ?_, ?_⟩
  · have hread := (hiff w).mpr hw
    rw [(hiff v).mpr hv] at hread
    exact Except.ok.inj hread
  · cases hread : Lenient.read length ts with
    | error f =>
      refine iff_of_true ⟨f, rfl⟩ fun v hv => ?_
      rw [(hiff v).mpr hv] at hread
      contradiction
    | ok v =>
      refine iff_of_false (fun h => ?_) fun hnone => hnone v ((hiff v).mp hread)
      obtain ⟨f, hf⟩ := h
      contradiction

/-- The tokens of marks and words, at no particular places. -/
def Token.bare (kind : Kind) (text : String) : Token := ⟨kind, Text.ofString text, 0⟩

/-- The tokens of `{a:[1 2,]}`: a word for a key, no comma between the items, and one behind the
last of them. -/
def arrayTokens : List Token :=
  [.bare .punctuation "\x7b", .bare .word "a", .bare .punctuation ":", .bare .punctuation "[",
    .bare .number "1", .bare .number "2", .bare .punctuation ",", .bare .punctuation "]",
    .bare .punctuation "\x7d"]

/-- An array inside an object is derived as it is read, and nothing else is. -/
theorem Lenient.read_exact_array (v : Value) :
    Derives arrayTokens v ↔ v = .object [(Text.ofString "a",
      .array [.number (Text.ofString "1"), .number (Text.ofString "2")])] := by
  obtain ⟨hread, hunique, -⟩ := Lenient.read_exact 0 arrayTokens
  have hderives := (hread (.object [(Text.ofString "a",
    .array [.number (Text.ofString "1"), .number (Text.ofString "2")])])).mp rfl
  exact ⟨fun h => hunique _ _ h hderives, fun h => h ▸ hderives⟩

/-- A comma in front of the first item is not read. -/
example : (Lenient.read 3 [.bare .punctuation "[", .bare .punctuation ",",
    .bare .punctuation "]"]).toOption = none := rfl

end Dialects.Json
