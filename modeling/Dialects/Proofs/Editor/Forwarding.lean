import Dialects.Editor.Forwarding
import Dialects.Proofs.Table

/-!
# Stand-ins are faithful

What a name of an object stands for is said here by rules (`Resolves`): a property of a class goes
before what the object holds itself, that before all other members of its classes, and among these
the class decides that comes first in the order of look-up. An object offers what can be called by
that name, a class excepted, bound as its kind asks (`Offers`).

A stand-in is made without these rules, from names that are collected of all classes, overridden or
not, and from two look-ups of each. It carries just what the object offers by its public names, and
meanwhile no code of a property runs (`carried_eq`, `lookup_entries`, `lookup_forwarded`). A mapped
stand-in differs from the object in nothing but its streams, and leads back to it
(`standsFor_map`).

The handles of documents are numbers of files below mapped and forwarding ones. They agree with the
objects that they stand for in whether they are mapped and in what they have been made from
(`objectOf_eq`).
-/

namespace Dialects.Forwarding

variable {α β : Type} {o : Instance} {file : Object β} {name c : String} {k : MemberKind}
  {place : Option String} {callee : Callee β} {lineage : List (String × Members)}
  {readings : Readings}

/-! ## What a name stands for -/

/-- The first class that has a member of this name, and what the member is. -/
inductive FirstMember (name : String) : List (String × Members) → String → MemberKind → Prop
  | here {c : String} {members : Members} {lineage : List (String × Members)} {k : MemberKind}
      (h : members.lookup name = some k) : FirstMember name ((c, members) :: lineage) c k
  | there {c d : String} {members : Members} {lineage : List (String × Members)} {k : MemberKind}
      (hnone : members.lookup name = none) (h : FirstMember name lineage d k) :
      FirstMember name ((c, members) :: lineage) d k

/-- What a name of an object stands for, and the class that defines it, if that is not the object
itself. -/
inductive Resolves (o : Instance) (name : String) : Option String → MemberKind → Prop
  | property {c : String} (h : FirstMember name o.lineage c .property) :
      Resolves o name (some c) .property
  | own {k : MemberKind} (h : o.attributes.lookup name = some k)
      (hfree : ∀ c, ¬ FirstMember name o.lineage c .property) : Resolves o name none k
  | inherited {c : String} {k : MemberKind} (h : FirstMember name o.lineage c k)
      (hkind : k ≠ .property) (hnone : o.attributes.lookup name = none) :
      Resolves o name (some c) k

/-- What can be called by a name of an object, and is no class. -/
inductive Offers : Object β → String → Callee β → Prop
  /-- A method is given the object. -/
  | method {o : Instance} {name c : String} (h : Resolves o name (some c) .method) :
      Offers (.plain o) name (.function (some c) name (.object o))
  /-- The method of a class is given the object's class. -/
  | classMethod {o : Instance} {name c : String} (h : Resolves o name (some c) .classMethod) :
      Offers (.plain o) name (.function (some c) name (.classOf o))
  /-- A function that an object holds itself is given nothing. -/
  | held {o : Instance} {name : String} (h : Resolves o name none .method) :
      Offers (.plain o) name (.function none name .nothing)
  /-- Nor is any other function, wherever it is defined. -/
  | free {o : Instance} {name : String} {place : Option String} {k : MemberKind}
      (h : Resolves o name place k) (hkind : k = .static ∨ k = .callable) :
      Offers (.plain o) name (.function place name .nothing)
  /-- A stand-in has what it carries. -/
  | carried {attributes : List (String × Callee β)} {original : Option (Object β)} {name : String}
      {callee : Callee β} (h : attributes.lookup name = some callee) :
      Offers (.standIn attributes original) name callee

/-! ## Look-up goes by these rules -/

/-- Looking a member up class by class finds the one of the first class that has it. -/
theorem findSome_eq_some_iff :
    (lineage.findSome? fun (c, members) => (members.lookup name).map (c, ·)) = some (c, k) ↔
      FirstMember name lineage c k := by
  induction lineage with
  | nil => exact iff_of_false nofun nofun
  | cons entry lineage ih =>
    obtain ⟨d, members⟩ := entry
    rw [List.findSome?_cons]
    dsimp only
    cases hmember : members.lookup name with
    | some k' =>
      -- a class that has the member hides those further up the lineage
      constructor
      · intro h
        obtain ⟨rfl, rfl⟩ := Prod.mk.inj (Option.some.inj h)
        exact .here hmember
      · intro h
        cases h with
        | here hk =>
          rw [hmember] at hk
          obtain rfl := Option.some.inj hk
          rfl
        | there hnone _ => rw [hmember] at hnone; contradiction
    | none =>
      -- a class without the member is passed over
      refine ih.trans ⟨fun h => .there hmember h, fun h => ?_⟩
      cases h with
      | here hk => rw [hmember] at hk; contradiction
      | there _ h => exact h

/-- A member of the class is one of the first class that has it. -/
theorem classMember_eq_some_iff :
    o.classMember? name = some (c, k) ↔ FirstMember name o.lineage c k := findSome_eq_some_iff

/-- What a name is looked up to is what it stands for. -/
theorem find_eq_some_iff : o.find? name = some (place, k) ↔ Resolves o name place k := by
  rw [Instance.find?]
  constructor
  · intro h
    -- In the order of look-up, what decides is a property, the object itself, another member.
    split at h
    · next hclass =>
      obtain ⟨rfl, rfl⟩ := Prod.mk.inj (Option.some.inj h)
      exact .property (classMember_eq_some_iff.mp hclass)
    · next hown hproperty =>
      obtain ⟨rfl, rfl⟩ := Prod.mk.inj (Option.some.inj h)
      exact .own hown fun c hc => hproperty c (classMember_eq_some_iff.mpr hc)
    · next hproperty hclass hnone =>
      obtain ⟨rfl, rfl⟩ := Prod.mk.inj (Option.some.inj h)
      refine .inherited (classMember_eq_some_iff.mp hclass) ?_ hnone
      rintro rfl
      exact hproperty rfl
    · contradiction
  · intro h
    cases h with
    | property h => rw [classMember_eq_some_iff.mpr h]
    | own h hfree =>
      rw [h]
      split
      · next hclass => exact absurd (classMember_eq_some_iff.mp hclass) (hfree _)
      · next heq _ => rw [Option.some.inj heq]
      · contradiction
      · contradiction
    | inherited h hkind hnone =>
      rw [classMember_eq_some_iff.mpr h, hnone]
      split
      · next heq =>
        obtain ⟨-, rfl⟩ := Prod.mk.inj (Option.some.inj heq)
        contradiction
      · contradiction
      · next heq _ =>
        obtain ⟨rfl, rfl⟩ := Prod.mk.inj (Option.some.inj heq)
        rfl
      · contradiction

/-! ## What an object offers, as a function -/

/-- What of a value can be called and is no class. -/
def Value.callee? : Value β → Option (Callee β)
  | .callable callee => some callee
  | .type | .data => none

/-- What an object offers by a name. -/
def Object.callee? : Object β → String → Option (Callee β)
  | .plain o, name => (o.find? name).bind fun (place, k) => (o.bind name place k : Value β).callee?
  | .standIn attributes _, name => attributes.lookup name

/-- What can be called of what a name stands for is offered. -/
theorem offers_of_bind (hfound : Resolves o name place k)
    (h : (o.bind name place k : Value β).callee? = some callee) :
    Offers (.plain o) name callee := by
  -- where the member has been found and what it is decide about the callee
  cases place <;> cases k <;>
    simp only [Instance.bind, Value.callee?, Option.some.injEq, reduceCtorEq] at h <;> subst h
  case none.method => exact .held hfound
  case some.method => exact .method hfound
  case some.classMethod => exact .classMethod hfound
  case none.static | some.static => exact .free hfound (.inl rfl)
  case none.callable | some.callable => exact .free hfound (.inr rfl)

/-- What an object offers by a name is what can be called of what the name stands for. -/
theorem callee_plain (h : Resolves o name place k) :
    (Object.plain o : Object β).callee? name = (o.bind name place k : Value β).callee? := by
  rw [Object.callee?, find_eq_some_iff.mpr h, Option.bind_some]

/-- What an object offers is just what the function gives. -/
theorem callee_eq_some_iff : file.callee? name = some callee ↔ Offers file name callee := by
  constructor
  · intro h
    cases file with
    | plain o =>
      obtain ⟨⟨place, k⟩, hfound, hcallee⟩ := Option.bind_eq_some_iff.mp h
      exact offers_of_bind (find_eq_some_iff.mp hfound) hcallee
    | standIn attributes original => exact .carried h
  · intro h
    cases h with
    | method h | classMethod h | held h => rw [callee_plain h]; rfl
    | free h hkind =>
      rw [callee_plain h]
      obtain rfl | rfl := hkind <;> cases ‹Option String› <;> rfl
    | carried h => exact h

/-! ## Collecting runs no code -/

variable {code : String → Except Failure (Value β)}

/-- Where no property is found, both look-ups find the same, and reading runs no code. -/
theorem read_of_not_property (h : (Object.plain o : Object β).isProperty name = false) :
    o.read code name = pure ((o.find? name).map fun (place, k) => o.bind name place k) := by
  rw [Object.isProperty, Instance.find?] at h
  rw [Instance.read, Instance.find?]
  -- a member of the class that is no property is used unless the object has an attribute of the
  -- name
  cases hclass : o.classMember? name with
  | none => cases o.attributes.lookup name <;> rfl
  | some found =>
    obtain ⟨c, k⟩ := found
    rw [hclass] at h
    cases k
    case property => contradiction
    all_goals cases o.attributes.lookup name <;> rfl

/-- By the name of a property nothing is offered. -/
theorem callee_of_property (h : file.isProperty name) : file.callee? name = none := by
  cases file with
  | standIn attributes original => exact absurd h Bool.false_ne_true
  | plain o =>
    rw [Object.isProperty] at h
    rw [Object.callee?]
    obtain ⟨⟨place, k⟩, hfound, hk⟩ := Option.any_eq_true _ _ |>.mp h
    obtain rfl : k = .property := of_decide_eq_true hk
    rw [hfound]
    cases place <;> rfl

/-- A name is carried with what the object offers by it. A property is passed over before its code
could run. -/
theorem carried?_eq (file : Object β) (code : String → Except Failure (Value β)) (name : String) :
    file.carried? code name = pure ((file.callee? name).map (name, ·)) := by
  rw [Object.carried?]
  by_cases hproperty : file.isProperty name
  · rw [if_pos hproperty, callee_of_property hproperty]
    rfl
  · rw [if_neg hproperty]
    cases file with
    | standIn attributes original =>
      rw [Object.read, Object.callee?, pure_bind]
      cases attributes.lookup name <;> rfl
    | plain o =>
      rw [Object.read, Object.callee?, read_of_not_property (Bool.not_eq_true _ |>.mp hproperty),
        pure_bind]
      cases o.find? name with
      | none => rfl
      | some found =>
        obtain ⟨place, k⟩ := found
        dsimp only [Option.map_some, Option.bind_some]
        -- Of the three kinds of values only what can be called is carried.
        cases (o.bind name place k : Value β) <;> rfl

/-- What a stand-in for the object carries. -/
def Object.entries (file : Object β) : List (String × Callee β) :=
  file.publicNames.filterMap fun name => (file.callee? name).map (name, ·)

/-- A stand-in carries what the object offers by its public names. -/
theorem carried_eq (file : Object β) (code : String → Except Failure (Value β)) :
    file.carried code = pure file.entries := by
  have hall : file.carried? code = fun name => pure ((file.callee? name).map (name, ·)) :=
    funext (carried?_eq file code)
  rw [Object.carried, hall, List.mapM_pure, pure_bind, List.filterMap_map]
  rfl

/-! ## No name is missed -/

/-- A member that is found is among the names of the classes. -/
theorem FirstMember.mem_names (h : FirstMember name lineage c k) :
    name ∈ lineage.flatMap fun c => c.2.map Prod.fst := by
  induction h with
  | here h => exact List.mem_append_left _ (mem_keys_of_lookup h)
  | there _ _ ih => exact List.mem_append_right _ ih

/-- What a name stands for is among the names of the object. -/
theorem Resolves.mem_names (h : Resolves o name place k) : name ∈ o.names := by
  rw [Instance.names, List.mem_append]
  cases h with
  | property h => exact .inr h.mem_names
  | own h _ => exact .inl (mem_keys_of_lookup h)
  | inherited h _ _ => exact .inr h.mem_names

/-- The public names among some are those that are public. -/
theorem mem_publicAmong {names : List String} :
    name ∈ publicAmong names ↔ name ∈ names ∧ isPublic name := by
  rw [publicAmong, List.mem_eraseDups, List.mem_filter]

theorem isPublic_of_mem_publicNames (h : name ∈ file.publicNames) : isPublic name := by
  cases file <;> exact (mem_publicAmong.mp h).2

/-- What is offered by a public name is found by collecting names. -/
theorem Offers.mem_publicNames (h : Offers file name callee) (hpublic : isPublic name) :
    name ∈ file.publicNames := by
  cases h with
  | method h | classMethod h | held h | free h _ =>
    exact mem_publicAmong.mpr ⟨h.mem_names, hpublic⟩
  | carried h => exact mem_publicAmong.mpr ⟨mem_keys_of_lookup h, hpublic⟩

/-- The entries of a stand-in are just what is offered by public names. -/
theorem lookup_entries :
    file.entries.lookup name = some callee ↔ isPublic name ∧ Offers file name callee := by
  rw [Object.entries, lookup_filterMap, Option.ite_none_right_eq_some, callee_eq_some_iff]
  constructor
  · rintro ⟨hmem, h⟩
    exact ⟨isPublic_of_mem_publicNames hmem, h⟩
  · rintro ⟨hpublic, h⟩
    exact ⟨h.mem_publicNames hpublic, h⟩

/-- The names that a stand-in for an object carries are the public ones by which the object offers
something, each with the place where that is defined. -/
theorem lookup_forwarded {place : String} :
    o.forwarded.lookup name = some place ↔
      isPublic name ∧ ∃ callee, Offers (.plain o : Object Unit) name callee ∧
        callee.place = place := by
  have hforwarded : o.forwarded = (Object.plain o : Object Unit).publicNames.filterMap fun name =>
      (((Object.plain o : Object Unit).callee? name).map Callee.place).map (name, ·) := by
    rw [Instance.forwarded, carried_eq]
    show (Object.entries _).map _ = _
    simp only [Object.entries, List.map_filterMap, Option.map_map, Function.comp_def]
  rw [hforwarded, lookup_filterMap, Option.ite_none_right_eq_some, Option.map_eq_some_iff]
  simp only [callee_eq_some_iff]
  constructor
  · rintro ⟨hmem, callee, h, hplace⟩
    exact ⟨isPublic_of_mem_publicNames hmem, callee, h, hplace⟩
  · rintro ⟨hpublic, callee, h, hplace⟩
    exact ⟨h.mem_publicNames hpublic, callee, h, hplace⟩

-- Neither a method behind a property is carried nor one behind data of the object itself.
example :
    (Instance.ofClass
      [⟨"Base", [], [("size", .method), ("path", .method), ("read", .method)]⟩,
        ⟨"File", ["Base"], [("size", .property), ("make", .classMethod)]⟩]
      "File" [("path", .value), ("size", .callable), ("close", .callable)]).forwarded =
    [("close", "instance.close"), ("make", "File.make@File"), ("read", "Base.read")] := by
  decide +kernel

/-! ## Putting the streams in -/

/-- The entries with another value in the place of each one that has a name. -/
theorem lookup_replace_self {x : α} {entries : List (String × α)}
    (h : entries.any fun e => e.1 = name) :
    (entries.map fun e => if e.1 = name then (name, x) else e).lookup name = some x := by
  induction entries with
  | nil => exact absurd h Bool.false_ne_true
  | cons e entries ih =>
    rw [List.map_cons]
    by_cases hname : e.1 = name
    · rw [if_pos hname, List.lookup_cons_self]
    · have hany : entries.any fun e => e.1 = name := by
        simpa only [List.any_cons, hname, decide_false, Bool.false_or] using h
      rw [if_neg hname, List.lookup_cons, beq_false_of_ne (Ne.symm hname)]
      exact ih hany

/-- An entry that is put in leaves those of other names alone. -/
theorem lookup_replace_of_ne {other : String} (h : name ≠ other) (x : α)
    (entries : List (String × α)) :
    (entries.map fun e => if e.1 = other then (other, x) else e).lookup name =
      entries.lookup name := by
  induction entries with
  | nil => rfl
  | cons e entries ih =>
    obtain ⟨key, y⟩ := e
    rw [List.map_cons, List.lookup_cons, ih, List.lookup_cons]
    by_cases hkey : key = other
    · rw [if_pos hkey, hkey, beq_false_of_ne h]
    · rw [if_neg hkey]

/-- What is assigned to a name is found by it. -/
theorem lookup_assign_self (name : String) (x : α) (entries : List (String × α)) :
    (assign name x entries).lookup name = some x := by
  rw [assign]
  split
  · next h => exact lookup_replace_self h
  · next h =>
    refine lookup_append_self (List.lookup_eq_none_iff.mpr fun e he => ?_) x
    rw [Bool.not_eq_true, List.any_eq_false] at h
    simpa only [decide_eq_true_eq, bne_iff_ne, ne_comm] using h e he

/-- What is assigned to a name leaves the other names alone. -/
theorem lookup_assign_of_ne {other : String} (h : name ≠ other) (x : α)
    (entries : List (String × α)) :
    (assign other x entries).lookup name = entries.lookup name := by
  rw [assign]
  split
  · exact lookup_replace_of_ne h x entries
  · exact lookup_append_of_ne h entries x

/-! ## Mapped stand-ins -/

/-- What a mapped stand-in has of its own. -/
def streams : List String := ["create_read_stream", "create_write_stream"]

/-- What a stand-in carries. -/
def Object.attributes : Object β → List (String × Callee β)
  | .plain _ => []
  | .standIn attributes _ => attributes

/-- What it means that a handle is a mapped stand-in for an object. -/
structure StandsFor (file : Object β) (binding : β) (handle : Object β) : Prop where
  isMapped : handle.isMapped
  /-- It leads back to the object, even to one that is a mapped stand-in itself. -/
  original : handle.original = file
  reader : handle.attributes.lookup "create_read_stream" = some (.reader file binding)
  writer : handle.attributes.lookup "create_write_stream" = some (.writer file binding)
  /-- By any other public name it has what the object offers, bound to the same. -/
  carries {name : String} {callee : Callee β} (hname : name ∉ streams) (hpublic : isPublic name)
    (h : Offers file name callee) : handle.attributes.lookup name = some callee
  /-- It has nothing else. -/
  lacks {name : String} (hname : name ∉ streams)
    (h : ¬ (isPublic name ∧ ∃ callee, Offers file name callee)) :
    name ∉ handle.attributes.map Prod.fst

/-- What a mapped stand-in for an object carries. -/
def Object.mappedEntries (file : Object β) (binding : β) : List (String × Callee β) :=
  assign "create_write_stream" (.writer file binding)
    (assign "create_read_stream" (.reader file binding) file.entries)

/-- A mapped stand-in carries its entries and leads back to the object. -/
theorem map_eq (file : Object β) (code : String → Except Failure (Value β)) (binding : β) :
    file.map code binding = pure (.standIn (file.mappedEntries binding) (some file)) := by
  rw [Object.map, carried_eq, pure_bind]
  rfl

/-- By any name but those of the streams a mapped stand-in carries what a plain one does. -/
theorem lookup_mappedEntries {binding : β} (hname : name ∉ streams) :
    (file.mappedEntries binding).lookup name = file.entries.lookup name := by
  simp only [streams, List.mem_cons, List.not_mem_nil, or_false, not_or] at hname
  rw [Object.mappedEntries, lookup_assign_of_ne hname.2, lookup_assign_of_ne hname.1]

/-- A stand-in with the entries of a mapped one stands for the object. -/
theorem standsFor_standIn (file : Object β) (binding : β) :
    StandsFor file binding (.standIn (file.mappedEntries binding) (some file)) where
  isMapped := rfl
  original := rfl
  reader := by
    rw [Object.attributes, Object.mappedEntries, lookup_assign_of_ne (by decide),
      lookup_assign_self]
  writer := by rw [Object.attributes, Object.mappedEntries, lookup_assign_self]
  carries hname hpublic h := by
    rw [Object.attributes, lookup_mappedEntries hname]
    exact lookup_entries.mpr ⟨hpublic, h⟩
  lacks {name} hname h := by
    -- An entry by this name would be one that the object offers.
    refine not_mem_keys_of_lookup ?_
    rw [Object.attributes, lookup_mappedEntries hname]
    cases hlookup : file.entries.lookup name with
    | none => rfl
    | some callee =>
      obtain ⟨hpublic, hoffers⟩ := lookup_entries.mp hlookup
      exact absurd ⟨hpublic, callee, hoffers⟩ h

/-- Whatever the code of its properties would do, a mapped stand-in for an object can be made, and
no property is read for it. -/
theorem standsFor_map (file : Object β) (binding : β) :
    ∃ handle, StandsFor file binding handle ∧
      ∀ (code : String → Except Failure (Value β)) (readings : Readings),
        (file.map code binding).perform readings = (.ok handle, readings) := by
  refine ⟨_, standsFor_standIn file binding, fun code readings => ?_⟩
  rw [map_eq]
  rfl

/-! ## Handles by number -/

/-- The objects behind handles are made without reading a property, too. They are mapped if the
handles are, and lead back to the same. -/
theorem objectOf_eq (code : String → Except Failure (Value β)) (files : Nat → Instance)
    (h : Handle β) :
    ∃ object, objectOf code files h = pure object ∧ object.isMapped = h.isMapped ∧
      objectOf code files h.unmapped = pure object.original := by
  induction h with
  | file n => exact ⟨.plain (files n), rfl, rfl, rfl⟩
  | mapped inner binding ih =>
    obtain ⟨object, hobject, -, -⟩ := ih
    refine ⟨.standIn (object.mappedEntries binding) (some object), ?_, rfl, hobject⟩
    rw [objectOf, hobject, pure_bind, map_eq]
  | forwarding inner ih =>
    obtain ⟨object, hobject, -, -⟩ := ih
    have hforward : objectOf code files (.forwarding inner) =
        pure (.standIn object.entries none) := by
      rw [objectOf, hobject, pure_bind, Object.forward, carried_eq, pure_bind]
    exact ⟨.standIn object.entries none, hforward, rfl, hforward⟩

end Dialects.Forwarding
