import Dialects.Editor.Handle

/-!
# What a stand-in forwards

A stand-in for an object carries every public method of it, bound to the object, and shares no class
with it. The names are collected from the object's own attributes and then from its classes, in the
order in which members are looked up. Each name is looked up twice. The first look-up runs no code
and tells whether the name is a property, which is passed over, since to read it would run its code.
The second one reads the name, and what it gives is carried if it can be called and is not a class.

A mapped stand-in has streams of its own, and keeps the object that it was made from.
-/

namespace Dialects.Forwarding

/-- What a member of a class, or an attribute of an object, is. -/
inductive MemberKind where
  /-- A method, called with the object. -/
  | method
  /-- A function that is called without the object. -/
  | static
  /-- A method that is called with the object's class. -/
  | classMethod
  /-- A property, whose reading runs code. -/
  | property
  /-- Something else that can be called, with its arguments alone. -/
  | callable
  /-- A class. -/
  | type
  /-- Some other value. -/
  | value
  /-- No value. -/
  | nothing
  deriving DecidableEq, Repr

/-- Named members in order. -/
abbrev Members := List (String × MemberKind)

/-- A class. -/
structure ClassDef where
  /-- The name. -/
  name : String
  /-- The classes that it extends directly. -/
  bases : List String
  /-- Its own members. -/
  members : Members
  deriving DecidableEq, Repr

/-! ## The order of look-up -/

/-- Whether a class comes after the first one in any of the lists. -/
def isLater (c : String) (lists : List (List String)) : Bool := lists.any fun l => l.tail.contains c

/-- Merges lists into one that keeps the order of each: the first class goes first that heads a list
and is behind the head of none. `bound` is the number of classes still to come. -/
def merge : (bound : Nat) → List (List String) → List String
  | 0, _ => []
  | bound + 1, lists =>
    match (lists.filterMap List.head?).find? fun c => !isLater c lists with
    | none => []
    | some c => c :: merge bound (lists.map fun l => if l.head? = some c then l.tail else l)

/-- The orders of look-up of some classes. -/
abbrev Orders := List (String × List String)

/-- The order in which the members of a class are looked up: the class itself, and then its bases
with theirs. -/
def order (known : Orders) (c : ClassDef) : List String :=
  let lists := c.bases.map (fun b => (known.lookup b).getD [b]) ++ [c.bases]
  c.name :: merge lists.flatten.length lists

/-- The orders of look-up of classes that are given after their bases. -/
def orders (classes : List ClassDef) : Orders :=
  classes.foldl (fun known c => (c.name, order known c) :: known) []

/-! ## Look-up -/

/-- Puts a value under a name: in the place of the one that is there, or at the end. -/
def assign {α : Type} (name : String) (x : α) (entries : List (String × α)) : List (String × α) :=
  if entries.any fun e => e.1 = name then entries.map fun e => if e.1 = name then (name, x) else e
  else entries ++ [(name, x)]

/-- Members with only one entry for each name: the place of the first, and the kind of the last. -/
def settle (members : Members) : Members := members.foldl (fun done (n, k) => assign n k done) []

/-- Whether a name is public. -/
def isPublic (name : String) : Bool := name.toList.head? != some '_'

/-- The public ones of some names, each once. -/
def publicAmong (names : List String) : List String := (names.filter isPublic).eraseDups

/-- An object: its own attributes, and its classes in the order of look-up. -/
structure Instance where
  /-- The name of its class. -/
  className : String
  /-- Its own attributes. -/
  attributes : Members
  /-- Its classes with their members, in the order of look-up. -/
  lineage : List (String × Members)
  deriving DecidableEq, Repr

namespace Instance

/-- An object of a class. -/
def ofClass (classes : List ClassDef) (className : String) (attributes : Members) : Instance where
  className := className
  attributes := settle attributes
  lineage := (((orders classes).lookup className).getD []).map fun c =>
    (c, ((classes.find? (·.name = c)).map fun d => settle d.members).getD [])

/-- The names of an object: its own first and then those of its classes. -/
def names (o : Instance) : List String :=
  o.attributes.map Prod.fst ++ o.lineage.flatMap fun c => c.2.map Prod.fst

/-- Where a class member is defined, and what it is. -/
def classMember? (o : Instance) (name : String) : Option (String × MemberKind) :=
  o.lineage.findSome? fun (c, members) => (members.lookup name).map (c, ·)

/-- What is found under a name without running code: where it is defined, if not in the object
itself, and what it is. A property of a class goes before the object's own attributes, and these
before all other members. -/
def find? (o : Instance) (name : String) : Option (Option String × MemberKind) :=
  match o.classMember? name, o.attributes.lookup name with
  -- A property decides before the object's own attribute is looked at.
  | some (c, .property), _ => some (some c, .property)
  | _, some k => some (none, k)
  | some (c, k), none => some (some c, k)
  | none, none => none

end Instance

/-! ## Reading -/

/-- What a function is given in front of its arguments. -/
inductive Receiver where
  /-- Nothing. -/
  | nothing
  /-- The object from which it was read. -/
  | object (o : Instance)
  /-- The class of that object. -/
  | classOf (o : Instance)
  deriving DecidableEq, Repr

mutual

/-- What can be called. The parameter is what the streams of a mapped stand-in are bound to. -/
inductive Callee (β : Type) where
  /-- A function: the class that defines it, if it is not the object's own, its name, and what it is
  given. -/
  | function (definedIn : Option String) (name : String) (receiver : Receiver)
  /-- Opens a stream that converts what is read from an object. -/
  | reader (file : Object β) (binding : β)
  /-- Opens a stream that converts what is written to an object. -/
  | writer (file : Object β) (binding : β)

/-- What a document can have for its file. -/
inductive Object (β : Type) where
  /-- An object of a class. -/
  | plain (o : Instance)
  /-- A stand-in with what it carries. A mapped one has the object that it was made from. -/
  | standIn (attributes : List (String × Callee β)) (original : Option (Object β))

end

/-- What reading a name gives. -/
inductive Value (β : Type) where
  /-- Something that can be called and is not a class. -/
  | callable (c : Callee β)
  /-- A class. -/
  | type
  /-- Something that cannot be called. -/
  | data

/-- The properties whose code has run, by name and in order. -/
abbrev Readings := List String

variable {β : Type}

/-- What something that has been found under a name gives when it is read. A class binds its methods
to the object or to the class, an object leaves what it holds itself as it is. -/
def Instance.bind (o : Instance) (name : String) : Option String → MemberKind → Value β
  | some c, .method => .callable (.function (some c) name (.object o))
  | some c, .classMethod => .callable (.function (some c) name (.classOf o))
  | none, .method => .callable (.function none name .nothing)
  | place, .static | place, .callable => .callable (.function place name .nothing)
  | _, .type => .type
  -- Outside a class neither a property nor the method of a class can be called.
  | none, .classMethod | _, .property | _, .value | _, .nothing => .data

/-- Reads a name of an object, if it is there. To read a property runs its code, and `code` says
what comes of that. -/
def Instance.read (code : String → Except Failure (Value β)) (o : Instance) (name : String) :
    Action Readings (Option (Value β)) :=
  match o.classMember? name, o.attributes.lookup name with
  | some (_, .property), _ => do
    .change fun readings => readings ++ [name]
    some <$> .ofExcept (code name)
  | _, some k => pure (some (o.bind name none k))
  | some (c, k), none => pure (some (o.bind name (some c) k))
  | none, none => pure none

namespace Object

/-- The public names of an object. -/
def publicNames : Object β → List String
  | plain o => publicAmong o.names
  | standIn attributes _ => publicAmong (attributes.map Prod.fst)

/-- Whether a property is found under a name. -/
def isProperty : Object β → String → Bool
  | plain o, name => (o.find? name).any fun found => found.2 = .property
  | standIn .., _ => false

/-- Reads a name of an object. -/
def read (code : String → Except Failure (Value β)) :
    Object β → String → Action Readings (Option (Value β))
  | plain o, name => o.read code name
  | standIn attributes _, name => pure ((attributes.lookup name).map .callable)

/-! ## Stand-ins -/

/-- What a stand-in carries under a name of the object, if anything. -/
def carried? (code : String → Except Failure (Value β)) (o : Object β) (name : String) :
    Action Readings (Option (String × Callee β)) := do
  if o.isProperty name then return none
  match ← o.read code name with
  | some (.callable c) => return some (name, c)
  | _ => return none

/-- What a stand-in for the object carries. -/
def carried (code : String → Except Failure (Value β)) (o : Object β) :
    Action Readings (List (String × Callee β)) := do
  return (← o.publicNames.mapM (o.carried? code)).filterMap id

/-- A stand-in that changes nothing. -/
def forward (code : String → Except Failure (Value β)) (o : Object β) :
    Action Readings (Object β) := do
  return .standIn (← o.carried code) none

/-- A stand-in that converts what is read and written. -/
def map (code : String → Except Failure (Value β)) (o : Object β) (binding : β) :
    Action Readings (Object β) := do
  let attributes ← o.carried code
  let attributes := assign "create_read_stream" (.reader o binding) attributes
  return .standIn (assign "create_write_stream" (.writer o binding) attributes) (some o)

/-- Whether the object is a mapped stand-in. -/
def isMapped : Object β → Bool
  | standIn _ (some _) => true
  | _ => false

/-- The object from which a mapped stand-in was made; any other object itself. -/
def original : Object β → Object β
  | standIn _ (some o) => o
  | o => o

end Object

/-- The object behind a handle, given the objects behind the files. -/
def objectOf (code : String → Except Failure (Value β)) (files : Nat → Instance) :
    Handle β → Action Readings (Object β)
  | .file n => pure (.plain (files n))
  | .mapped h b => do (← objectOf code files h).map code b
  | .forwarding h => do (← objectOf code files h).forward code

/-- Where a function is defined, with the object's class if it is given that. The streams of a
stand-in are its own. -/
def Callee.place : Callee β → String
  | .function definedIn name receiver =>
    definedIn.getD "instance" ++ "." ++ name ++
      match receiver with
      | .classOf o => "@" ++ o.className
      | .nothing | .object _ => ""
  | .reader .. => "create_read_stream"
  | .writer .. => "create_write_stream"

/-- What a stand-in for an object carries: the names, and where the functions are defined. As no
property is read, it is of no account what that would give. -/
def Instance.forwarded (o : Instance) : List (String × String) :=
  match ((Object.plain o : Object Unit).carried (fun _ => .ok .data) []).1 with
  | .ok attributes => attributes.map fun (n, c) => (n, c.place)
  | .error _ => []

end Dialects.Forwarding
