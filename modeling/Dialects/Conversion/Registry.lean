import Dialects.Action
import Dialects.Conversion.Basic

/-!
# The registry of converters

The registry knows for each language how to build its converter set. A set is built when it is first
asked for and then kept, until the language is registered again.
-/

namespace Dialects

/-- The recipes by which converter sets are built, and the sets that have been built, each under the
tag of its language. Recipes are of type `φ` and sets of type `α`. -/
structure Registry (φ α : Type) where
  /-- The recipe last registered for each language. -/
  recipes : List (String × φ)
  /-- The sets that have been built by these recipes. -/
  built : List (String × α)

namespace Registry

variable {φ α σ : Type}

/-- A registry without languages. -/
def empty : Registry φ α := ⟨[], []⟩

/-- The entries of a table for other keys. -/
def without {β : Type} (l : String) (table : List (String × β)) : List (String × β) :=
  table.filter fun e => e.1 ≠ l

/-- Registers a recipe; a set that was built for the language is forgotten. -/
def register (r : Registry φ α) (l : String) (recipe : φ) : Registry φ α :=
  ⟨without l r.recipes ++ [(l, recipe)], without l r.built⟩

/-- Keeps a set that was built. -/
def keep (r : Registry φ α) (l : String) (set : α) : Registry φ α :=
  { r with built := without l r.built ++ [(l, set)] }

/-- The converter set of a language. It is built if it is not there; if that fails, the registry is
as before and the recipe is tried again next time. -/
def request (build : φ → Action σ α) (r : Registry φ α) (l : String) :
    Action σ (α × Registry φ α) :=
  match r.built.lookup l with
  | some set => pure (set, r)
  | none =>
    match r.recipes.lookup l with
    | none => throw (.unknownLanguage l)
    | some recipe => do
      let set ← build recipe
      pure (set, r.keep l set)

/-- The languages of the registry in ascending order. -/
def languages (r : Registry φ α) : List String :=
  (r.recipes.map Prod.fst).mergeSort fun a b => !decide (b < a)

end Registry

/-- How a converter set is built: the set, or a failure to build it. -/
abbrev Recipe := Except Failure ConverterSet

namespace Recipe

/-- The recipes for the two languages that the editor knows. -/
def standard (indent : Int) : Registry Recipe ConverterSet :=
  (Registry.empty.register "js" (.ok .script)).register "json" (.ok (.json indent))

end Recipe

/-! ## Runs of a registry -/

namespace Registry

/-- A registry in use: every set is numbered when it is built, and recipes that carry a mark leave
it in a log each time they are followed. -/
structure Session where
  /-- The registry; its sets carry their numbers. -/
  registry : Registry (Option String × Recipe) (Nat × ConverterSet)
  /-- The marks of the recipes that have been followed, first one first. -/
  log : List String
  /-- How many sets have been built. -/
  count : Nat

/-- What is asked of a registry. -/
inductive Command where
  /-- Registers a recipe that leaves a mark in the log. -/
  | register (language : String) (mark : String) (recipe : Recipe)
  /-- Asks for a converter set. -/
  | get (language : String)
  /-- Asks for the languages. -/
  | languages
  /-- Converts a text. -/
  | convert (language : String) (direction : Direction) (text : Text)

/-- What a registry answers. -/
inductive Answer where
  /-- Nothing. -/
  | none
  /-- The number of a converter set and its language. -/
  | set (number : Nat) (language : String)
  /-- Languages. -/
  | languages (tags : List String)
  /-- A converted text. -/
  | text (t : Text)

namespace Session

/-- A session with an empty registry, or with one that knows the two languages of the editor. -/
def initial (standardIndent : Option Int) : Session :=
  match standardIndent with
  | none => ⟨.empty, [], 0⟩
  | some indent =>
    let r := Recipe.standard indent
    ⟨⟨r.recipes.map fun (l, recipe) => (l, none, recipe), []⟩, [], 0⟩

/-- Follows a recipe: leaves its mark and builds the set. -/
def build (recipe : Option String × Recipe) : Action Session (Nat × ConverterSet) := do
  .change fun s => { s with log := s.log ++ recipe.1.toList }
  let set ← Action.ofExcept recipe.2
  let n ← Action.ask Session.count
  .change fun s => { s with count := n + 1 }
  pure (n, set)

/-- The converter set of a language and its number. -/
def request (l : String) : Action Session (Nat × ConverterSet) := do
  let r ← Action.ask Session.registry
  let (set, r') ← r.request build l
  .change fun s => { s with registry := r' }
  pure set

/-- Carries out a command. -/
def carryOut : Command → Action Session Answer
  | .register l mark recipe => do
    .change fun s => { s with registry := s.registry.register l (some mark, recipe) }
    pure .none
  | .get l => do
    let (n, set) ← request l
    pure (.set n set.language)
  | .languages => .ask fun s => .languages s.registry.languages
  | .convert l d t => do
    let (_, set) ← request l
    return .text (← Action.ofExcept (set.convert d t))

end Session

end Registry

end Dialects
