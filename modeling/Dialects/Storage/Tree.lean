import Dialects.Grammar
import Dialects.Text.Utf8

/-!
# Trees of folders and files

Places in a tree are lists of names, read from the root. A path leads to a place name by name, and
every place on the way must be a folder; two dots lead back to the folder above.
-/

namespace Dialects

/-- What stands at a place. -/
inductive Entry where
  /-- A file with its content. -/
  | file (content : Bytes)
  /-- A folder. -/
  | folder
  deriving DecidableEq, Repr

/-- A place in a tree: the names that lead to it from the root. -/
abbrev Location := List (List Char)

/-- A tree of folders and files. -/
structure Tree where
  /-- What stands at the places other than the root, which is a folder. -/
  entries : List (Location × Entry)
  /-- The folder in which relative paths start. -/
  base : Location
  deriving DecidableEq, Repr

namespace Tree

/-- What stands at a place. -/
def at? (t : Tree) (place : Location) : Option Entry :=
  if place = [] then some .folder else t.entries.lookup place

/-- The name that leads to the folder above. -/
def above : List Char := ['.', '.']

/-- Where a name leads from a folder. -/
def follow (place : Location) (name : List Char) : Location :=
  if name = above then place.dropLast else place ++ [name]

/-- Where a name leads from a place, if that is a folder. -/
def step (t : Tree) (place : Location) (name : List Char) : Option Location :=
  if t.at? place = some .folder then some (follow place name) else none

/-- The place where a path starts. -/
def start (t : Tree) (p : Path) : Location := if p.root = [] then t.base else []

/-- The place to which a path leads, whether or not something stands there. -/
def locate (t : Tree) (p : Path) : Option Location :=
  p.parts.foldlM t.step (t.start p)

/-- What stands where a path leads. -/
def find? (t : Tree) (p : Path) : Option Entry := (t.locate p).bind t.at?

/-- Whether something stands where a path leads. -/
def contains (t : Tree) (p : Path) : Bool := (t.find? p).isSome

/-- Puts something at a place. -/
def insert (t : Tree) (place : Location) (e : Entry) : Tree :=
  { t with entries := (place, e) :: t.entries.filter fun x => x.1 ≠ place }

/-- What has been put at a place stands there. -/
theorem at?_insert_self (t : Tree) {place : Location} (h : place ≠ []) (e : Entry) :
    (t.insert place e).at? place = some e := by
  simp [at?, insert, h]

/-- What stands at other places stays. -/
theorem at?_insert_of_ne (t : Tree) {place other : Location} (h : other ≠ place) (e : Entry) :
    (t.insert place e).at? other = t.at? other := by
  have key : ∀ l : List (Location × Entry),
      (l.filter fun x => x.1 ≠ place).lookup other = l.lookup other := by
    intro l
    induction l with
    | nil => rfl
    | cons x l ih =>
      obtain ⟨p, v⟩ := x
      by_cases hp : p = place
      · subst hp
        have hn : (other == p) = false := by simpa using h
        rw [List.filter_cons_of_neg (by simp), ih, List.lookup_cons, hn]
      · rw [List.filter_cons_of_pos (by simpa using hp), List.lookup_cons, List.lookup_cons, ih]
  have hn : (other == place) = false := by simpa using h
  simp only [at?, insert, List.lookup_cons, hn, key]

/-- Removes what stands at a place. -/
def erase (t : Tree) (place : Location) : Tree :=
  { t with entries := t.entries.filter fun x => x.1 ≠ place }

/-- The place of a file that can be written under a path: no folder stands there. -/
def writable? (t : Tree) (p : Path) : Option Location :=
  match t.locate p with
  | none => none
  | some place => if t.at? place = some .folder then none else some place

/-- Moves what stands at a place, with all that stands below it. -/
def move (t : Tree) (source target : Location) : Tree :=
  { t with
    entries := t.entries.map fun (place, e) =>
      if source.isPrefixOf place then (target ++ place.drop source.length, e) else (place, e) }

/-- Renames what stands under a path. Nothing may stand under the new path, a folder cannot go below
itself, and dots are no names. -/
def rename? (t : Tree) (p q : Path) : Option Tree :=
  match t.locate p, t.locate q with
  | some source, some target =>
    -- A dot at the end of a path is dropped, so that two dots are the only ones to refuse.
    if p.parts = [] || p.parts.getLast? = some above then none
    else if (t.at? source).isNone || (t.at? target).isSome || source.isPrefixOf target then none
    else some (t.move source target)
  | _, _ => none

/-- Makes a folder at a place, unless there is one. -/
def withFolder (t : Tree) (place : Location) : Tree :=
  if t.at? place = some .folder then t else t.insert place .folder

/-- Puts something where a path leads, and makes the folders on the way. -/
def put (t : Tree) (p : Path) (e : Entry) : Tree :=
  match p.parts.getLast? with
  | none => t
  | some last =>
    let (t, place) := p.parts.dropLast.foldl (fun (t, place) name =>
      (t.withFolder (follow place name), follow place name)) (t, t.start p)
    t.insert (follow place last) e

/-- A tree with nothing but the folders that lead to its base. -/
def bare (base : Location) : Tree :=
  (Tree.mk [] base).put ⟨['/'], base⟩ .folder

/-- The files below the base, with the names that lead to them from there. -/
def files (t : Tree) : List (Location × Bytes) :=
  t.entries.filterMap fun (place, e) =>
    match e with
    | .file content =>
      if t.base.isPrefixOf place then some (place.drop t.base.length, content) else none
    | .folder => none

end Tree

end Dialects
