import Dialects.Proofs.Action
import Dialects.Proofs.Editor.Transitions
import Dialects.Storage.Memory

/-!
# What the host in memory leaves alone

No operation of the host in memory renames a file, tells an operation of a document to fail, or
registers a recipe (`Memory.Like`). `Memory.oneScript` is an editor on such a host, for examples.
-/

namespace Dialects.Memory

open Dialects.Action

/-- The two have the same files, by path, the same faults of documents and the same recipes. -/
structure Like (m₀ m : Memory) : Prop where
  paths : m.files.map MemoryFile.path = m₀.files.map MemoryFile.path
  documentFaults : m.documentFaults = m₀.documentFaults
  recipes : m.registry.recipes = m₀.registry.recipes

variable {m₀ m m' : Memory}

theorem Like.refl (m : Memory) : Like m m := ⟨rfl, rfl, rfl⟩

/-- The path of a file is the one it had. -/
theorem Like.path_eq (h : Like m₀ m) (n : Nat) : host.files.path n m = host.files.path n m₀ := by
  have hsame := congrArg (·[n]?) h.paths
  simp only [List.getElem?_map] at hsame
  show (m.files[n]?.map MemoryFile.path).getD "" = (m₀.files[n]?.map MemoryFile.path).getD ""
  rw [hsame]

/-! ## The parts of the operations -/

/-- A table that has been given an entry has it. -/
theorem lookup_update {α β : Type} [DecidableEq α] (key : α) (value : β) (table : List (α × β)) :
    (update key value table).lookup key = some value := by
  rw [update]
  split
  case isTrue hany =>
    -- The entry stands where the first one of that key stood.
    induction table with
    | nil => simp at hany
    | cons entry table ih =>
      obtain ⟨k, v⟩ := entry
      by_cases hk : k = key
      · simp [hk]
      · have hbeq : (key == k) = false := by simpa using Ne.symm hk
        rw [List.map_cons, if_neg hk, List.lookup_cons, hbeq]
        exact ih (by simpa [hk] using hany)
  case isFalse hany =>
    induction table with
    | nil => simp
    | cons entry table ih =>
      obtain ⟨k, v⟩ := entry
      obtain ⟨hk, htable⟩ : k ≠ key ∧ ¬ table.any (fun e => e.1 = key) = true := by
        simpa using hany
      have hbeq : (key == k) = false := by simpa using Ne.symm hk
      rw [List.cons_append, List.lookup_cons, hbeq]
      exact ih htable

/-- Looking for a file changes nothing. -/
theorem preserves_file (n : Nat) : Preserves (Like m₀) (file n) := by
  refine (Preserves.ask Memory.files).bind fun files => ?_
  cases files[n]? with
  | none => exact Preserves.throw _
  | some f => exact Preserves.pure f

/-- Looking for a fault of a file changes nothing. -/
theorem preserves_check (n : Nat) (fault : FileFault) : Preserves (Like m₀) (check n fault) := by
  refine (preserves_file n).bind fun f => ?_
  split
  · exact Preserves.throw _
  · exact Preserves.pure _

/-- Looking for a fault of a document changes nothing. -/
theorem preserves_checkDocument (d : Nat) (fault : DocumentFault) :
    Preserves (Like m₀) (checkDocument d fault) := by
  refine (Preserves.ask Memory.documentFaults).bind fun faults => ?_
  split
  · exact Preserves.throw _
  · exact Preserves.pure _

/-- Putting a text on the disk leaves the paths of files alone. -/
theorem preserves_put (path : String) (text : Text) : Preserves (Like m₀) (put path text) :=
  Preserves.change fun _ hm => ⟨hm.paths, hm.documentFaults, hm.recipes⟩

/-- Counting how often a file is opened leaves its path alone. -/
theorem preserves_modifyFile (n : Nat) {f : MemoryFile → MemoryFile}
    (hf : ∀ file, (f file).path = file.path) : Preserves (Like m₀) (modifyFile n f) := by
  refine Preserves.change fun m hm => ⟨?_, hm.documentFaults, hm.recipes⟩
  show (m.files.modify n f).map MemoryFile.path = m₀.files.map MemoryFile.path
  rw [← hm.paths]
  refine List.ext_getElem? fun i => ?_
  rw [List.getElem?_map, List.getElem?_map, List.getElem?_modify]
  cases m.files[i]? with
  | none => rfl
  | some file =>
    by_cases hi : n = i
    · simp [hi, hf]
    · simp [hi]

/-- A set that is built is kept, and the recipes are the same. -/
theorem converters_apply (m₀ : Memory) (l : String) (m : Memory) :
    ∃ r m', converters l m = (r, m') ∧ (Like m₀ m → Like m₀ m') ∧
      ∀ f, r = .error f → f.isLookup = true ∨ m.registry.recipes.lookup l = some (.error f) := by
  rw [converters, Action.bind_apply, Action.ask_apply]
  simp only [Registry.request, Action.bind_apply]
  -- only a set that is built for the first time changes anything
  cases m.registry.built.lookup l with
  | some set =>
    refine ⟨.ok set, m, rfl, id, fun f hf => ?_⟩
    contradiction
  | none =>
    cases hrecipe : m.registry.recipes.lookup l with
    | none =>
      refine ⟨.error (.unknownLanguage l), m, rfl, id, fun f hf => Or.inl ?_⟩
      obtain rfl := Except.error.inj hf
      rfl
    | some recipe =>
      cases recipe with
      | error f =>
        refine ⟨.error f, m, rfl, id, fun f' hf => Or.inr ?_⟩
        obtain rfl := Except.error.inj hf
        rfl
      | ok set =>
        refine ⟨.ok set, { m with registry := m.registry.keep l set }, rfl, fun hm => ?_,
          fun f hf => ?_⟩
        · exact ⟨hm.paths, hm.documentFaults, hm.recipes⟩
        · contradiction

/-! ## The host -/

/-- Every operation of the host leaves paths, faults of documents and recipes alone. -/
theorem respects_like (m₀ : Memory) : host.Respects (Like m₀) where
  read n := by
    refine (preserves_check n .read).bind fun _ => (preserves_file n).bind fun f => ?_
    cases f.chunks with
    | some chunks => exact Preserves.pure chunks
    | none =>
      -- a file without chunks of its own has what is on the disk
      refine (Preserves.ask Memory.disk).bind fun disk => ?_
      split
      · exact Preserves.pure _
      · exact Preserves.pure _
  openWrite n :=
    (preserves_check n .openWrite).bind fun _ => (preserves_file n).bind fun f =>
      (preserves_put f.path []).bind fun _ => preserves_modifyFile n fun _ => rfl
  write n _ := preserves_check n .write
  commit n t :=
    (preserves_check n .commit).bind fun _ => (preserves_file n).bind fun f =>
      preserves_put f.path t
  converters l := by
    intro m hm
    obtain ⟨r, m', hr, hlike, -⟩ := converters_apply m₀ l m
    show Like m₀ (converters l m).2
    rw [hr]
    exact hlike hm
  convert set d t := by
    refine Preserves.bind ?_ fun _ => (Preserves.ask Memory.broken).bind fun broken => ?_
    · exact Preserves.change fun _ hm => ⟨hm.paths, hm.documentFaults, hm.recipes⟩
    · cases broken.lookup (set.language, d) with
      | some f => exact Preserves.throw f
      | none => exact Preserves.ofExcept _
  checkModified d := preserves_checkDocument d .isModified
  checkEdit d := preserves_checkDocument d .setText
  checkLoad d := by
    refine Preserves.bind ?_ fun _ => preserves_checkDocument d .load
    exact Preserves.change fun _ hm => ⟨hm.paths, hm.documentFaults, hm.recipes⟩

/-- It can be told whether a document is modified unless this has been made to fail. -/
theorem checkModified_of_like {d : Nat}
    (hfaults : (d, DocumentFault.isModified) ∉ m₀.documentFaults) (hlike : Like m₀ m) :
    (host.checkModified d m).1 = .ok () := by
  show (checkDocument d .isModified m).1 = .ok ()
  rw [checkDocument, Action.bind_apply, Action.ask_apply, hlike.documentFaults]
  simp only [List.contains_iff_mem, hfaults, if_false]
  rfl

/-- The host fails as expected if it can be told whether the document is modified and every recipe
gives a set. -/
theorem not_erratic {d : Nat} (hfaults : (d, DocumentFault.isModified) ∉ m₀.documentFaults)
    (hrecipes : ∀ l f, m₀.registry.recipes.lookup l ≠ some (.error f)) :
    ¬ Editor.Erratic host (Like m₀) d := by
  -- asking for the converters or for the document are the two ways to fail
  rintro ⟨m, f, hlike, ⟨l, hf, hlookup⟩ | hf⟩
  · obtain ⟨r, m', hr, -, hfailure⟩ := converters_apply m₀ l m
    have hresult : r = .error f := (congrArg Prod.fst hr).symm.trans hf
    rcases hfailure f hresult with hknown | hrecipe
    · rw [hlookup] at hknown
      contradiction
    · rw [hlike.recipes] at hrecipe
      exact hrecipes l f hrecipe
  · rw [checkModified_of_like hfaults hlike] at hf
    contradiction

/-! ## An editor with one script -/

/-- A script with an unmodified text. -/
def script (t : Text) : Document ConverterSet where
  text := t
  dialect := .canonical
  modified := false
  grammar := ⟨"source.js", "JavaScript"⟩
  handle := some (.file 0)
  grammarObservers := .empty
  endObservers := .empty
  closed := false

/-- An editor with one document, a script that is stored in memory. -/
def oneScript (t : Text) : Editor Memory ConverterSet where
  documents := [script t]
  notifications := .empty
  tracked := []
  observations := []
  log := []
  faults := []
  host := ⟨[("a.js", t)], [⟨"a.js", none, [], 0, .empty⟩], [], [], [], [], Recipe.standard 2⟩

end Dialects.Memory
