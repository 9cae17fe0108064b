import Dialects.Storage.Directory

/-!
# Writing a file on disk

What is written to a file replaces it as a whole or not at all. Whether it does depends on four
things: that the path leads to a place that can be written, that the text can be encoded, and that
the disk refuses none of the three operations. They are put together in `Directory.replacement?`,
which says what would be put where; opening and writing check a part of it and change nothing, and
the commit carries it out.

## Main results

* `locate_insert_file`: a file that is replaced stays where its path leads;
* `commit_cases`: a commit puts the bytes of the text in the place of the file, or changes nothing.
-/

namespace Dialects

namespace Tree

/-- Paths lead where they led before when a file is put where no folder stands. -/
theorem locate_insert_file (t : Tree) {place : Location} (hplace : t.at? place ≠ some .folder)
    (content : Bytes) (p : Path) : (t.insert place (.file content)).locate p = t.locate p := by
  have hroot : place ≠ [] := by
    rintro rfl
    exact hplace rfl
  -- only folders matter on the way, and the place is a folder neither before nor after
  have hstep : (t.insert place (.file content)).step = t.step := by
    funext other name
    by_cases hother : other = place
    · subst hother
      simp [step, at?_insert_self t hroot, hplace]
    · rw [step, step, at?_insert_of_ne t hother]
  rw [locate, locate, hstep]
  rfl

/-- A file that is put where a path leads stands there afterwards. -/
theorem find?_insert_writable {t : Tree} {p : Path} {place : Location}
    (hplace : t.writable? p = some place) (content : Bytes) :
    (t.insert place (.file content)).find? p = some (.file content) := by
  -- the path leads to the place even if nothing is there yet
  have hlocate : t.locate p = some place ∧ t.at? place ≠ some .folder := by
    rw [writable?] at hplace
    split at hplace
    · contradiction
    · split at hplace
      · contradiction
      · cases hplace
        exact ⟨by assumption, by assumption⟩
  -- the root is a folder, and nothing can be put in its place
  have hroot : place ≠ [] := by
    rintro rfl
    exact hlocate.2 rfl
  rw [find?, locate_insert_file t hlocate.2, hlocate.1, Option.bind_some,
    at?_insert_self t hroot]

end Tree

namespace Directory

variable {n : Nat} {s : Directory}

/-- The place that is written when a file is, unless it cannot be opened. -/
def place? (n : Nat) (s : Directory) : Option Location := do
  let place ← s.tree.writable? (← s.files[n]?).path
  if FileFault.openWrite ∈ s.refused then none else some place

/-- The bytes of a text, unless it cannot be encoded or the disk refuses to take it. -/
def bytes? (t : Text) (s : Directory) : Option Bytes := do
  let bytes ← (Utf8.encode t).toOption
  if FileFault.write ∈ s.refused then none else some bytes

/-- What is put where when a text is written to a file, unless something is in the way. -/
def replacement? (n : Nat) (t : Text) (s : Directory) : Option (Location × Bytes) := do
  let place ← place? n s
  let bytes ← bytes? t s
  if FileFault.commit ∈ s.refused then none else some (place, bytes)

/-- A file that is there is given. -/
theorem file_apply {f : DiskFile} (h : s.files[n]? = some f) : file n s = (.ok f, s) := by
  rw [file, Action.bind_apply, Action.ask_apply]
  simp only [h, Action.pure_apply]

/-- There is no file beyond the last one. -/
theorem file_of_none (h : s.files[n]? = none) :
    file n s = (.error (.badIndex "no such file"), s) := by
  rw [file, Action.bind_apply, Action.ask_apply]
  simp only [h, Action.throw_apply]

/-- Looking for the place of a file changes nothing. -/
theorem target_cases (n : Nat) (s : Directory) :
    (∃ f, target n s = (.error f, s) ∧ place? n s = none) ∨
      ∃ place, target n s = (.ok place, s) ∧ place? n s = some place := by
  -- the file may be missing, its path may lead nowhere, or writing may be refused
  cases hfile : s.files[n]? with
  | none =>
    refine Or.inl ⟨.badIndex "no such file", ?_, by simp [place?, hfile]⟩
    rw [target, Action.bind_apply, file_of_none hfile]
  | some f =>
    rw [target, Action.bind_apply, file_apply hfile]
    cases hplace : s.tree.writable? f.path with
    | none =>
      refine Or.inl ⟨.storage ("Cannot open for write: " ++ f.path.toString), ?_,
        by simp [place?, hfile, hplace]⟩
      simp [refuses, Action.bind_apply, Action.ask_apply, Action.throw_apply, hplace]
    | some place =>
      by_cases hrefused : FileFault.openWrite ∈ s.refused
      · refine Or.inl ⟨.storage ("Cannot open for write: " ++ f.path.toString), ?_,
          by simp [place?, hfile, hrefused]⟩
        simp [refuses, Action.bind_apply, Action.ask_apply, Action.throw_apply, hplace, hrefused]
      · refine Or.inr ⟨place, ?_, by simp [place?, hfile, hplace, hrefused]⟩
        simp [refuses, Action.bind_apply, Action.ask_apply, Action.pure_apply, hplace, hrefused]

/-- Encoding a text changes nothing. -/
theorem encode_cases (n : Nat) (t : Text) (s : Directory) :
    (∃ f, encode n t s = (.error f, s) ∧ bytes? t s = none) ∨
      ∃ bytes, encode n t s = (.ok bytes, s) ∧ bytes? t s = some bytes := by
  cases hbytes : Utf8.encode t with
  | error fault =>
    refine Or.inl ⟨.unencodable fault, ?_, by simp [bytes?, hbytes, Except.toOption]⟩
    rw [encode, hbytes]
    rfl
  | ok bytes =>
    by_cases hrefused : FileFault.write ∈ s.refused
    · refine Or.inl ?_
      -- the message of the failure needs the file, which may be missing
      have hfailed : ∃ f, encode n t s = (.error f, s) := by
        rw [encode, hbytes]
        simp only [refuses, Action.bind_apply, Action.ask_apply, List.contains_iff_mem.mpr hrefused,
          if_true]
        cases hfile : s.files[n]? with
        | none => exact ⟨_, by rw [file_of_none hfile]⟩
        | some f => exact ⟨_, by rw [file_apply hfile]; rfl⟩
      obtain ⟨f, hf⟩ := hfailed
      exact ⟨f, hf, by simp [bytes?, hrefused]⟩
    · refine Or.inr ⟨bytes, ?_, by simp [bytes?, hbytes, Except.toOption, hrefused]⟩
      rw [encode, hbytes]
      simp [refuses, Action.bind_apply, hrefused]

/-- A commit puts the bytes of the text in the place of the file, or changes nothing. -/
theorem commit_cases (n : Nat) (t : Text) (s : Directory) :
    (∃ f, commit n t s = (.error f, s) ∧ replacement? n t s = none) ∨
      ∃ place bytes, commit n t s
          = (.ok (), { s with tree := s.tree.insert place (.file bytes) }) ∧
        replacement? n t s = some (place, bytes) := by
  rw [commit, Action.bind_apply]
  obtain ⟨f, htarget, hplace⟩ | ⟨place, htarget, hplace⟩ := target_cases n s
  · exact Or.inl ⟨f, by rw [htarget], by simp [replacement?, hplace]⟩
  rw [htarget]
  simp only [Action.bind_apply]
  obtain ⟨f, hencode, hbytes⟩ | ⟨bytes, hencode, hbytes⟩ := encode_cases n t s
  · exact Or.inl ⟨f, by rw [hencode], by simp [replacement?, hplace, hbytes]⟩
  rw [hencode]
  simp only [refuses, Action.ask_apply]
  by_cases hrefused : FileFault.commit ∈ s.refused
  · -- there is such a file, or else it would have had no place
    obtain ⟨f, hf⟩ : ∃ f, file n s = (.ok f, s) := by
      cases hfile : s.files[n]? with
      | none => simp [place?, hfile] at hplace
      | some f => exact ⟨f, file_apply hfile⟩
    refine Or.inl ⟨.storage ("Commit failed for: " ++ f.path.toString), ?_,
      by simp [replacement?, hrefused]⟩
    simp only [List.contains_iff_mem.mpr hrefused, if_true, Action.bind_apply, hf,
      Action.throw_apply]
  · refine Or.inr ⟨place, bytes, ?_, by simp [replacement?, hplace, hbytes, hrefused]⟩
    simp [hrefused]

/-- What is put somewhere are the bytes of the text, and the path of the file leads there. -/
theorem of_replacement? {t : Text} {place : Location} {bytes : Bytes}
    (h : replacement? n t s = some (place, bytes)) :
    Utf8.encode t = .ok bytes ∧ s.tree.writable? (path n s) = some place := by
  -- a replacement is asked for in three steps, and none of them may fail
  simp only [replacement?, place?, bytes?, Option.bind_eq_bind, Option.bind_eq_some_iff] at h
  obtain ⟨place₁, ⟨f, hfile, place₂, hplace, hopen⟩, bytes₁, ⟨bytes₂, hbytes, hwrite⟩, hcommit⟩ := h
  split at hopen <;> cases hopen
  split at hwrite <;> cases hwrite
  split at hcommit <;> cases hcommit
  constructor
  · cases hencode : Utf8.encode t with
    | error fault => simp [hencode, Except.toOption] at hbytes
    | ok bytes' => simpa [hencode, Except.toOption] using hbytes
  · simpa [path, hfile] using hplace

end Directory

end Dialects
