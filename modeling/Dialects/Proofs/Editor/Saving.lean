import Dialects.Proofs.Editor.Operations
import Dialects.Proofs.Storage.Directory

/-!
# Saving is all or nothing

A save on disk passes through the handle of the document, which may convert the text, and through
the writer of the file, which encodes it. Whatever fails, nothing has been changed by then; if
nothing fails, then the file holds the bytes of the text as it leaves the handle, and the document
is no longer modified.

## Main definitions

* `Handle.outgoing`: what becomes of a text on its way to the file;
* `replacement?`: what a save puts where, unless something is in the way.

## Main results

* `store_cases`: storing a text through a handle, by induction on the handle;
* `save_on_disk`: saving a document, with the condition under which it succeeds.
-/

namespace Dialects

open Streams

variable {κ : Type}

/-- What becomes of a text on its way to the file. A mapped handle converts it. -/
def Handle.outgoing (convert : κ → Direction → Convert) : Handle (Binding κ) → Convert
  | .file _, t => .ok t
  | .mapped inner b, t => do inner.outgoing convert (← convert b.set .toCanonical t)
  | .forwarding inner, t => inner.outgoing convert t

/-- The host keeps its files on disk, and its conversions do nothing but convert. -/
structure Host.OnDisk (h : Host Directory κ) (convert : κ → Direction → Convert) : Prop where
  files : h.files = Directory.fileOperations
  convert : ∀ set d t, h.convert set d t = .ofExcept (convert set d t)

/-- The files of a directory are on disk, and its converters need nothing else. -/
theorem Directory.onDisk_host : host.OnDisk ConverterSet.convert := ⟨rfl, fun _ _ _ => rfl⟩

namespace Editor

/-- What is put where when a text is stored through a handle, unless the text cannot be converted or
encoded, no file can be written under the path, or the disk refuses. -/
def replacement? (convert : κ → Direction → Convert) (handle : Handle (Binding κ)) (t : Text)
    (s : Directory) : Option (Location × Bytes) := do
  Directory.replacement? handle.base (← (handle.outgoing convert t).toOption) s

/-- Nothing is changed by an action that fails, and it fails if nothing can be put anywhere. If
something can, then this is all that the action changes about the documents and the disk. -/
def AllOrNothing (e : Editor Directory κ) (replacement : Option (Location × Bytes))
    (r : Except Failure Unit × Editor Directory κ) : Prop :=
  r.2.documents = e.documents ∧
    ((∃ f, r.1 = .error f ∧ r.2.host = e.host ∧ replacement = none) ∨
      ∃ place bytes, r.1 = .ok () ∧ replacement = some (place, bytes) ∧
        r.2.host = { e.host with tree := e.host.tree.insert place (.file bytes) })

section OnDisk

variable {h : Host Directory κ} {convert : κ → Direction → Convert} (hdisk : h.OnDisk convert)

include hdisk

/-- A file takes the whole text, or nothing is stored. -/
theorem store_file (n : Nat) (t : Text) (e : Editor Directory κ) :
    AllOrNothing e (Directory.replacement? n t e.host)
      (((Handle.file n : Handle (Binding κ)).sink (files h) (mapping h)).store [t] e) := by
  rw [store_singleton]
  simp only [Handle.sink, Files.sink, files, hdisk.files, Directory.fileOperations,
    Action.bind_apply]
  -- opening and encoding are tried and change nothing: only the commit writes
  obtain ⟨f, htarget, hplace⟩ | ⟨place, htarget, hplace⟩ := Directory.target_cases n e.host
  · rw [outside_of_error (by rw [Action.bind_apply, htarget])]
    exact ⟨rfl, Or.inl ⟨f, rfl, rfl, by simp [Directory.replacement?, hplace]⟩⟩
  rw [outside_of_ok (x := ()) (by rw [Action.bind_apply, htarget]; rfl)]
  simp only []
  obtain ⟨f, hencode, hbytes⟩ | ⟨bytes, hencode, hbytes⟩ := Directory.encode_cases n t e.host
  · rw [outside_of_error (by rw [Action.bind_apply, hencode])]
    exact ⟨rfl, Or.inl ⟨f, rfl, rfl, by simp [Directory.replacement?, hplace, hbytes]⟩⟩
  rw [outside_of_ok (x := ()) (by rw [Action.bind_apply, hencode]; rfl)]
  simp only []
  obtain ⟨f, hcommit, hnone⟩ | ⟨place', bytes', hcommit, hsome⟩ :=
    Directory.commit_cases n t e.host
  · rw [outside_of_error hcommit]
    exact ⟨rfl, Or.inl ⟨f, rfl, rfl, hnone⟩⟩
  · rw [outside_of_ok hcommit]
    exact ⟨rfl, Or.inr ⟨place', bytes', rfl, hsome, rfl⟩⟩

/-- Storing a text through a handle is all or nothing. -/
theorem store_cases (handle : Handle (Binding κ)) (t : Text) (e : Editor Directory κ) :
    AllOrNothing e (replacement? convert handle t e.host)
      ((handle.sink (files h) (mapping h)).store [t] e) := by
  induction handle generalizing t e with
  | file n => exact store_file hdisk n t e
  | forwarding inner ih => exact ih t e
  | mapped inner b ih =>
    have hcall : (mapping h).convert b .toCanonical t
        = outside (.ofExcept (convert b.set .toCanonical t)) :=
      congrArg outside (hdisk.convert b.set .toCanonical t)
    rw [store_mapped, Action.bind_apply, Action.attempt_apply, hcall]
    cases hconvert : convert b.set .toCanonical t with
    | error f =>
      -- the failure is reported, which touches neither the documents nor the disk
      rw [outside_of_error (Action.ofExcept_apply (.error f) e.host)]
      exact ⟨rfl, Or.inl ⟨_, rfl, rfl, by rw [replacement?, Handle.outgoing, hconvert]; rfl⟩⟩
    | ok converted =>
      rw [outside_of_ok (Action.ofExcept_apply (.ok converted) e.host)]
      have hsame : replacement? convert (.mapped inner b) t e.host
          = replacement? convert inner converted e.host := by
        rw [replacement?, Handle.outgoing, hconvert]
        rfl
      have hinner := ih converted e
      rw [hsame]
      simp only [Action.bind_apply]
      rcases hstore : (inner.sink (files h) (mapping h)).store [converted] e with ⟨f | ⟨⟩, e₁⟩
      · rw [hstore] at hinner
        exact hinner
      · -- what is notified after a save touches neither the documents nor the disk
        rw [hstore] at hinner
        exact hinner

/-- Saving is all or nothing. If it fails then the disk and all documents are as they were, and it
fails exactly if there is nothing that can be put anywhere. Otherwise what the file's path leads to
are the bytes of the text as it leaves the handle, everything else stands where it stood, and the
document is no longer modified. -/
theorem save_on_disk {e : Editor Directory κ} {d : Nat} {doc : Document κ}
    {handle : Handle (Binding κ)} (hdoc : e.Holds d doc) (hhandle : doc.handle = some handle) :
    ∃ r e', save h d e = (r, e') ∧
      ((∃ f, r = .error f ∧ replacement? convert handle doc.text e.host = none ∧
          e'.host = e.host ∧ e'.documents = e.documents) ∨
        ∃ stored bytes place, r = .ok () ∧
          replacement? convert handle doc.text e.host = some (place, bytes) ∧
          handle.outgoing convert doc.text = .ok stored ∧ Utf8.encode stored = .ok bytes ∧
          e'.host = { e.host with tree := e.host.tree.insert place (.file bytes) } ∧
          e'.host.tree.find? (Directory.path handle.base e'.host) = some (.file bytes) ∧
          e'.documents = e.documents.set d { doc with modified := false }) := by
  -- the flag is put out behind the store, and only if the store does not fail
  have hsave : save h d e = (((handle.sink (files h) (mapping h)).store [doc.text] >>= fun _ =>
      modify d fun doc => { doc with modified := false }) e) := by
    rw [save, Action.bind_apply, document_apply hdoc]
    simp only [hhandle]
  rw [hsave, Action.bind_apply]
  have hstore := store_cases hdisk handle doc.text e
  rcases hr : (handle.sink (files h) (mapping h)).store [doc.text] e with ⟨r, e₁⟩
  rw [hr] at hstore
  obtain ⟨hdocuments, ⟨f, rfl, hhost, hnone⟩ | ⟨place, bytes, rfl, hsome, hhost⟩⟩ := hstore
  · exact ⟨_, _, rfl, Or.inl ⟨f, rfl, hnone, hhost, hdocuments⟩⟩
  have hdoc₁ : e₁.Holds d doc := by
    rw [Holds, hdocuments]
    exact hdoc
  refine ⟨.ok (), e₁.put d { doc with modified := false }, modify_apply hdoc₁ _, Or.inr ?_⟩
  obtain ⟨stored, hstored, hput⟩ := Option.bind_eq_some_iff.mp hsome
  obtain ⟨hencode, hplace⟩ := Directory.of_replacement? hput
  have houtgoing : handle.outgoing convert doc.text = .ok stored := by
    cases hr : handle.outgoing convert doc.text with
    | error f => simp [hr, Except.toOption] at hstored
    | ok t => simpa [hr, Except.toOption] using hstored
  refine ⟨stored, bytes, place, rfl, hsome, houtgoing, hencode, hhost, ?_, ?_⟩
  · show e₁.host.tree.find? (Directory.path handle.base e₁.host) = _
    rw [hhost]
    exact Tree.find?_insert_writable hplace bytes
  · rw [put, hdocuments]

end OnDisk

/-! ## A document on disk -/

/-- An editor with one document, which is shown in a lenient dialect without semicolons at the ends
of lines, on a disk that may refuse operations. -/
def oneLine (refused : List FileFault) : Editor Directory ConverterSet where
  documents := [{
    text := Text.ofString "b"
    dialect := .lenient
    modified := true
    grammar := ⟨"source.lines", "Lines"⟩
    handle := some (.mapped (.file 0) ⟨.lines "lines" "", "/p"⟩)
    grammarObservers := .empty
    endObservers := .empty
    closed := false }]
  notifications := .empty
  tracked := []
  observations := []
  log := []
  faults := []
  host := ⟨⟨[([['p']], .file [0x61])], []⟩, [⟨.ofString "/p", false, .empty⟩], refused, Recipe.standard 2⟩

/-- A document is saved through its mapped handle, so that its text gets the semicolon back; if the
file cannot be replaced, then the save fails and nothing has changed. -/
theorem save_on_disk_oneLine :
    Directory.host.OnDisk ConverterSet.convert ∧
      (∃ e', save Directory.host 0 (oneLine []) = (.ok (), e') ∧
        e'.host.tree.find? (.ofString "/p") = some (.file [0x62, 0x3b])) ∧
      ∃ f e', save Directory.host 0 (oneLine [.commit]) = (.error f, e') ∧
        e'.host = (oneLine [.commit]).host ∧ e'.documents = (oneLine [.commit]).documents := by
  refine ⟨Directory.onDisk_host, ?_, ?_⟩
  · have hput : replacement? ConverterSet.convert (.mapped (.file 0) ⟨.lines "lines" "", "/p"⟩)
        (Text.ofString "b") (oneLine []).host = some ([['p']], [0x62, 0x3b]) := by decide
    obtain ⟨r, e', hsave, ⟨f, -, hnone, -⟩ | ⟨_, bytes, place, rfl, hsome, -, -, hhost, hfind, -⟩⟩ :=
      save_on_disk Directory.onDisk_host (e := oneLine []) (d := 0) rfl rfl
    · -- what would be written is known, so that saving has not failed for lack of it
      exact absurd (hput.symm.trans hnone) (by simp)
    · obtain ⟨-, rfl⟩ := Prod.mk.inj (Option.some.inj (hsome.symm.trans hput))
      rw [show Directory.path _ e'.host = .ofString "/p" by rw [hhost]; rfl] at hfind
      exact ⟨e', hsave, hfind⟩
  · obtain ⟨r, e', hsave, ⟨f, rfl, -, hhost, hdocuments⟩ | ⟨_, _, _, -, hsome, -⟩⟩ :=
      save_on_disk Directory.onDisk_host (e := oneLine [.commit]) (d := 0) rfl rfl
    · exact ⟨f, e', hsave, hhost, hdocuments⟩
    · -- nothing is written while the file system refuses to
      cases hsome

end Editor

end Dialects
