import Dialects.CommandLine.Run
import Dialects.Proofs.Action
import Dialects.Proofs.Configuration
import Dialects.Proofs.Storage.Directory
import Dialects.Proofs.Streams.Storing

/-!
# What the command line does with a file

A file is read, converted and printed or stored on four different ways. What comes of it is one
function of the tree all the same (`Arguments.converted`), and the ways only differ in what is done
with the text that it gives (`Outcome`, `outcome_convertFile`): either the text is printed and the
tree stays as it is, or its bytes are put in the place of the file, unless it has none.

A run then turns this into an exit status (`run_cases`).

## Main definitions

* `Arguments.converted`: the converted text, or why there is none;
* `Outcome`: what may come of converting a file, and the tree afterwards;
* `Report`: what a run has said when it ends with a status or a failure.

## Main results

* `settled_of_parse`: no language but the two that the editor knows is ever asked for;
* `outcome_convertFile` and `run_cases`.
-/

namespace Dialects

/-! ## Failures of conversions -/

/-- A script that cannot be read is malformed, whatever would be made of it. -/
theorem Script.isPipeline_of_map_tokens {t : Text} {k : List Token → Text} {f : Failure}
    (h : (tokens t).map k = .error f) : f.isPipeline = true := by
  unfold tokens at h
  split at h
  · cases h; rfl
  · split at h
    · cases h; rfl
    · contradiction

/-- A document that cannot be read is malformed. -/
theorem Json.isPipeline_of_reprint {parse : Text → Except Fault Value} {l : Layout} {t : Text}
    {f : Failure} (h : reprint parse l t = .error f) : f.isPipeline = true := by
  -- an empty text is not read, and what is read fails with a fault or not at all
  unfold reprint at h
  split at h
  · contradiction
  split at h
  · contradiction
  next fault _ =>
    cases h
    unfold Fault.toFailure
    split <;> rfl

namespace CommandLine

open Streams

/-! ## The language of a file -/

/-- The language is guessed, or is one of the two that the editor knows. -/
def Arguments.Settled (a : Arguments) : Prop := ∀ l ∈ a.language, l = "js" ∨ l = "json"

/-- Whatever has been found has such a language. -/
def Settling (r : Except Stop Found) : Prop := ∀ f, r = .ok f → f.arguments.Settled

theorem Settling.ok {f : Found} (h : f.arguments.Settled) : Settling (.ok f) := by
  rintro _ ⟨⟩
  exact h

theorem Settling.error (s : Stop) : Settling (.error s) := nofun

theorem Settling.bind {r : Except Stop Found} {k : Found → Except Stop Found} (hr : Settling r)
    (hk : ∀ f, f.arguments.Settled → Settling (k f)) : Settling (r >>= k) := by
  cases r with
  | error s => exact .error s
  | ok f => exact hk f (hr f rfl)

/-- The flags leave the language alone. -/
theorem settling_obey {f : Found} (h : f.arguments.Settled) (g : Flag) : Settling (f.obey g) := by
  cases g with
  | help => exact .error _
  | version => exact .error _
  | write => exact .ok h
  | verbose => exact .ok h

/-- A language is chosen among the two. -/
theorem settling_set {f : Found} (h : f.arguments.Settled) (s : Setting) (value : String) :
    Settling (f.set s value) := by
  unfold Found.set
  cases s with
  | config => exact .ok h
  | target =>
    simp only [Setting.values]
    split
    · exact .ok h
    · exact .error _
  | language =>
    -- a language is checked when it is set, as the target is
    simp only [Setting.values]
    split
    next hvalue =>
      refine .ok fun l hl => ?_
      obtain rfl : value = l := Option.some.inj hl
      simpa using hvalue
    · exact .error _

theorem settling_foldlM (flags : List Flag) {f : Found} (h : f.arguments.Settled) :
    Settling (flags.foldlM Found.obey f) := by
  induction flags generalizing f with
  | nil => exact .ok h
  | cons g gs ih =>
    rw [List.foldlM_cons]
    exact (settling_obey h g).bind fun f' hf' => ih hf'

theorem settling_applyFlag {f : Found} (h : f.arguments.Settled) (g : Flag) (short : Bool)
    (attached : Option Attached) : Settling (applyFlag f g short attached) := by
  unfold applyFlag
  split
  · exact settling_obey h g
  · split
    · exact .error _
    · rename_i text _
      -- what is attached to a short option is taken for further ones
      cases cluster g text with
      | error s => exact .error s
      | ok r =>
        obtain ⟨flags, rest⟩ := r
        cases rest with
        | none => exact settling_foldlM flags h
        | some w => exact settling_foldlM (f := f.leave w) flags h

/-- Going through the words, the language stays one of the two. -/
theorem settling_collect {f : Found} (h : f.arguments.Settled) (ws : List Word) :
    Settling (collect f ws) := by
  fun_induction collect f ws with
  | case1 f => exact .ok h
  | case10 f g short attached rest ih => exact (settling_applyFlag h g short attached).bind ih
  | case11 f s short attached rest ih => exact (settling_set h s _).bind ih
  | case12 f s short w rest ih => exact (settling_set h s w).bind ih
  | case13 => exact .error _
  | _ f _ => rename_i ih; exact ih h

/-- A command line that is understood names no other language. -/
theorem settled_of_parse {words : List String} {a : Arguments}
    (h : Arguments.parse words = .ok a) : a.Settled := by
  have hstart : Found.start.arguments.Settled := nofun
  unfold Arguments.parse at h
  cases hwords : classify words with
  | error s => rw [hwords] at h; contradiction
  | ok ws =>
    rw [hwords] at h
    cases hfound : collect .start ws with
    | error s => simp [bind, Except.bind, hfound] at h
    | ok f =>
      -- what has been collected is only looked at from here on
      have hf := settling_collect hstart ws f hfound
      simp only [bind, Except.bind, hfound] at h
      split at h
      · contradiction
      · split at h
        · cases h; exact hf
        · contradiction


/-! ## The converted text -/

/-- The direction of the conversion to a dialect. -/
def Target.direction : Target → Direction
  | .lenient => .toLenient
  | .canonical => .toCanonical

/-- The text of the file to which a path leads. -/
def textAt (t : Tree) (p : Path) : Except Failure Text :=
  match t.find? p with
  | none => .error (.missingFile p.toString)
  | some .folder => .error (.storage ("Cannot open for read: " ++ p.toString))
  | some (.file content) => (Utf8.decode content).mapError .undecodable

namespace Arguments

/-- The tag of the language of the file. -/
def tag (a : Arguments) : String := a.language.getD (languageForPath a.path)

/-- The converters of the file, given the indent of JSON. -/
def converters (a : Arguments) (indent : Int) : ConverterSet :=
  if a.tag = "json" then .json indent else .script

/-- The text to which the file is converted, or why there is none. -/
def converted (a : Arguments) (indent : Int) (t : Tree) : Except Failure Text := do
  (a.converters indent).convert a.target.direction (← textAt t (.ofString a.path))

/-- An empty text is converted to an empty one. -/
theorem convert_nil (a : Arguments) (indent : Int) (target : Target) :
    (a.converters indent).convert target.direction [] = .ok [] := by
  unfold converters
  split <;> cases target
  · rfl
  · rfl
  · show Script.toLenient [] = .ok []
    cbv
  · show Script.toCanonical [] = .ok []
    cbv

/-- A text that cannot be converted is malformed. -/
theorem isPipeline_of_convert {a : Arguments} {indent : Int} (target : Target) {t : Text}
    {f : Failure} (h : (a.converters indent).convert target.direction t = .error f) :
    f.isPipeline = true := by
  unfold converters at h
  split at h <;> cases target
  · exact Json.isPipeline_of_reprint h
  · exact Json.isPipeline_of_reprint h
  · exact Script.isPipeline_of_map_tokens h
  · exact Script.isPipeline_of_map_tokens h

/-- The language of the file is one of the two. -/
theorem Settled.tag_cases {a : Arguments} (h : a.Settled) : a.tag = "js" ∨ a.tag = "json" := by
  unfold tag
  cases hlanguage : a.language with
  | some l => exact h l hlanguage
  | none =>
    rw [Option.getD_none, languageForPath]
    split
    · exact .inr rfl
    · exact .inl rfl

end Arguments

/-! ## Reading and storing -/

section Disk

variable {s : Directory} {n : Nat} {file : DiskFile}

/-- The converters of the two languages are there. -/
theorem converters_apply {indent : Int} {l : String} (hl : l = "js" ∨ l = "json")
    (hregistry : s.registry = Recipe.standard indent) :
    ∃ r, Directory.converters l s
      = (.ok (if l = "json" then .json indent else .script), { s with registry := r }) := by
  obtain rfl | rfl := hl
  · refine ⟨(Recipe.standard indent).keep "js" .script, ?_⟩
    simp only [Directory.converters, Action.bind_apply, Action.ask_apply, hregistry]
    rfl
  · refine ⟨(Recipe.standard indent).keep "json" (.json indent), ?_⟩
    simp only [Directory.converters, Action.bind_apply, Action.ask_apply, hregistry]
    rfl

/-- The chunks in which a text is read: one, or none if it is empty. -/
def chunks (t : Text) : List Text := if t = [] then [] else [t]

/-- A file is read as a whole. -/
theorem read_apply (hfile : s.files[n]? = some file) (hrefused : s.refused = []) :
    Directory.read n s = ((textAt s.tree file.path).map chunks, s) := by
  rw [Directory.read, Action.bind_apply, Directory.file_apply hfile]
  simp only [Action.bind_apply, Action.ask_apply, textAt]
  -- the path leads to nothing, to a folder or to a file
  cases hentry : s.tree.find? file.path with
  | none => rfl
  | some entry =>
    cases entry with
    | folder => rfl
    | file content =>
      simp only [Directory.refuses, hrefused, Action.bind_apply, Action.ask_apply,
        List.contains_nil, Bool.false_eq_true, if_false]
      cases Utf8.decode content with
      | error fault => rfl
      | ok t => cases t <;> rfl

/-- The place of a file is where its path leads. -/
theorem target_apply {place : Location} (hfile : s.files[n]? = some file)
    (hrefused : s.refused = []) (hplace : s.tree.writable? file.path = some place) :
    Directory.target n s = (.ok place, s) := by
  rw [Directory.target, Action.bind_apply, Directory.file_apply hfile]
  simp [Directory.refuses, Action.bind_apply, hplace, hrefused]

/-- Nothing but a surrogate is in the way of the encoding. -/
theorem encode_apply (hrefused : s.refused = []) (t : Text) :
    Directory.encode n t s = ((Utf8.encode t).mapError .unencodable, s) := by
  unfold Directory.encode
  cases Utf8.encode t with
  | error fault => rfl
  | ok bytes => simp [Directory.refuses, Action.bind_apply, hrefused]

/-- A file that can be read can be written. -/
theorem exists_writable_of_textAt {t : Tree} {p : Path} {text : Text} (h : textAt t p = .ok text) :
    ∃ place, t.writable? p = some place := by
  unfold textAt at h
  split at h
  · contradiction
  · contradiction
  next content hfile =>
    obtain ⟨place, hlocate, hplace⟩ := Option.bind_eq_some_iff.1 hfile
    exact ⟨place, by simp [Tree.writable?, hlocate, hplace]⟩

end Disk

section Handles

variable {a : Arguments} {c : Console} {n : Nat} {file : DiskFile}

/-- Reads the whole of a file through a handle. -/
def readText (m : Mapping Console ConverterSet) (handle : Handle ConverterSet) :
    Action Console Text := do
  return (← handle.read Console.files m).flatten

/-- The text of a file, as it is read through a handle that converts it, or not. -/
theorem readText_apply {m : Mapping Console ConverterSet} {handle : Handle ConverterSet}
    (convert : Convert) (hincoming : ∀ t c, handle.incoming m t c = (convert t, c))
    (hnil : convert [] = .ok []) (hfile : c.disk.files[handle.base]? = some file)
    (hrefused : c.disk.refused = []) :
    readText m handle c = (textAt c.disk.tree file.path >>= convert, c) := by
  have hread : Console.files.read handle.base c
      = ((textAt c.disk.tree file.path).map chunks, c) := by
    simp only [Console.files, Console.onDisk, Directory.fileOperations, Action.on_apply,
      read_apply hfile hrefused]
  rw [readText, Action.bind_apply, Handle.read, Action.bind_apply, hread]
  cases textAt c.disk.tree file.path with
  | error f => rfl
  | ok t =>
    simp only [Except.map, chunks]
    -- An empty file has no chunk that could be converted.
    by_cases hempty : t = []
    · subst hempty
      simp [hnil, bind, Except.bind]
    · simp only [if_neg hempty, List.mapM_cons, List.mapM_nil, Action.bind_apply, hincoming]
      cases hconvert : convert t <;> simp [hconvert, bind, Except.bind]

/-- Telling about a save only adds to the remarks. -/
theorem listener_apply (a : Arguments) (set : ConverterSet) (c : Console) :
    (∀ f, ∃ remarks, ((Console.mapping a).listener set).onError f c = (.ok (), { c with remarks })) ∧
      ∃ remarks, ((Console.mapping a).listener set).onSuccess c = (.ok (), { c with remarks }) := by
  unfold Console.mapping
  dsimp only
  split
  · exact ⟨fun f => ⟨_, rfl⟩, ⟨_, rfl⟩⟩
  · exact ⟨fun f => ⟨_, rfl⟩, ⟨_, rfl⟩⟩

/-- The bytes of a text are put in the place of the file, unless it has none. -/
theorem store_file_apply {place : Location} (m : Mapping Console ConverterSet)
    (hfile : c.disk.files[n]? = some file) (hrefused : c.disk.refused = [])
    (hplace : c.disk.tree.writable? file.path = some place) (t : Text) :
    ((Handle.file n).sink Console.files m).store [t] c =
      match Utf8.encode t with
      | .error fault => (.error (.unencodable fault), c)
      | .ok bytes => (.ok (),
          { c with disk := { c.disk with tree := c.disk.tree.insert place (.file bytes) } }) := by
  have hopen : Console.files.openWrite n c = (.ok (), c) := by
    simp only [Console.files, Console.onDisk, Directory.fileOperations, Action.on_apply,
      Action.bind_apply, target_apply hfile hrefused hplace, Action.pure_apply]
  have hwrite : Console.files.write n t c
      = ((Utf8.encode t).mapError Failure.unencodable |>.map fun _ => (), c) := by
    simp only [Console.files, Console.onDisk, Directory.fileOperations, Action.on_apply,
      Action.bind_apply, encode_apply hrefused]
    cases Utf8.encode t <;> rfl
  -- opening has changed nothing yet, so that a text that cannot be encoded leaves the file alone
  rw [store_singleton, Action.bind_apply]
  simp only [Handle.sink, Files.sink, hopen, Action.bind_apply, hwrite]
  cases hencode : Utf8.encode t with
  | error fault => rfl
  | ok bytes =>
    simp [Except.map, Console.files, Console.onDisk, Directory.fileOperations,
      Directory.commit, Directory.refuses, Action.bind_apply, hrefused, hencode,
      target_apply hfile hrefused hplace, encode_apply hrefused]

/-- A text that is stored through the mapped handle is converted first. -/
theorem store_mapped_apply {place : Location} (a : Arguments) (set : ConverterSet)
    (hfile : c.disk.files[n]? = some file) (hrefused : c.disk.refused = [])
    (hplace : c.disk.tree.writable? file.path = some place) (t : Text) :
    ∃ remarks, ((Handle.mapped (.file n) set).sink Console.files (Console.mapping a)).store [t] c =
      match set.convert .toCanonical t with
      | .error f => (.error (.unsaved (Console.files.path n c) f), { c with remarks })
      | .ok u =>
        match Utf8.encode u with
        | .error fault => (.error (.unencodable fault), { c with remarks })
        | .ok bytes => (.ok (),
            { c with disk := { c.disk with tree := c.disk.tree.insert place (.file bytes) },
                     remarks }) := by
  have hconvert : (Console.mapping a).convert set .toCanonical t c
      = (set.convert .toCanonical t, c) := rfl
  simp only [store_mapped, Action.bind_apply, Action.attempt_apply, hconvert]
  -- the conversion comes first, and what it remarks is all that a failure leaves behind
  cases set.convert .toCanonical t with
  | error f =>
    obtain ⟨remarks, hlisten⟩ := (listener_apply a set c).1 f
    refine ⟨remarks, ?_⟩
    simp only [Action.bind_apply, hlisten]
    rfl
  | ok u =>
    simp only [Action.bind_apply, store_file_apply _ hfile hrefused hplace]
    cases Utf8.encode u with
    | error fault => exact ⟨c.remarks, rfl⟩
    | ok bytes => exact (listener_apply a set _).2

end Handles

/-! ## What comes of a file -/

/-- Whether a failure is reported on and gives the exit status 1. -/
def reported (f : Failure) : Bool := f.isPipeline || f.isStorage

/-- What comes of converting a file in a tree, and the tree afterwards. -/
inductive Outcome (a : Arguments) (indent : Int) (before : Tree) :
    Except Failure Text → Tree → Prop where
  /-- There is no converted text; why not may have been put in other words. -/
  | failed {f f' : Failure} (hconverted : a.converted indent before = .error f)
      (hsame : reported f' = reported f) : Outcome a indent before (.error f') before
  /-- The converted text is to be printed. -/
  | shown {t : Text} (hwrite : a.write = false) (hconverted : a.converted indent before = .ok t) :
      Outcome a indent before (.ok t) before
  /-- The bytes of the converted text have been put in the place of the file. -/
  | stored {t u : Text} {bytes : Bytes} {place : Location} (hwrite : a.write = true)
      (hconverted : a.converted indent before = .ok t) (hencode : Utf8.encode t = .ok bytes)
      (hplace : before.writable? (.ofString a.path) = some place) :
      Outcome a indent before (.ok u) (before.insert place (.file bytes))
  /-- The converted text has no bytes. -/
  | unencodable {t : Text} {fault : Utf8.EncodeFault} (hwrite : a.write = true)
      (hconverted : a.converted indent before = .ok t) (hencode : Utf8.encode t = .error fault) :
      Outcome a indent before (.error (.unencodable fault)) before


variable {a : Arguments} {indent : Int} {c : Console}

section Ready

variable {n : Nat} {file : DiskFile} (hfile : c.disk.files[n]? = some file)
  (hpath : file.path = .ofString a.path) (hrefused : c.disk.refused = [])

include hfile hpath hrefused

/-- A file that is read through the mapped handle is turned lenient on the way. -/
theorem outcome_lenient (htarget : a.target = .lenient) :
    ∃ r c', (do
      let text ← readText (Console.mapping a) (.mapped (.file n) (a.converters indent))
      if a.write then
        ((Handle.file n).sink Console.files (Console.mapping a)).store [text]
        return text
      else return text) c = (r, c') ∧
      c'.output = c.output ∧ Outcome a indent c.disk.tree r c'.disk.tree := by
  have hconverted : a.converted indent c.disk.tree =
      textAt c.disk.tree file.path >>= (a.converters indent).convert .toLenient := by
    rw [Arguments.converted, htarget, hpath]
    rfl
  rw [Action.bind_apply, readText_apply ((a.converters indent).convert .toLenient)
    (fun t c => rfl) (a.convert_nil indent .lenient) hfile hrefused, ← hconverted]
  -- a conversion that fails leaves everything as it is
  cases htext : a.converted indent c.disk.tree with
  | error f => exact ⟨_, _, rfl, rfl, .failed htext rfl⟩
  | ok t =>
    cases hwrite : a.write with
    | false => exact ⟨_, _, rfl, rfl, .shown hwrite htext⟩
    | true =>
      obtain ⟨text, htextAt⟩ : ∃ text, textAt c.disk.tree file.path = .ok text := by
        -- what has been converted has been read before
        cases h : textAt c.disk.tree file.path with
        | error f => rw [hconverted, h] at htext; contradiction
        | ok text => exact ⟨text, rfl⟩
      obtain ⟨place, hplace⟩ := exists_writable_of_textAt htextAt
      simp only [if_true, Action.bind_apply, store_file_apply _ hfile hrefused hplace]
      cases hencode : Utf8.encode t with
      | error fault => exact ⟨_, _, rfl, rfl, .unencodable hwrite htext hencode⟩
      | ok bytes => exact ⟨_, _, rfl, rfl, .stored hwrite htext hencode (hpath ▸ hplace)⟩

/-- A file that is read as it is is turned canonical by hand, or by the mapped handle through which
it is stored. -/
theorem outcome_canonical (htarget : a.target = .canonical) :
    ∃ r c', (do
      let text ← readText (Console.mapping a) (.file n)
      if a.write then
        ((Handle.mapped (.file n) (a.converters indent)).sink Console.files
          (Console.mapping a)).store [text]
        return []
      else Action.ofExcept ((a.converters indent).convert .toCanonical text)) c = (r, c') ∧
      c'.output = c.output ∧ Outcome a indent c.disk.tree r c'.disk.tree := by
  have hconverted : a.converted indent c.disk.tree =
      textAt c.disk.tree file.path >>= (a.converters indent).convert .toCanonical := by
    rw [Arguments.converted, htarget, hpath]
    rfl
  rw [Action.bind_apply, readText_apply .ok (fun t c => rfl) rfl hfile hrefused]
  cases htextAt : textAt c.disk.tree file.path with
  | error f =>
    rw [htextAt] at hconverted
    exact ⟨_, _, rfl, rfl, .failed hconverted rfl⟩
  | ok text =>
    rw [htextAt] at hconverted
    obtain ⟨place, hplace⟩ := exists_writable_of_textAt htextAt
    cases hwrite : a.write with
    | false =>
      -- The converter is called by hand.
      show ∃ r c', ((a.converters indent).convert .toCanonical text, c) = (r, c') ∧ _
      refine ⟨_, _, rfl, rfl, ?_⟩
      cases htext : (a.converters indent).convert .toCanonical text with
      | error f => exact .failed (hconverted.trans htext) rfl
      | ok t => exact .shown hwrite (hconverted.trans htext)
    | true =>
      -- The writer converts; if it cannot, then it says that it could not save, and why.
      obtain ⟨remarks, hstore⟩ :=
        store_mapped_apply a (a.converters indent) hfile hrefused hplace text
      show ∃ r c', (((Handle.mapped (.file n) (a.converters indent)).sink Console.files
        (Console.mapping a)).store [text] >>= fun _ => pure []) c = (r, c') ∧ _
      rw [Action.bind_apply, hstore]
      cases htext : (a.converters indent).convert .toCanonical text with
      | error f =>
        have hreported : reported f = true := by
          simp [reported, Arguments.isPipeline_of_convert .canonical htext]
        exact ⟨_, _, rfl, rfl, .failed (hconverted.trans htext) hreported.symm⟩
      | ok t =>
        dsimp only
        cases hencode : Utf8.encode t with
        | error fault =>
          exact ⟨_, _, rfl, rfl, .unencodable hwrite (hconverted.trans htext) hencode⟩
        | ok bytes =>
          exact ⟨_, _, rfl, rfl,
            .stored hwrite (hconverted.trans htext) hencode (hpath ▸ hplace)⟩

end Ready

/-- A file is converted to the text that is to be expected, and it is printed or stored as it is
asked for. -/
theorem outcome_convertFile (hsettled : a.Settled) (hrefused : c.disk.refused = [])
    (hregistry : c.disk.registry = Recipe.standard indent) :
    ∃ r c', convertFile a c = (r, c') ∧ c'.output = c.output ∧
      Outcome a indent c.disk.tree r c'.disk.tree := by
  obtain ⟨registry, hset⟩ := converters_apply hsettled.tag_cases hregistry
  have hconverters : Console.onDisk (Directory.converters (a.language.getD
      (languageForPath a.path))) c
        = (.ok (a.converters indent), { c with disk := { c.disk with registry } }) := by
    show (Console.onDisk (Directory.converters a.tag)) c = _
    rw [Console.onDisk, Action.on_apply, hset]
    rfl
  unfold convertFile
  dsimp only
  -- the file is opened as it is given, and counted as the last one
  have hopen (d : Directory) : Console.onDisk (Directory.openFile a.path) { c with disk := d }
      = (.ok d.files.length,
          { c with disk := { d with files := d.files ++ [⟨.ofString a.path, false, .empty⟩] } }) :=
    rfl
  rw [Action.bind_of_ok hconverters, Action.bind_of_ok (hopen _)]
  cases htarget : a.target with
  | lenient =>
    exact outcome_lenient (List.getElem?_concat_length ..) rfl hrefused htarget
  | canonical =>
    exact outcome_canonical (List.getElem?_concat_length ..) rfl hrefused htarget

/-! ## A run -/

/-- Where the configuration may be: first the file that is asked for, then others. -/
def Arguments.candidates (a : Arguments) (others : List (String × Candidate)) (t : Tree) :
    List (String × Candidate) :=
  (a.config.toList.map fun p => (Path.normal p, candidateOf p (t.find? (.ofString p)))) ++ others

/-- The preferences are those to which the candidates lead. Reading them only adds to the
remarks. -/
theorem configure_apply (a : Arguments) (others : List (String × Candidate)) (c : Console) :
    ∃ remarks, configure a others c
      = (Preferences.sought (a.candidates others c.disk.tree), { c with remarks }) := by
  -- whatever is ignored in a configuration file is remarked upon, and nothing else happens
  have hremarks (is : List Ignored) (k : Ignored → String) (c : Console) :
      ∃ remarks, is.forM (fun i => Console.remark (k i)) c = (.ok (), { c with remarks }) := by
    induction is generalizing c with
    | nil => exact ⟨c.remarks, rfl⟩
    | cons i is ih => exact ih { c with remarks := c.remarks ++ k i }
  have hthen {m : Action Console Unit} {r : Except Failure Preferences}
      (hm : ∃ remarks, m c = (.ok (), { c with remarks })) :
      ∃ remarks, (m >>= fun _ => Action.ofExcept r) c = (r, { c with remarks }) := by
    obtain ⟨remarks, hm⟩ := hm
    exact ⟨remarks, by rw [Action.bind_of_ok hm]; rfl⟩
  exact hthen (hremarks _ _ c)

/-- How a run ends, and what it leaves. -/
inductive Ending (a : Arguments) (indent : Int) (before : Tree) :
    Except Failure Nat × Console → Prop where
  /-- The converted text has been printed. -/
  | printed {c : Console} (hwrite : a.write = false)
      (hconverted : a.converted indent before = .ok c.output) (htree : c.disk.tree = before) :
      Ending a indent before (.ok 0, c)
  /-- The bytes of the converted text have been put in the place of the file. -/
  | stored {c : Console} {t : Text} {bytes : Bytes} {place : Location} (hwrite : a.write = true)
      (hconverted : a.converted indent before = .ok t) (hencode : Utf8.encode t = .ok bytes)
      (hplace : before.writable? (.ofString a.path) = some place)
      (htree : c.disk.tree = before.insert place (.file bytes)) (houtput : c.output = []) :
      Ending a indent before (.ok 0, c)
  /-- There is no converted text, and this has been reported on. -/
  | refused {c : Console} {f : Failure} (hconverted : a.converted indent before = .error f)
      (hreported : reported f = true) (hremarks : c.remarks ≠ "") (htree : c.disk.tree = before)
      (houtput : c.output = []) : Ending a indent before (.ok 1, c)
  /-- There is no converted text, for a reason that is not reported on. -/
  | raised {c : Console} {f f' : Failure} (hconverted : a.converted indent before = .error f)
      (hreported : reported f = false) (htree : c.disk.tree = before) (houtput : c.output = []) :
      Ending a indent before (.error f', c)
  /-- The converted text has no bytes. -/
  | unencodable {c : Console} {t : Text} {fault : Utf8.EncodeFault} (hwrite : a.write = true)
      (hconverted : a.converted indent before = .ok t) (hencode : Utf8.encode t = .error fault)
      (htree : c.disk.tree = before) (houtput : c.output = []) :
      Ending a indent before (.error (.unencodable fault), c)

/-- A command line that is understood ends in one of these ways, unless it has no preferences. -/
theorem run_cases {words : List String} {a : Arguments} (hparse : Arguments.parse words = .ok a)
    (others : List (String × Candidate)) (before : Tree) :
    (∃ f c, run words others (.start before) = (.error f, c) ∧ c.disk.tree = before ∧
        Preferences.sought (a.candidates others before) = .error f) ∨
      ∃ p, Preferences.sought (a.candidates others before) = .ok p ∧
        Ending a p.indent before (run words others (.start before)) := by
  obtain ⟨remarks, hconfigure⟩ := configure_apply a others (.start before)
  have hrun : run words others = convert a others := by
    rw [run, hparse]
  have htree : (Console.start before).disk.tree = before := rfl
  rw [hrun, convert, Action.bind_apply, hconfigure, htree]
  cases hsought : Preferences.sought (a.candidates others before) with
  | error f => exact .inl ⟨f, _, rfl, rfl, rfl⟩
  | ok p =>
    refine .inr ⟨p, rfl, ?_⟩
    -- The converters are registered before the file is looked at.
    obtain ⟨r, c, hconvert, houtput, houtcome⟩ :
        ∃ r c, convertFile a ⟨.ofTree before (Recipe.standard p.indent), [], remarks⟩ = (r, c) ∧
          c.output = [] ∧ Outcome a p.indent before r c.disk.tree :=
      outcome_convertFile (settled_of_parse hparse) rfl rfl
    have hregistry (k : Action Console Nat) :
        (Console.onDisk (.change fun d => { d with registry := Recipe.standard p.indent }) >>=
          fun _ => k) { Console.start before with remarks }
          = k ⟨.ofTree before (Recipe.standard p.indent), [], remarks⟩ := rfl
    dsimp only
    rw [hregistry, Action.bind_apply, Action.attempt_apply, hconvert]
    generalize hafter : c.disk.tree = after at houtcome
    cases houtcome with
    | @failed f f' hconverted hsame =>
      cases hreported : reported f' with
      | true =>
        have hcaught : (f'.isPipeline || f'.isStorage) = true := hreported
        simp only [hcaught, if_true]
        exact .refused hconverted (hsame ▸ hreported) (by simp [program]) hafter houtput
      | false =>
        have hthrown : (f'.isPipeline || f'.isStorage) = false := hreported
        simp only [hthrown, Bool.false_eq_true, if_false]
        exact .raised hconverted (hsame ▸ hreported) hafter houtput
    | @shown t hwrite hconverted =>
      rw [hwrite]
      refine .printed hwrite ?_ hafter
      show a.converted p.indent before = .ok (c.output ++ t)
      rw [houtput, hconverted, List.nil_append]
    | stored hwrite hconverted hencode hplace =>
      rw [hwrite]
      exact .stored hwrite hconverted hencode hplace hafter houtput
    | unencodable hwrite hconverted hencode =>
      exact .unencodable hwrite hconverted hencode hafter houtput

end CommandLine

end Dialects
