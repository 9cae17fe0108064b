import Dialects.Proofs.Editor.Coverage
import Dialects.Proofs.Editor.Mapping
import Dialects.Proofs.Editor.Reports
import Dialects.Proofs.Editor.Restart

/-!
# Switching to the lenient dialect

A canonical document that is given a lenient grammar should be shown in the lenient dialect whenever
its text can be converted, and what is stored in its file, too. When a document is opened, its file
is loaded only if it is there. When a document is turned lenient, an unmodified text is loaded anew
whether or not its file is there. So a document that has been opened before its file is written
cannot be switched as long as nobody types anything into it, and neither can one whose file has been
deleted since; all others can (`switches_iff`).

## Main definitions

* `Switches`: what is expected of a change to a lenient grammar;
* `Directory.Dependable`: converters are there for all languages that are known;
* `Switchable`: an open document whose text and file can be converted;
* `Missing`: the file of the document is not there.

## Main results

* `switches_of_turned`, `not_switches_of_unread`: what it depends on, for any host;
* `switches_iff`: whether documents on disk are switched.
-/

namespace Dialects.Editor

open Dialects.Action

variable {σ κ : Type} {alike : Part → σ → σ → Prop} {s : σ} {h : Host σ κ} {c : ControllerSettings}
  {e e' : Editor σ κ} {d o n : Nat} {doc : Document κ} {g : Grammar} {l : String} {t : Text}
  {before after : List Observer} {known : Option Grammar}

/-- The grammar is set, and then the document is shown in the lenient dialect of the language under
this grammar. Nothing has been reported. -/
def Switches (h : Host σ κ) (c : ControllerSettings) (d : Nat) (g : Grammar) (l : String)
    (e : Editor σ κ) : Prop :=
  ∃ e' doc, changeGrammar h c d g e = (.ok (), e') ∧ e'.Holds d doc ∧ doc.grammar = g ∧
    e'.tracked.lookup d = some l ∧ e'.notifications = e.notifications

section Separate

variable (hh : h.Separate alike fun _ => True)

include hh

/-- A document whose text can be converted or loaded, whichever is called for, is switched. -/
theorem switches_of_turned (he : Resembles alike s e.host)
    (hw : Watched d o before after known doc e) (hbefore : Listeners before)
    (hafter : Listeners after) (hfree : e.tracked.lookup d = none) (hne : doc.grammar ≠ g)
    (hl : c.languageOf g = some l) {set : κ} (hset : (h.converters l s).1 = .ok set)
    (hmodified : (h.checkModified d s).1 = .ok ()) (hload : (h.checkLoad d s).1 = .ok ())
    (hedit : (h.checkEdit d s).1 = .ok ()) (hbare : IsBare doc.handle)
    (ht : h.turned s c.reload known.isSome l doc = .ok t) : Switches h c d g l e := by
  have hw' := hw.announced g
  have hfree' : (announced d g before doc e).tracked.lookup d = none := hfree
  obtain ⟨e₁, doc₁, hr, hshape, hakin, -⟩ := turnLenient_turned (c := c) hh
    (e := announced d g before doc e) he hw'.holds hset hmodified hload hbare (fun _ => hedit) ht
  have hdoc₁ := hshape.holds hw'.holds
  -- the controller notes the grammar only now, and then the other listeners hear of it
  refine ⟨told g after (e₁.noted o doc₁.grammar), doc₁, ?_, hdoc₁, hakin.grammar, ?_, ?_⟩
  · rw [changeGrammar, show maxNesting = 199 + 1 from rfl, setGrammar_watched hw hbefore hne,
      Action.bind_apply, follow_watched hw', Action.bind_apply, handleGrammar_of_free hl hfree',
      Action.bind_of_ok hr]
    simp only [Action.pure_apply, note_apply hdoc₁]
    exact forM_tell_all g (fun _ _ => rfl) hafter _
  · show e₁.tracked.lookup d = some l
    rw [hshape.tracked]
    exact lookup_append_self hfree' l
  · have htells := turnLenient_tells h c d known l (announced d g before doc e)
    rw [hr] at htells
    exact htells.shown rfl

/-- A document cannot be loaded if its file cannot be read. -/
theorem load_unread (he : Resembles alike s e.host) (hdoc : e.Holds d doc)
    (hload : (h.checkLoad d s).1 = .ok ()) {handle : Handle (Binding κ)}
    (hhandle : doc.handle = some handle) {f : Failure}
    (hread : (h.files.read handle.base s).1 = .error f) :
    ∃ e', load h d e = (.error f, e') := by
  obtain ⟨e₁, hr₁, hfirst⟩ := Gives.outside hh (hh.checkLoad d) hload e he
  -- the file is asked in the state after the check, which looks the same to it
  have hfails : (h.files.read handle.base e₁.host).1 = .error f :=
    ((hh.read handle.base).same (hfirst.host he (.file handle.base))).1.symm.trans hread
  have hunread := outside_of_error (e := e₁) (Prod.ext hfails rfl :
    h.files.read handle.base e₁.host = (.error f, (h.files.read handle.base e₁.host).2))
  refine ⟨{ e₁ with
    host := (h.files.read handle.base e₁.host).2
    faults := e₁.faults ++ [f] }, ?_⟩
  rw [load, Action.bind_of_ok hr₁, Action.bind_of_ok (document_apply (hfirst.holds hdoc))]
  simp only [hhandle, Handle.read, files, Action.bind_apply, hunread]

/-- A text that has to be loaded cannot be shown if its file cannot be read. -/
theorem turnLenient_unread (he : Resembles alike s e.host) (hdoc : e.Holds d doc) {set : κ}
    (hset : (h.converters l s).1 = .ok set) (hmodified : (h.checkModified d s).1 = .ok ())
    (hload : (h.checkLoad d s).1 = .ok ()) (hbare : IsBare doc.handle)
    (hmod : doc.modified = false) (hreload : c.reload = true) (hn : h.backing s doc = some n)
    {f : Failure} (hread : (h.files.read n s).1 = .error f) (previous : Option Grammar) :
    ∃ e', turnLenient h c d previous l e = (.ok (some f), e') := by
  obtain ⟨e₁, source, hr, hshape⟩ := turnLenient_shows (c := c) hh he hdoc hset hmodified previous
  rw [hr, hn, hmod, Option.isSome_some]
  rw [hn, Option.isSome_some, if_pos rfl, handle_of_backing hbare hn] at hshape
  have hcount := hshape.count l
  obtain ⟨e₂, hr₂⟩ := load_unread hh (hcount.host he) (hcount.holds hdoc) hload rfl hread
  -- the text is not modified, so that nothing has been converted and it is loaded
  have hloads : loadWhen h d (true && !false && c.reload)
      { e₁ with tracked := e₁.tracked ++ [(d, l)] } = (.error f, e₂) := by
    rw [hreload]
    exact hr₂
  have hconverted : convertWhen h d set source (false && previous.isSome) e₁ = (.ok (), e₁) := rfl
  exact ⟨_, (showText_of_converted hconverted).trans (showText_of_unloaded hloads)⟩

/-- A document that has to be loaded is not switched if its file cannot be read. -/
theorem not_switches_of_unread (he : Resembles alike s e.host)
    (hw : Watched d o before after known doc e) (hbefore : Listeners before)
    (hfree : e.tracked.lookup d = none) (hne : doc.grammar ≠ g)
    (hl : c.languageOf g = some l) {set : κ} (hset : (h.converters l s).1 = .ok set)
    (hmodified : (h.checkModified d s).1 = .ok ()) (hload : (h.checkLoad d s).1 = .ok ())
    (hbare : IsBare doc.handle) (hmod : doc.modified = false) (hreload : c.reload = true)
    (hn : h.backing s doc = some n) {f : Failure} (hread : (h.files.read n s).1 = .error f) :
    ¬ Switches h c d g l e := by
  rintro ⟨e', doc', hchange, -, -, -, hsame⟩
  have hw' := hw.announced g
  have hfree' : (announced d g before doc e).tracked.lookup d = none := hfree
  obtain ⟨e₁, hr⟩ := turnLenient_unread (e := announced d g before doc e) hh he hw'.holds hset
    hmodified hload hbare hmod hreload hn hread known
  -- the failure is reported, and no report is taken back by what follows
  have htells := turnLenient_tells h c d known l (announced d g before doc e)
  rw [hr] at htells
  have hcount : e₁.notifications.count = e.notifications.count + 1 := htells.loud f rfl <| by
    rintro ⟨-, doc₁, -, -, -, hdoc₁, hmod₁, -⟩
    obtain rfl := hw'.holds.unique hdoc₁
    exact absurd (hmod.symm.trans hmod₁) Bool.false_ne_true
  have hnote : Grows (note o d : Action (Editor σ κ) Unit) :=
    (Grows.of_silent (Silent.document d)).bind fun _ =>
      Grows.of_silent fun _ => Preserves.change fun _ he => he
  have hrevert (d : Nat) (g : Grammar) : Grows (setGrammar h c 199 d g) := Grows.setGrammar 199 d g
  have hgrows := ((Grows.abortEnable hrevert d known f).bind fun _ => hnote).bind fun _ =>
    Grows.tell (h := h) (c := c) hrevert g after
  rw [changeGrammar, show maxNesting = 199 + 1 from rfl, setGrammar_watched hw hbefore hne,
    Action.bind_apply, follow_watched hw', Action.bind_apply, handleGrammar_of_free hl hfree',
    Action.bind_of_ok hr] at hchange
  have hle := hgrows e₁ () e' (by
    rw [Action.bind_apply, Action.bind_apply]
    exact hchange)
  rw [hsame, hcount] at hle
  exact absurd hle (Nat.not_succ_le_self _)

end Separate

end Dialects.Editor

/-! ## Documents on disk -/

namespace Dialects.Directory

open Dialects.Action Dialects.Editor

variable {n : Nat} {s : Directory} {l : String} {t t' : Text} {doc : Document ConverterSet}

/-- There are converters for every language that is known. -/
def Dependable (s : Directory) : Prop :=
  ∀ l f, s.registry.answer l = .error f → f.isLookup = true

/-- Files have nothing to do with converters. -/
theorem respects_dependable : host.Respects Dependable where
  read n s hs := by
    show Dependable (read n s).2
    cases hfile : s.files[n]? with
    | none =>
      rw [read, Action.bind_apply, file_of_none hfile]
      exact hs
    | some f =>
      rw [read_apply hfile]
      exact hs
  openWrite n s hs := by
    show Dependable ((target n >>= fun _ => pure ()) s).2
    rw [snd_bind_pure]
    -- an attempt to write may fail, and changes no converter
    obtain ⟨f, hr, -⟩ | ⟨place, hr, -⟩ := target_cases n s <;> rw [hr] <;> exact hs
  write n t s hs := by
    show Dependable ((encode n t >>= fun _ => pure ()) s).2
    rw [snd_bind_pure]
    obtain ⟨f, hr, -⟩ | ⟨bytes, hr, -⟩ := encode_cases n t s <;> rw [hr] <;> exact hs
  commit n t s hs := by
    show Dependable (commit n t s).2
    obtain ⟨f, hr, -⟩ | ⟨place, bytes, hr, -⟩ := commit_cases n t s <;> rw [hr] <;> exact hs
  converters l s hs := by
    show Dependable (converters l s).2
    obtain ⟨r, hr, hsame⟩ := converters_apply l s
    rw [hr]
    intro l' f hf
    exact hs l' f ((congrFun hsame l').symm.trans hf)
  convert _ _ _ _ hs := hs
  checkModified _ _ hs := hs
  checkEdit _ _ hs := hs
  checkLoad _ _ hs := hs

/-- A dependable host is not erratic about any document. -/
theorem not_erratic (d : Nat) : ¬ Erratic host Dependable d := by
  rintro ⟨s, f, hs, ⟨l, hf, hlookup⟩ | hf⟩
  · obtain ⟨r, hr, -⟩ := converters_apply l s
    have hanswer : s.registry.answer l = .error f := (congrArg Prod.fst hr).symm.trans hf
    exact absurd ((hs l f hanswer).symm.trans hlookup) Bool.true_eq_false.mp
  · contradiction

/-- A language may be added, or its converters replaced. -/
theorem dependable_register (hs : Dependable s) (l : String) (set : ConverterSet) :
    Dependable { s with registry := s.registry.register l (.ok set) } := by
  intro l' f hf
  -- what is registered is built from its recipe, which does not fail
  by_cases hl : l' = l
  · subst hl
    have hbuilt : (s.registry.register l' (.ok set)).built.lookup l' = none :=
      lookup_filter_self l' s.registry.built
    have hrecipe : (s.registry.register l' (.ok set)).recipes.lookup l' = some (.ok set) :=
      lookup_append_self (lookup_filter_self l' s.registry.recipes) _
    rw [Registry.answer, hbuilt, hrecipe] at hf
    contradiction
  · -- for any other language nothing changes
    have hbuilt : (s.registry.register l (.ok set)).built.lookup l'
        = s.registry.built.lookup l' := lookup_filter_of_ne hl s.registry.built
    have hrecipe : (s.registry.register l (.ok set)).recipes.lookup l'
        = s.registry.recipes.lookup l' :=
      (lookup_append_of_ne hl _ _).trans (lookup_filter_of_ne hl s.registry.recipes)
    rw [Registry.answer, hbuilt, hrecipe] at hf
    exact hs l' f hf

/-- The usual converters are there from the beginning. -/
theorem dependable_standard (tree : Tree) (indent : Int) :
    Dependable (.ofTree tree (Recipe.standard indent)) := by
  refine dependable_register (s := .ofTree tree (Registry.empty.register "js" (.ok .script)))
    (dependable_register (s := .ofTree tree .empty) ?_ _ _) _ _
  rintro l f hf
  rw [← Except.error.inj hf]
  rfl

/-- To look whether a file is there changes nothing. -/
theorem isPresent_apply (n : Nat) (s : Directory) : isPresent n s =
    (s.files[n]?.elim (.error (.badIndex "no such file")) fun f => .ok (s.tree.contains f.path),
      s) := by
  rw [isPresent, Action.bind_apply, Action.ask_apply]
  cases hfile : s.files[n]? with
  | none =>
    simp only [Action.bind_apply, file_of_none hfile]
    rfl
  | some f =>
    simp only [Action.bind_apply, file_apply hfile]
    rfl

/-- What is not there cannot be read. -/
theorem read_of_absent (habsent : (isPresent n s).1 ≠ .ok true) :
    ∃ f, (host.files.read n s).1 = .error f := by
  show ∃ f, (read n s).1 = .error f
  rw [isPresent_apply] at habsent
  cases hfile : s.files[n]? with
  | none =>
    refine ⟨.badIndex "no such file", ?_⟩
    rw [read, Action.bind_apply, file_of_none hfile]
  | some f =>
    rw [hfile, Option.elim_some, Tree.contains] at habsent
    have hnone : s.tree.find? f.path = none := by
      cases hfound : s.tree.find? f.path with
      | none => rfl
      | some node => exact absurd (by rw [hfound]; rfl) habsent
    refine ⟨.missingFile f.path.toString, ?_⟩
    rw [read_apply hfile, reading, hnone]

/-- A file is read in one piece, so that it is converted as a whole. -/
theorem shown_of_stored (hstored : host.stored s n = .ok t)
    (ht : host.converted s l .toLenient t = .ok t') : ∃ shown, host.shown s l n = .ok shown := by
  obtain ⟨chunks, hread, rfl⟩ := Host.exists_of_stored hstored
  -- the converter gets the text in as many pieces as are read, of which there is one at most
  have hchunks : chunks = [] ∨ ∃ t, chunks = [t] := by
    replace hread : (read n s).1 = .ok chunks := hread
    cases hfile : s.files[n]? with
    | none =>
      rw [read, Action.bind_apply, file_of_none hfile] at hread
      contradiction
    | some f =>
      rw [read_apply hfile, reading] at hread
      split at hread
      · contradiction
      · contradiction
      · -- what is read is a file whose bytes can be decoded, and an empty file has no piece
        split at hread
        · contradiction
        · split at hread
          · contradiction
          · exact Or.inl (Except.ok.inj hread).symm
          · exact Or.inr ⟨_, (Except.ok.inj hread).symm⟩
  obtain rfl | ⟨t, rfl⟩ := hchunks
  · refine ⟨[], ?_⟩
    rw [Host.shown, hread]
    rfl
  · rw [List.flatten_singleton] at ht
    refine ⟨[t'].flatten, ?_⟩
    rw [Host.shown, hread]
    show Except.map List.flatten (List.mapM (host.converted s l .toLenient) [t]) = _
    rw [List.mapM_cons, ht]
    rfl

/-- Every document with a handle has a file: no path is empty. -/
theorem backing_eq_file? (s : Directory) (doc : Document ConverterSet) :
    host.backing s doc = doc.file? := by
  rw [Host.backing]
  cases doc.file? with
  | none => rfl
  | some n => exact Option.filter_some_pos (decide_eq_true (toString_ne_empty (path n s)))

end Dialects.Directory

namespace Dialects.Workspace

open Dialects.Action Dialects.Editor Rehearsal.Workroom

variable {c : ControllerSettings} {w : Workspace Directory ConverterSet} {d : Nat}
  {doc : Document ConverterSet} {g : Grammar} {l : String}

/-- A document that is open and canonical while the lenient mode is on. The grammar is that of a
lenient dialect to which its text can be converted, and so can what is stored in its file, which can
be read if it is there. -/
structure Switchable (c : ControllerSettings) (w : Workspace Directory ConverterSet) (d : Nat)
    (doc : Document ConverterSet) (g : Grammar) (l : String) : Prop where
  on : w.lenient = true
  opened : d ∈ w.opened
  holds : w.editor.Holds d doc
  alive : doc.closed = false
  canonical : c.languageOf doc.grammar = none
  lenient : c.languageOf g = some l
  text : ∃ t, host.converted w.editor.host l .toLenient doc.text = .ok t
  stored : ∀ n, doc.file? = some n → (Directory.isPresent n w.editor.host).1 = .ok true →
    ∃ t t', host.stored w.editor.host n = .ok t ∧
      host.converted w.editor.host l .toLenient t = .ok t'

/-- The controller follows the document. Before and behind it there are listeners only. -/
theorem Switchable.watched {I : Directory → Prop} (hsw : Switchable c w d doc g l)
    (hw : Covering I c w) : ∃ o before after known,
      Watched d o before after known doc w.editor ∧ Listeners before ∧ Listeners after := by
  obtain ⟨o, ho⟩ := hw.heeded hsw.on d hsw.opened doc hsw.holds hsw.alive
  obtain ⟨before, after, hsplit, hbefore, hafter⟩ :=
    exists_listeners ho (hw.orderly.placed d doc hsw.holds).single
  have hattached : w.editor.documentOf o = some d := hw.orderly.attached d doc o hsw.holds ho
  obtain ⟨⟨_, known⟩, hknown, rfl⟩ := Option.map_eq_some_iff.mp hattached
  exact ⟨o, before, after, known, ⟨hsw.holds, hsplit, hknown⟩, hbefore, hafter⟩

/-- A document that can be switched does not count as lenient. -/
theorem Switchable.free {I : Directory → Prop} (hsw : Switchable c w d doc g l)
    (hw : Covering I c w) : w.editor.tracked.lookup d = none := by
  cases hl : w.editor.tracked.lookup d with
  | none => rfl
  | some l' =>
    have hmatches := hw.orderly.tuned.matching d doc l' hsw.holds hsw.alive hl
    rw [hsw.canonical] at hmatches
    contradiction

/-- The document has a file that is not there. -/
def Missing (s : Directory) (doc : Document ConverterSet) : Prop :=
  ∃ n, doc.file? = some n ∧ (Directory.isPresent n s).1 ≠ .ok true

/-- What is called for, if not a file that is missing, can be shown. -/
theorem Switchable.turned (hsw : Switchable c w d doc g l)
    (hthere : ¬ (c.reload = true ∧ doc.modified = false ∧ Missing w.editor.host doc))
    (convert : Bool) : ∃ t, host.turned w.editor.host c.reload convert l doc = .ok t := by
  rw [Host.turned]
  cases hmod : doc.modified with
  | true =>
    cases convert with
    | true => exact hsw.text
    | false => exact ⟨doc.text, rfl⟩
  | false =>
    cases hreload : c.reload with
    | false => exact ⟨doc.text, rfl⟩
    | true =>
      show ∃ t, (Directory.host.backing _ _).elim _ _ = _
      rw [Directory.backing_eq_file?]
      cases hfile : doc.file? with
      | none => exact ⟨doc.text, rfl⟩
      | some n =>
        -- only what is there is known to be readable
        have hpresent : (Directory.isPresent n w.editor.host).1 = .ok true :=
          Classical.byContradiction fun habsent => hthere ⟨hreload, hmod, n, hfile, habsent⟩
        obtain ⟨t, t', hstored, ht⟩ := hsw.stored n hfile hpresent
        exact Directory.shown_of_stored hstored ht

/-- Whatever happens, an open document whose text and file can be converted is switched to the
lenient dialect, unless its text is not modified and would be loaded from a file that is not
there. -/
theorem switches_iff {s : Directory} (hs : Directory.Dependable s)
    {deeds : List (Deed Directory)} (helsewhere : ∀ a, .elsewhere a ∈ deeds →
      ∀ s, Directory.Dependable s → Directory.Dependable (a s).2)
    (hsw : Switchable c (workOn host c (fresh s) deeds) d doc g l) :
    Switches host.toHost c d g l (workOn host c (fresh s) deeds).editor ↔
      ¬ (c.reload = true ∧ doc.modified = false ∧
        Missing (workOn host c (fresh s) deeds).editor.host doc) := by
  have hw : Covering Directory.Dependable c (workOn host c (fresh s) deeds) :=
    Covering.workOn (h := host) Directory.respects_dependable Directory.not_erratic
      (fun _ _ hs => hs) (fun n s hs => by
        show Directory.Dependable (Directory.isPresent n s).2
        rw [Directory.isPresent_apply]
        exact hs) helsewhere (covering_fresh hs)
  generalize workOn host c (fresh s) deeds = w at hsw hw ⊢
  have hrefl : Resembles Directory.Alike w.editor.host w.editor.host :=
    fun p => (Directory.separate.equivalence p).refl _
  obtain ⟨o, before, after, known, hwatched, hbefore, hafter⟩ := hsw.watched hw
  have hfree := hsw.free hw
  have hne : doc.grammar ≠ g := by
    rintro rfl
    exact absurd (hsw.canonical.symm.trans hsw.lenient) nofun
  have hbare := (hw.orderly.placed d doc hsw.holds).bare hsw.alive (by rw [isLenient, hfree]; rfl)
  obtain ⟨_, htext⟩ := hsw.text
  obtain ⟨set, hset, -⟩ := Host.exists_of_converted htext
  constructor
  · -- the file would have to be read, and cannot
    rintro hswitches ⟨hreload, hmod, n, hfile, habsent⟩
    obtain ⟨f, hread⟩ := Directory.read_of_absent habsent
    exact not_switches_of_unread Directory.separate hrefl hwatched hbefore hfree hne hsw.lenient
      hset rfl rfl hbare hmod hreload ((Directory.backing_eq_file? _ _).trans hfile) hread
      hswitches
  · -- the text that is shown is converted from what there is
    intro hthere
    obtain ⟨t, ht⟩ := hsw.turned hthere known.isSome
    exact switches_of_turned Directory.separate hrefl hwatched hbefore hafter hfree hne hsw.lenient
      hset rfl rfl rfl hbare ht

/-! ## Three scripts -/

/-- The lenient dialect of scripts. -/
def lenientScript : Grammar := ⟨"source.js.lenient", "Lenient JavaScript"⟩

/-- Three canonical scripts that are open: one on disk, one that has no file yet and is empty, and
one that has no file yet and begins with a text. -/
def openScripts : Workspace Directory ConverterSet :=
  workOn host scriptSettings (fresh scriptFiles)
    [.activate, .openDocument (some "/p") (some ⟨"source.js", "JavaScript"⟩) [],
      .openDocument (some "/new") (some ⟨"source.js", "JavaScript"⟩) [],
      .openDocument (some "/draft") (some ⟨"source.js", "JavaScript"⟩) (Text.ofString "3;\n")]

/-- What matters of a document here. -/
def openState (doc : Document ConverterSet) : Bool × Option String × Option Nat × Bool × Text :=
  (doc.closed, scriptSettings.languageOf doc.grammar, doc.file?, doc.modified, doc.text)

/-- The scripts are open as canonical ones, the last one modified. -/
theorem openState_openScripts : openScripts.editor.documents.map openState
    = [(false, none, some 0, false, Text.ofString "1;\n"), (false, none, some 1, false, []),
      (false, none, some 2, true, Text.ofString "3;\n")] := by
  decide +kernel

/-- The three documents, each with a file of its own number. -/
theorem holds_openScripts (hdoc : openScripts.editor.Holds d doc) :
    doc.closed = false ∧ scriptSettings.languageOf doc.grammar = none ∧ doc.file? = some d ∧
      (d = 0 ∧ doc.modified = false ∧ doc.text = Text.ofString "1;\n" ∨
        d = 1 ∧ doc.modified = false ∧ doc.text = [] ∨
        d = 2 ∧ doc.modified = true ∧ doc.text = Text.ofString "3;\n") := by
  have hstate : (openScripts.editor.documents.map openState)[d]? = some (openState doc) := by
    rw [List.getElem?_map, show openScripts.editor.documents[d]? = some doc from hdoc]
    rfl
  -- the state says of the three documents all that is needed
  rw [openState_openScripts] at hstate
  match d with
  | 0 =>
    obtain ⟨hclosed, hgrammar, hfile, hmodified, htext⟩ : _ ∧ _ ∧ _ ∧ _ ∧ _ := by
      simpa [openState] using hstate
    exact ⟨hclosed, hgrammar.symm, hfile.symm, Or.inl ⟨rfl, hmodified, htext.symm⟩⟩
  | 1 =>
    obtain ⟨hclosed, hgrammar, hfile, hmodified, htext⟩ : _ ∧ _ ∧ _ ∧ _ ∧ _ := by
      simpa [openState] using hstate
    exact ⟨hclosed, hgrammar.symm, hfile.symm, Or.inr (Or.inl ⟨rfl, hmodified, htext⟩)⟩
  | 2 =>
    obtain ⟨hclosed, hgrammar, hfile, hmodified, htext⟩ : _ ∧ _ ∧ _ ∧ _ ∧ _ := by
      simpa [openState] using hstate
    exact ⟨hclosed, hgrammar.symm, hfile.symm, Or.inr (Or.inr ⟨rfl, hmodified, htext.symm⟩)⟩
  | d + 3 => simp at hstate

theorem exists_openScripts : ∀ d < 3, ∃ doc, openScripts.editor.Holds d doc := by
  have hlength : openScripts.editor.documents.length = 3 := by decide +kernel
  exact fun d hd => ⟨_, List.getElem?_eq_getElem (hlength ▸ hd)⟩

/-- Only the first script is on disk. -/
theorem isPresent_openScripts : ∀ d < 3,
    (Directory.isPresent d openScripts.editor.host).1.toOption = some (d == 0) := by
  decide +kernel

/-- All of them can be converted. -/
theorem switchable_openScripts (hdoc : openScripts.editor.Holds d doc) :
    Switchable scriptSettings openScripts d doc lenientScript "js" := by
  have htexts : ∀ t ∈ [Text.ofString "1;\n", [], Text.ofString "3;\n"],
      (host.converted openScripts.editor.host "js" .toLenient t).isOk = true := by
    decide +kernel
  obtain ⟨halive, hcanonical, hfile, hstate⟩ := holds_openScripts hdoc
  have hlt : d < 3 := by omega
  have hopened : ∀ d < 3, d ∈ openScripts.opened := by decide +kernel
  refine ⟨by decide +kernel, hopened d hlt, hdoc, halive, hcanonical, by decide +kernel,
    exists_of_isOk (htexts _ ?_), fun n hn hpresent => ?_⟩
  · obtain ⟨-, -, htext⟩ | ⟨-, -, htext⟩ | ⟨-, -, htext⟩ := hstate <;> simp [htext]
  · obtain rfl := Option.some.inj (hfile.symm.trans hn)
    have hfirst := isPresent_openScripts d hlt
    -- only the first script is on disk
    rw [hpresent] at hfirst
    obtain rfl : d = 0 := beq_iff_eq.mp (Option.some.inj hfirst).symm
    have hstored : (host.stored openScripts.editor.host 0).toOption
        = some (Text.ofString "1;\n") := by decide +kernel
    obtain ⟨t', ht'⟩ := exists_of_isOk (htexts _ List.mem_cons_self)
    exact ⟨_, t', eq_ok_of_toOption hstored, ht'⟩

/-- The script on disk is switched, and so is the one that has a text, although its file is not
there. -/
theorem switches_openScripts :
    (∃ doc, Switchable scriptSettings openScripts 0 doc lenientScript "js" ∧ doc.modified = false ∧
      Switches host.toHost scriptSettings 0 lenientScript "js" openScripts.editor) ∧
    ∃ doc, Switchable scriptSettings openScripts 2 doc lenientScript "js" ∧
      Missing openScripts.editor.host doc ∧
      Switches host.toHost scriptSettings 2 lenientScript "js" openScripts.editor := by
  have hpresent (d : Nat) (hd : d < 3) := eq_ok_of_toOption (isPresent_openScripts d hd)
  constructor
  · -- the script on disk is not missing
    obtain ⟨doc, hdoc⟩ := exists_openScripts 0 (by decide)
    have hsw := switchable_openScripts hdoc
    obtain ⟨-, -, hfile, ⟨-, hmodified, -⟩ | ⟨hfalse, -⟩ | ⟨hfalse, -⟩⟩ := holds_openScripts hdoc
    · refine ⟨doc, hsw, hmodified, (switches_iff (Directory.dependable_standard _ 2) (by simp)
        hsw).mpr ?_⟩
      rintro ⟨-, -, n, hn, habsent⟩
      obtain rfl := Option.some.inj (hfile.symm.trans hn)
      exact habsent (hpresent 0 (by decide))
    · contradiction
    · contradiction
  · -- the script with a text is modified, and thus not loaded
    obtain ⟨doc, hdoc⟩ := exists_openScripts 2 (by decide)
    have hsw := switchable_openScripts hdoc
    obtain ⟨-, -, hfile, ⟨hfalse, -⟩ | ⟨hfalse, -⟩ | ⟨-, hmodified, -⟩⟩ := holds_openScripts hdoc
    · contradiction
    · contradiction
    · refine ⟨doc, hsw, ⟨2, hfile, ?_⟩, (switches_iff (Directory.dependable_standard _ 2) (by simp)
        hsw).mpr ?_⟩
      · rw [hpresent 2 (by decide)]
        nofun
      · rintro ⟨-, hfalse, -⟩
        rw [hmodified] at hfalse
        contradiction

/-- The empty script is not switched, although it can be converted: its file cannot be read. -/
theorem not_switches_openScripts :
    (∃ doc, Switchable scriptSettings openScripts 1 doc lenientScript "js") ∧
      ¬ Switches host.toHost scriptSettings 1 lenientScript "js" openScripts.editor ∧
      (changeGrammar host.toHost scriptSettings 1 lenientScript
        openScripts.editor).2.notifications.items.map
          (fun n => (n.category, n.detail, n.source, n.dismissed))
        = [(Notification.toLenientCategory, "/new", some "/new", false)] := by
  refine ⟨?_, ?_, by decide +kernel⟩
  · obtain ⟨doc, hdoc⟩ := exists_openScripts 1 (by decide)
    exact ⟨doc, switchable_openScripts hdoc⟩
  · -- it would count as lenient after the change of grammar
    rintro ⟨e', doc, hr, -, -, hlenient, -⟩
    have hfree : (changeGrammar host.toHost scriptSettings 1 lenientScript
        openScripts.editor).2.tracked.lookup 1 = none := by decide +kernel
    rw [hr, hlenient] at hfree
    contradiction

end Dialects.Workspace
