import Dialects.Proofs.Editor.Standing
import Dialects.Proofs.Editor.StoredDialect
import Dialects.Storage.Directory

/-!
# Lenient exactly when mapped

A controller follows any number of documents, each with a handle of its own. Whatever happens to
them and whatever of it fails, a document that has not been destroyed counts as lenient exactly if
its handle is a mapped one, and the handle that it started with is either its handle or the one that
is mapped.

Both are said of one document by `Placed`, and of all documents by the invariant `Coherent`. It is a
property of where the documents stand (`coherent_iff`), so that only the two transitions have to be
looked at (`placing_standsOn`).

## Main definitions

* `Coherent`: the invariant.

## Main results

* `Coherent.perform`: every deed keeps the invariant;
* `lenient_iff_mapped_workOn`: what it means for the documents after a run.
-/

namespace Dialects.Editor

open Dialects.Action

variable {σ κ : Type} {I : σ → Prop} {h : Host σ κ} {c : ControllerSettings}
  {e e' : Editor σ κ} {d n : Nat} {doc doc' : Document κ}
  {bases : List (Handle (Binding κ))} {alive : Nat → Prop}

/-! ## The invariant -/

/-- The handle of every document leads to the file that it started with; as long as a document is
alive, it stands with its own handle or with a mapped one, as it counts; and who follows a document
through the controller follows this document. -/
structure Coherent (I : σ → Prop) (bases : List (Handle (Binding κ))) (alive : Nat → Prop)
    (e : Editor σ κ) : Prop where
  host : I e.host
  count : e.documents.length = bases.length
  attached : ∀ d doc n, e.Holds d doc → .controller n ∈ doc.grammarObservers.callbacks →
    e.documentOf n = some d
  file : ∀ d doc base, e.Holds d doc → bases[d]? = some base →
    doc.handle.map Handle.base = some base.base
  placed : ∀ d doc base, e.Holds d doc → bases[d]? = some base → alive d →
    ∃ mapped, Placed base d doc e.tracked mapped

/-- The handle of a document leads to the file that it started with, and if the document is alive it
stands with this handle, or with a mapped one if it counts as lenient. -/
structure StandsOn (bases : List (Handle (Binding κ))) (alive : Nat → Prop) (d : Nat)
    (doc : Document κ) (lenient : Bool) : Prop where
  file : ∀ base, bases[d]? = some base → doc.handle.map Handle.base = some base.base
  own : ∀ base, bases[d]? = some base → alive d → lenient = false → doc.handle = some base
  mapped : ∀ base, bases[d]? = some base → alive d → lenient = true →
    ∃ binding, doc.handle = some (.mapped base binding)

/-- The invariant says of each document where it stands. -/
theorem coherent_iff :
    Coherent I bases alive e ↔ Steady I bases.length (StandsOn bases alive) e := by
  constructor
  · intro hc
    refine ⟨hc.host, hc.count, hc.attached, fun d doc hdoc => ⟨?_, ?_, ?_⟩⟩
    · exact fun base => hc.file d doc base hdoc
    · intro base hbase halive hlenient
      -- a document that counts as lenient is not placed as a canonical one
      obtain ⟨_ | _, hplaced⟩ := hc.placed d doc base hdoc hbase halive
      · exact hplaced.1
      · obtain ⟨-, l, hl⟩ := hplaced
        rw [isLenient, hl] at hlenient
        contradiction
    · intro base hbase halive hlenient
      obtain ⟨_ | _, hplaced⟩ := hc.placed d doc base hdoc hbase halive
      · rw [isLenient, hplaced.2] at hlenient
        contradiction
      · exact hplaced.1
  · intro hs
    refine ⟨hs.host, hs.count, hs.attached, fun d doc base hdoc => (hs.placed d doc hdoc).file base,
      fun d doc base hdoc hbase halive => ?_⟩
    have hstands := hs.placed d doc hdoc
    -- whether the document counts as lenient says which of the two places it has
    cases htracked : e.tracked.lookup d with
    | none =>
      have hfalse : e.isLenient d = false := by rw [isLenient, htracked]; rfl
      exact ⟨false, hstands.own base hbase halive hfalse, htracked⟩
    | some l =>
      have htrue : e.isLenient d = true := by rw [isLenient, htracked]; rfl
      exact ⟨true, hstands.mapped base hbase halive htrue, l, htracked⟩

/-- The transitions lead from the own handle to a mapped one and back. -/
theorem placing_standsOn (hpath : ∀ base ∈ bases, ∀ s, I s → h.files.path base.base s ≠ "") :
    Placing h I bases.length (StandsOn bases alive) where
  congr hstands hhandle _ _ _ := by
    refine ⟨?_, ?_, ?_⟩
    · rw [hhandle]
      exact hstands.file
    · rw [hhandle]
      exact hstands.own
    · rw [hhandle]
      exact hstands.mapped
  unsubscribed _ hstands := ⟨hstands.file, hstands.own, hstands.mapped⟩
  mapped binding _ _ hstands hinner _ := by
    refine ⟨fun base hbase => ?_, fun _ _ _ hfalse => ?_, fun base hbase halive _ => ?_⟩
    · have hfile := hstands.file base hbase
      rw [hinner] at hfile
      exact hfile
    · contradiction
    · obtain rfl := Option.some.inj (hinner.symm.trans (hstands.own base hbase halive rfl))
      exact ⟨binding, rfl⟩
  unbacked {d doc s} hlt hs hstands hempty := by
    -- every document has a file with a path
    have hbase := List.getElem?_eq_getElem hlt
    obtain ⟨inner, hinner, hsame⟩ := Option.map_eq_some_iff.mp (hstands.file _ hbase)
    refine absurd (hempty inner hinner) ?_
    rw [hsame]
    exact hpath _ (List.getElem_mem hlt) s hs
  unmapped _ hstands := by
    refine ⟨fun base hbase => ?_, fun base hbase halive _ => ?_, fun _ _ _ htrue => ?_⟩
    · obtain ⟨inner, hinner, hsame⟩ := Option.map_eq_some_iff.mp (hstands.file base hbase)
      simp only [hinner, Option.map_some, base_unmapped, hsame]
    · obtain ⟨binding, hmapped⟩ := hstands.mapped base hbase halive rfl
      simp only [hmapped, Option.map_some]
      rfl
    · contradiction

/-- Who follows a document makes no difference to where it stands. -/
theorem welcoming_standsOn (d : Nat) (observers : List Observer) :
    Welcoming (κ := κ) (StandsOn bases alive) d observers :=
  fun _ _ hstands => ⟨hstands.file, hstands.own, hstands.mapped⟩

/-- Nothing is said about whether a document that is not alive counts as lenient. -/
theorem ending_standsOn (hdead : ¬ alive d) : Ending (κ := κ) (StandsOn bases alive) d where
  closed hstands := ⟨hstands.file, hstands.own, hstands.mapped⟩
  forgotten _ hstands := ⟨hstands.file, fun _ _ halive => absurd halive hdead,
    fun _ _ halive => absurd halive hdead⟩
  deserted hstands := ⟨hstands.file, hstands.own, hstands.mapped⟩

/-- Every deed keeps the invariant, as long as no living document is destroyed. -/
theorem Coherent.perform (hI : h.Respects I)
    (hpath : ∀ base ∈ bases, ∀ s, I s → h.files.path base.base s ≠ "")
    (hmodified : ∀ d s, I s → (h.checkModified d s).1 = .ok ()) {deed : Deed σ}
    (hdestroy : ∀ d, deed = .destroy d → ¬ alive d)
    (helsewhere : ∀ f, deed = .elsewhere f → ∀ s, I s → I (f s)) :
    Preserves (Coherent I bases alive) (deed.perform h c) := by
  intro e hc
  exact coherent_iff.mpr (Steady.perform hI (placing_standsOn hpath) hmodified
    (fun d observers _ => welcoming_standsOn d observers)
    (fun d hd => ending_standsOn (hdestroy d hd)) helsewhere e (coherent_iff.mp hc))

/-! ## Runs -/

/-- A controller has been put to work that follows no document yet, and every document has a handle
of its own, on a file whose path is never empty. -/
structure Launch (h : Host σ κ) (I : σ → Prop) (e : Editor σ κ) : Prop where
  host : I e.host
  idle : e.tracked = []
  alone : ∀ d doc n, e.Holds d doc → .controller n ∉ doc.grammarObservers.callbacks
  own : ∀ d doc, e.Holds d doc → ∃ base, doc.handle = some base ∧ base.isMapped = false ∧
    ∀ s, I s → h.files.path base.base s ≠ ""

/-- The handles that the documents start with. -/
def startHandles (e : Editor σ κ) : List (Handle (Binding κ)) :=
  e.documents.filterMap Document.handle

/-- At the start each document has the handle with which it starts. -/
theorem Launch.startHandles_eq (hstart : Launch h I e) :
    e.documents.map Document.handle = (startHandles e).map some := by
  have hall : ∀ doc ∈ e.documents, ∃ base, doc.handle = some base := by
    intro doc hmem
    obtain ⟨d, hd⟩ := List.mem_iff_getElem?.mp hmem
    obtain ⟨base, hbase, -⟩ := hstart.own d doc hd
    exact ⟨base, hbase⟩
  -- the induction is on the documents, each of which has a handle
  rw [startHandles]
  clear hstart
  generalize e.documents = docs at hall
  induction docs with
  | nil => rfl
  | cons doc docs ih =>
    obtain ⟨base, hbase⟩ := hall doc List.mem_cons_self
    rw [List.map_cons, List.filterMap_cons_some hbase, List.map_cons, hbase,
      ih fun doc' hmem => hall doc' (List.mem_cons_of_mem doc hmem)]

/-- A document that is there at the start has a handle to start with. -/
theorem Launch.handle_of_start (hstart : Launch h I e) (hdoc : e.Holds d doc) :
    ∃ base, (startHandles e)[d]? = some base ∧ doc.handle = some base := by
  have hget := congrArg (·[d]?) hstart.startHandles_eq
  simp only [List.getElem?_map, show e.documents[d]? = some doc from hdoc, Option.map_some] at hget
  obtain ⟨base, hbase, hhandle⟩ := Option.map_eq_some_iff.mp hget.symm
  exact ⟨base, hbase, hhandle.symm⟩

/-- At the start handles and the table agree, whichever documents are to stay. -/
theorem Launch.coherent (hstart : Launch h I e) (alive : Nat → Prop) :
    Coherent I (startHandles e) alive e := by
  refine ⟨hstart.host, ?_, ?_, ?_, ?_⟩
  · simpa using congrArg List.length hstart.startHandles_eq
  · intro d doc n hdoc hn
    exact absurd hn (hstart.alone d doc n hdoc)
  · intro d doc base hdoc hbase
    obtain ⟨base', hbase', hhandle⟩ := hstart.handle_of_start hdoc
    obtain rfl := Option.some.inj (hbase.symm.trans hbase')
    rw [hhandle]
    rfl
  · intro d doc base hdoc hbase _
    obtain ⟨base', hbase', hhandle⟩ := hstart.handle_of_start hdoc
    obtain rfl := Option.some.inj (hbase.symm.trans hbase')
    refine ⟨false, hhandle, ?_⟩
    -- nothing counts as lenient at the start
    rw [hstart.idle]
    rfl

/-- The handles at the start are not mapped, and lead to paths. -/
theorem Launch.bare (hstart : Launch h I e) : ∀ base ∈ startHandles e,
    base.isMapped = false ∧ ∀ s, I s → h.files.path base.base s ≠ "" := by
  intro base hmem
  obtain ⟨doc, hdoc, hhandle⟩ := List.mem_filterMap.mp hmem
  obtain ⟨d, hd⟩ := List.mem_iff_getElem?.mp hdoc
  obtain ⟨base', hbase', hproperties⟩ := hstart.own d doc hd
  obtain rfl := Option.some.inj (hhandle.symm.trans hbase')
  exact hproperties

/-- Whatever happens and whatever fails, as long as it can be told which documents are modified: a
document that has not been destroyed counts as lenient exactly if its handle is a mapped one, and
the handle that it started with is the one that is mapped, or its handle still. -/
theorem lenient_iff_mapped_workOn (hI : h.Respects I)
    (hmodified : ∀ d s, I s → (h.checkModified d s).1 = .ok ()) (hstart : Launch h I e)
    {deeds : List (Deed σ)} (helsewhere : ∀ f, .elsewhere f ∈ deeds → ∀ s, I s → I (f s))
    (hdoc : e.Holds d doc) (hdestroy : .destroy d ∉ deeds) :
    ∃ doc', (workOn h c e deeds).Holds d doc' ∧
      (isLenient (workOn h c e deeds) d = true ↔ IsMapped doc') ∧
      doc'.handle.map Handle.unmapped = doc.handle := by
  have hpath : ∀ base ∈ startHandles e, ∀ s, I s → h.files.path base.base s ≠ "" :=
    fun base hmem => (hstart.bare base hmem).2
  -- the deeds that destroy the document are excluded, and all the others keep where it stands
  have hc : Coherent I (startHandles e) (fun d => .destroy d ∉ deeds) (workOn h c e deeds) := by
    refine workOn_induction (fun deed hdeed => ?_) (hstart.coherent _)
    refine Coherent.perform hI hpath hmodified ?_ ?_
    · rintro d rfl halive
      exact halive hdeed
    · rintro f rfl
      exact helsewhere f hdeed
  obtain ⟨base, hbase, hhandle⟩ := hstart.handle_of_start hdoc
  obtain ⟨hlt, hget⟩ := List.getElem?_eq_some_iff.mp hbase
  rw [← hc.count] at hlt
  have hdoc' : (workOn h c e deeds).Holds d (workOn h c e deeds).documents[d] :=
    List.getElem?_eq_getElem hlt
  have hbare : base.isMapped = false := (hstart.bare base (hget ▸ List.getElem_mem _)).1
  obtain ⟨mapped, hplaced⟩ := hc.placed d _ base hdoc' hbase hdestroy
  refine ⟨_, hdoc', ?_, ?_⟩
  · rw [isMapped_iff hbare hplaced, isLenient]
    -- a document that is not mapped does not count as lenient, and has its own handle
    cases mapped with
    | false => simp [hplaced.2]
    | true =>
      obtain ⟨-, l, hl⟩ := hplaced
      simp [hl]
  · rw [hhandle]
    cases mapped with
    | false => rw [hplaced.1, Option.map_some, unmapped_of_not_mapped hbare]
    | true =>
      obtain ⟨⟨binding, hmapped⟩, -⟩ := hplaced
      rw [hmapped]
      rfl

/-! ## Two documents on disk -/

/-- Settings with one language, whose lenient dialect has no semicolons at the ends of lines. -/
def lineSettings : ControllerSettings := ⟨[("source.lines.lenient", "lines")], true⟩

/-- A document on a file. -/
def lineDocument (t : Text) (n : Nat) : Document ConverterSet where
  text := t
  dialect := .canonical
  modified := false
  grammar := ⟨"source.lines", "Lines"⟩
  handle := some (.file n)
  grammarObservers := .empty
  endObservers := .empty
  closed := false

/-- An editor with two documents on disk. -/
def twoLines : Editor Directory ConverterSet where
  documents := [lineDocument (Text.ofString "a;\n") 0, lineDocument (Text.ofString "b;\n") 1]
  notifications := .empty
  tracked := []
  observations := []
  log := []
  faults := []
  host := ⟨⟨[([['p']], .file [0x61, 0x3b, 0x0a]), ([['q']], .file [0x62, 0x3b, 0x0a])], []⟩,
    [⟨.ofString "/p", false, .empty⟩, ⟨.ofString "/q", false, .empty⟩], [],
    ⟨[("lines", .ok (.lines "lines" ""))], []⟩⟩

/-- Both documents are shown in the lenient dialect, and the second one is destroyed. The file of
the first one is renamed and cannot be read for a while: turning it canonical fails, and so does
turning it lenient, in an unknown language and in its own. In the end it is turned lenient. -/
def twoLinesDeeds : List (Deed Directory) :=
  [.observe 0, .observe 1, .setGrammar 0 ⟨"source.lines.lenient", "Lenient lines"⟩,
    .setGrammar 1 ⟨"source.lines.lenient", "Lenient lines"⟩, .destroy 1,
    .elsewhere fun s => (Directory.rename 0 "/r" s).2,
    .elsewhere fun s => { s with refused := [.read] }, .disable 0,
    .enable 0 (some ⟨"source.lines", "Lines"⟩) "unknown", .enable 0 none "lines",
    .elsewhere fun s => { s with refused := [] }, .enable 0 none "lines"]

/-- The text of a path is never empty. -/
theorem toString_ne_empty (p : Path) : p.toString ≠ "" := by
  rw [Path.toString]
  split
  · decide
  · next cs hne =>
    intro hempty
    exact hne (by simpa using congrArg String.toList hempty)

/-- Two documents on files of their own are a start. -/
theorem launch_twoLines : Launch Directory.host (fun _ => True) twoLines := by
  refine ⟨trivial, rfl, fun d doc n hdoc => ?_, fun d doc hdoc => ?_⟩
  · have hmem := List.mem_of_getElem? hdoc
    simp only [twoLines, List.mem_cons, List.not_mem_nil, or_false] at hmem
    rcases hmem with rfl | rfl <;> exact List.not_mem_nil
  · have hmem := List.mem_of_getElem? hdoc
    simp only [twoLines, List.mem_cons, List.not_mem_nil, or_false] at hmem
    rcases hmem with rfl | rfl
    · exact ⟨.file 0, rfl, rfl, fun s _ => toString_ne_empty _⟩
    · exact ⟨.file 1, rfl, rfl, fun s _ => toString_ne_empty _⟩

/-- After a run with two documents, edits, failures and changes of grammar the first one is lenient
and mapped, and leads back to its file. -/
theorem lenient_iff_mapped_twoLines :
    Launch Directory.host (fun _ => True) twoLines ∧ .destroy 0 ∉ twoLinesDeeds ∧
      isLenient (workOn Directory.host lineSettings twoLines
        twoLinesDeeds) 0 = true ∧
      ∃ doc, (workOn Directory.host lineSettings twoLines
          twoLinesDeeds).Holds 0 doc ∧
        IsMapped doc ∧ doc.handle.map Handle.unmapped = some (.file 0) := by
  have hdestroy : .destroy 0 ∉ twoLinesDeeds := by simp [twoLinesDeeds]
  have hlenient : isLenient (workOn Directory.host lineSettings
      twoLines twoLinesDeeds) 0 = true := by decide +kernel
  obtain ⟨doc, hdoc, hiff, hhandle⟩ := lenient_iff_mapped_workOn Directory.host.respects_true
    (fun _ _ _ => rfl) launch_twoLines (fun _ _ _ _ => trivial) (d := 0) rfl hdestroy
  exact ⟨launch_twoLines, hdestroy, hlenient, doc, hdoc, hiff.mp hlenient, hhandle⟩

end Dialects.Editor
