import Dialects.Proofs.Editor.Standing
import Dialects.Proofs.Editor.StoredDialect

/-!
# What belongs to one document

Turning a document canonical has to do with this document, with its file and with the converters,
and with nothing else: what comes of it depends on these alone (`Agree`), and it leaves alone
whatever belongs to other documents (`Beside`). Actions of which both is true are `Own`. They are
closed under sequences of actions, and all that `disable` consists of is such (`own_disable`).

So the order in which several documents are turned canonical makes no difference, and neither does
what becomes of the other ones (`content?_disableAll`), as long as no two of them share a part
of the host that wears off when it is asked.

## Main definitions

* `Host.Separate`: a host the parts of which do not interfere with each other;
* `Agree`, `Beside` and `Own`.

## Main results

* `own_disable`: turning a document canonical is its own business;
* `content?_disableAll`: turning several documents canonical.
-/

namespace Dialects

variable {σ κ : Type}

/-- A part of the host. -/
inductive Part where
  /-- The converters. -/
  | converters
  /-- A file, by its number. -/
  | file (n : Nat)
  /-- The operations on a document, by its number. -/
  | document (d : Nat)

/-- The action deals with a part of the host: what it gives, and what it leaves of the part, depends
on this part alone, and it leaves all others alone. States of the host that are `alike` in a part
cannot be told apart by asking it. A part is `lasting` if asking it leaves it as it was. -/
structure Part.Served (alike : Part → σ → σ → Prop) (lasting : Part → Prop) {α : Type} (p : Part)
    (a : Action σ α) : Prop where
  same : ∀ {s s'}, alike p s s' → (a s).1 = (a s').1 ∧ alike p (a s).2 (a s').2
  rest : ∀ {q} s, q ≠ p ∨ lasting q → alike q s (a s).2

/-- Each operation by which documents are shown and loaded deals with one part of the host.
Converters serve all documents, and so they last. -/
structure Host.Separate (h : Host σ κ) (alike : Part → σ → σ → Prop) (lasting : Part → Prop) :
    Prop where
  equivalence : ∀ p, Equivalence (alike p)
  lasting_converters : lasting .converters
  path : ∀ n {s s'}, alike (.file n) s s' → h.files.path n s = h.files.path n s'
  read : ∀ n, Part.Served alike lasting (.file n) (h.files.read n)
  converters : ∀ l, Part.Served alike lasting .converters (h.converters l)
  convert : ∀ k d t, Part.Served alike lasting .converters (h.convert k d t)
  checkModified : ∀ d, Part.Served alike lasting (.document d) (h.checkModified d)
  checkEdit : ∀ d, Part.Served alike lasting (.document d) (h.checkEdit d)
  checkLoad : ∀ d, Part.Served alike lasting (.document d) (h.checkLoad d)

/-- What a document on the given file has to do with. -/
def Part.Owned (d : Nat) (file : Option Nat) : Part → Prop
  | .converters => True
  | .file n => file = some n
  | .document d' => d' = d

/-- What a document consists of apart from its grammar and its followers. -/
def Document.content (doc : Document κ) : Text × Bool × Option (Handle (Binding κ)) :=
  (doc.text, doc.modified, doc.handle)

/-- The number of a document's file. -/
def Document.file? (doc : Document κ) : Option Nat := doc.handle.map Handle.base

namespace Editor

/-- What a document consists of, if there is one of this number. -/
def content? (e : Editor σ κ) (d : Nat) : Option (Text × Bool × Option (Handle (Binding κ))) :=
  e.documents[d]?.map Document.content

/-- The two have the same document of this number, which is on the given file; they cannot be told
apart by whatever has to do with this document. -/
structure Agree (alike : Part → σ → σ → Prop) (d : Nat) (file : Option Nat)
    (e₁ e₂ : Editor σ κ) : Prop where
  content : e₁.content? d = e₂.content? d
  onFile : ∀ doc, e₁.Holds d doc → doc.file? = file
  tracked : e₁.tracked.lookup d = e₂.tracked.lookup d
  host : ∀ p : Part, p.Owned d file → alike p e₁.host e₂.host

/-- The second is the first one except for what has to do with this document on the given file. -/
structure Beside (alike : Part → σ → σ → Prop) (lasting : Part → Prop) (d : Nat)
    (file : Option Nat) (e e' : Editor σ κ) : Prop where
  documents : ∀ d' ≠ d, e'.documents[d']? = e.documents[d']?
  tracked : ∀ d' ≠ d, e'.tracked.lookup d' = e.tracked.lookup d'
  host : ∀ p : Part, ¬ p.Owned d file ∨ lasting p → alike p e.host e'.host

/-- The action has to do with this document on the given file only. -/
structure Own (alike : Part → σ → σ → Prop) (lasting : Part → Prop) (d : Nat) (file : Option Nat)
    {α : Type} (a : Action (Editor σ κ) α) : Prop where
  agree : ∀ {e₁ e₂}, Agree alike d file e₁ e₂ →
    (a e₁).1 = (a e₂).1 ∧ Agree alike d file (a e₁).2 (a e₂).2
  beside : ∀ {e}, Agree alike d file e e → Beside alike lasting d file e (a e).2

variable {alike : Part → σ → σ → Prop} {lasting : Part → Prop} {d : Nat} {file : Option Nat}
  {e e₁ e₂ e₃ : Editor σ κ} {doc doc' : Document κ} {h : Host σ κ}

/-- What a document consists of that is there. -/
theorem content?_of_holds (hdoc : e.Holds d doc) : e.content? d = some doc.content :=
  congrArg (Option.map Document.content) hdoc

/-- What a document of the same content has in common with the first. -/
theorem content_eq_iff : doc.content = doc'.content ↔
    doc.text = doc'.text ∧ doc.modified = doc'.modified ∧ doc.handle = doc'.handle := by
  rw [Document.content, Document.content, Prod.mk.injEq, Prod.mk.injEq]

section Equivalence

variable (halike : ∀ p, Equivalence (alike p))

include halike

theorem Agree.refl (hfile : ∀ doc, e.Holds d doc → doc.file? = file) : Agree alike d file e e :=
  ⟨rfl, hfile, rfl, fun p _ => (halike p).refl e.host⟩

theorem Beside.refl : Beside alike lasting d file e e :=
  ⟨fun _ _ => rfl, fun _ _ => rfl, fun p _ => (halike p).refl e.host⟩

/-- What has to do with the document only may happen twice. -/
theorem Beside.trans (h₁ : Beside alike lasting d file e₁ e₂)
    (h₂ : Beside alike lasting d file e₂ e₃) : Beside alike lasting d file e₁ e₃ :=
  ⟨fun d' hd => (h₂.documents d' hd).trans (h₁.documents d' hd),
    fun d' hd => (h₂.tracked d' hd).trans (h₁.tracked d' hd),
    fun p hp => (halike p).trans (h₁.host p hp) (h₂.host p hp)⟩

omit halike in
/-- Whatever is done to another document leaves this one as it was, if the two share no part of the
host that does not last. -/
theorem Beside.agree {d' : Nat} {file' : Option Nat} (hbeside : Beside alike lasting d' file' e₁ e₂)
    (hd : d ≠ d') (hfile : ∀ doc, e₁.Holds d doc → doc.file? = file)
    (hshare : ∀ p : Part, p.Owned d file → p.Owned d' file' → lasting p) :
    Agree alike d file e₁ e₂ := by
  refine ⟨congrArg (Option.map Document.content) (hbeside.documents d hd).symm, hfile,
    (hbeside.tracked d hd).symm, fun p hp => hbeside.host p ?_⟩
  by_cases hother : p.Owned d' file'
  · exact Or.inr (hshare p hp hother)
  · exact Or.inl hother

end Equivalence

/-! ## Actions of one document -/

namespace Own

variable {α β : Type} (halike : ∀ p, Equivalence (alike p))

include halike

theorem pure (x : α) : Own alike lasting d file (pure x : Action (Editor σ κ) α) :=
  ⟨fun hagree => ⟨rfl, hagree⟩, fun _ => .refl halike⟩

theorem throw (f : Failure) : Own alike lasting d file (throw f : Action (Editor σ κ) α) :=
  ⟨fun hagree => ⟨rfl, hagree⟩, fun _ => .refl halike⟩

theorem notify (f : NotificationCentre → NotificationCentre) :
    Own alike lasting d file (notify f : Action (Editor σ κ) Unit) :=
  ⟨fun hagree => ⟨rfl, hagree.content, hagree.onFile, hagree.tracked, hagree.host⟩,
    fun _ => ⟨fun _ _ => rfl, fun _ _ => rfl, fun p _ => (halike p).refl _⟩⟩

/-- Asking for something on which the two agree. -/
theorem ask {f : Editor σ κ → α} (hf : ∀ {e₁ e₂}, Agree alike d file e₁ e₂ → f e₁ = f e₂) :
    Own alike lasting d file (Action.ask f) :=
  ⟨fun hagree => ⟨congrArg Except.ok (hf hagree), hagree⟩, fun _ => .refl halike⟩

/-- Actions that have to do with a document only have so one after the other. -/
theorem bind {a : Action (Editor σ κ) α} {k : α → Action (Editor σ κ) β}
    (ha : Own alike lasting d file a) (hk : ∀ x, Own alike lasting d file (k x)) :
    Own alike lasting d file (a >>= k) := by
  refine ⟨fun {e₁ e₂} hagree => ?_, fun {e} hagree => ?_⟩
  · -- the result is the same, so that both go on in the same way
    obtain ⟨hresult, hagree'⟩ := ha.agree hagree
    rw [Action.bind_apply, Action.bind_apply]
    rcases hr₁ : a e₁ with ⟨r₁, e₁'⟩
    rcases hr₂ : a e₂ with ⟨r₂, e₂'⟩
    rw [hr₁, hr₂] at hresult hagree'
    obtain rfl : r₁ = r₂ := hresult
    cases r₁ with
    | error f => exact ⟨rfl, hagree'⟩
    | ok x => exact (hk x).agree hagree'
  · -- what the first part leaves alone is left alone by the second part as well
    have hbeside := ha.beside hagree
    have hagree' := (ha.agree hagree).2
    rw [Action.bind_apply]
    rcases hr : a e with ⟨r, e'⟩
    rw [hr] at hbeside hagree'
    cases r with
    | error f => exact hbeside
    | ok x => exact hbeside.trans halike ((hk x).beside hagree')

omit halike in
theorem attempt {a : Action (Editor σ κ) α} (ha : Own alike lasting d file a) :
    Own alike lasting d file a.attempt :=
  ⟨fun hagree => ⟨congrArg Except.ok (ha.agree hagree).1, (ha.agree hagree).2⟩, ha.beside⟩

/-- Doing something with every item of a list has to do with a document only if each step does. -/
theorem mapM {k : α → Action (Editor σ κ) β} (hk : ∀ x, Own alike lasting d file (k x))
    (xs : List α) : Own alike lasting d file (xs.mapM k) := by
  induction xs with
  | nil => exact pure halike []
  | cons x xs ih =>
    rw [List.mapM_cons]
    exact bind halike (hk x) fun y => bind halike ih fun ys => pure halike (y :: ys)

/-- Asking a part of the host that the document has to do with. -/
theorem outside {p : Part} {a : Action σ α} (ha : p.Served alike lasting a)
    (hp : p.Owned d file) :
    Own alike lasting d file (outside a : Action (Editor σ κ) α) := by
  have hstate (e : Editor σ κ) : ∃ faults, Editor.outside a e =
      ((a e.host).1, { e with host := (a e.host).2, faults }) := by
    rcases hr : a e.host with ⟨f | x, s⟩
    · exact ⟨e.faults ++ [f], outside_of_error hr⟩
    · exact ⟨e.faults, outside_of_ok hr⟩
  refine ⟨fun {e₁ e₂} hagree => ?_, fun {e} _ => ?_⟩
  · obtain ⟨faults₁, h₁⟩ := hstate e₁
    obtain ⟨faults₂, h₂⟩ := hstate e₂
    obtain ⟨hresult, hpart⟩ := ha.same (hagree.host p hp)
    rw [h₁, h₂]
    refine ⟨hresult, hagree.content, hagree.onFile, hagree.tracked, fun q hq => ?_⟩
    by_cases hqp : q = p
    · subst hqp
      exact hpart
    · -- the part was asked in neither of the two
      have hleft := ha.rest e₁.host (Or.inl hqp)
      have hright := ha.rest e₂.host (Or.inl hqp)
      exact (halike q).trans ((halike q).symm hleft) ((halike q).trans (hagree.host q hq) hright)
  · obtain ⟨faults, hr⟩ := hstate e
    rw [hr]
    refine ⟨fun _ _ => rfl, fun _ _ => rfl, fun q hq => ha.rest e.host ?_⟩
    refine hq.imp_left fun hnot hqp => hnot (hqp ▸ hp)

/-- Looking at the document, of which nothing but its content matters. -/
theorem document {k : Document κ → Action (Editor σ κ) β}
    (hk : ∀ doc, doc.file? = file → Own alike lasting d file (k doc))
    (hsame : ∀ doc doc', doc.content = doc'.content → k doc = k doc') :
    Own alike lasting d file (document d >>= k) := by
  refine ⟨fun {e₁ e₂} hagree => ?_, fun {e} hagree => ?_⟩
  · -- both editors have the document or lack it
    have hcontent := hagree.content
    rw [Action.bind_apply, Action.bind_apply]
    cases hdoc₁ : e₁.documents[d]? with
    | none =>
      rw [content?, content?, hdoc₁] at hcontent
      have hdoc₂ : e₂.documents[d]? = none := Option.map_eq_none_iff.mp hcontent.symm
      rw [document_of_none hdoc₁, document_of_none hdoc₂]
      exact ⟨rfl, hagree⟩
    | some doc₁ =>
      rw [content?, content?, hdoc₁] at hcontent
      obtain ⟨doc₂, hdoc₂, hdoc⟩ := Option.map_eq_some_iff.mp hcontent.symm
      rw [document_apply hdoc₁, document_apply hdoc₂]
      simp only [hsame doc₂ doc₁ hdoc]
      exact (hk doc₁ (hagree.onFile doc₁ hdoc₁)).agree hagree
  · rw [Action.bind_apply]
    cases hdoc : e.documents[d]? with
    | none =>
      rw [document_of_none hdoc]
      exact .refl halike
    | some doc =>
      rw [document_apply hdoc]
      exact (hk doc (hagree.onFile doc hdoc)).beside hagree

/-- Changing the document, but not its file. -/
theorem modify {f : Document κ → Document κ}
    (hfile : ∀ doc, doc.file? = file → (f doc).file? = file)
    (hsame : ∀ doc doc', doc.content = doc'.content → (f doc).content = (f doc').content) :
    Own alike lasting d file (modify d f) := by
  have hself (e : Editor σ κ) : (Editor.modify d f e).2.documents[d]? = e.documents[d]?.map f :=
    List.getElem?_modify_eq ..
  refine ⟨fun {e₁ e₂} hagree => ⟨rfl, ?_, fun doc hdoc => ?_, hagree.tracked, hagree.host⟩,
    fun {e} _ => ⟨fun d' hd => List.getElem?_modify_ne _ _ (Ne.symm hd), fun _ _ => rfl,
      fun p _ => (halike p).refl _⟩⟩
  · have hcontent := hagree.content
    rw [content?, content?, hself, hself, Option.map_map, Option.map_map]
    rw [content?, content?] at hcontent
    -- the document is there in both editors or in neither
    cases hdoc₁ : e₁.documents[d]? with
    | none =>
      rw [hdoc₁] at hcontent
      rw [Option.map_eq_none_iff.mp hcontent.symm]
    | some doc₁ =>
      rw [hdoc₁] at hcontent
      obtain ⟨doc₂, hdoc₂, hdoc⟩ := Option.map_eq_some_iff.mp hcontent.symm
      rw [hdoc₂]
      exact congrArg some (hsame doc₁ doc₂ hdoc.symm)
  · rw [Holds, hself] at hdoc
    obtain ⟨doc', hdoc', rfl⟩ := Option.map_eq_some_iff.mp hdoc
    exact hfile doc' (hagree.onFile doc' hdoc')

omit halike in
/-- Looking at the documents that count as lenient, of which only this one matters. -/
theorem tracked {k : List (Nat × String) → Action (Editor σ κ) β}
    (hk : ∀ t, Own alike lasting d file (k t))
    (hsame : ∀ t t', t.lookup d = t'.lookup d → k t = k t') :
    Own alike lasting d file (Action.ask Editor.tracked >>= k) := by
  refine ⟨fun {e₁ e₂} hagree => ?_, fun {e} hagree => (hk _).beside hagree⟩
  rw [Action.bind_apply, Action.bind_apply, Action.ask_apply, Action.ask_apply]
  simp only [hsame _ _ hagree.tracked]
  exact (hk _).agree hagree

/-- The document no longer counts as lenient. -/
theorem untrack : Own alike lasting d file (untrack d : Action (Editor σ κ) Unit) := by
  refine ⟨fun {e₁ e₂} hagree => ⟨rfl, hagree.content, hagree.onFile, ?_, hagree.host⟩,
    fun {e} _ => ⟨fun _ _ => rfl, fun d' hd => lookup_filter_of_ne hd e.tracked,
      fun p _ => (halike p).refl _⟩⟩
  exact (lookup_filter_self d e₁.tracked).trans (lookup_filter_self d e₂.tracked).symm

end Own

/-! ## Turning documents canonical -/

section Disable

variable (hh : h.Separate alike lasting)

include hh

/-- Editors that agree on a document agree on its path. -/
theorem path?_eq (hagree : Agree alike d file e₁ e₂) (hfile : doc.file? = file) :
    path? h e₁ doc = path? h e₂ doc := by
  rw [path?, path?]
  cases hhandle : doc.handle with
  | none => rfl
  | some handle =>
    have hn : file = some handle.base := by rw [← hfile, Document.file?, hhandle]; rfl
    exact congrArg some (hh.path _ (hagree.host (.file handle.base) hn))

theorem own_sourceOf (hfile : doc.file? = file) :
    Own alike lasting d file (Action.ask (sourceOf h · d doc)) := by
  refine Own.ask hh.equivalence fun hagree => ?_
  rw [sourceOf, sourceOf, path?_eq hh hagree hfile]

theorem own_isBacked (hfile : doc.file? = file) :
    Own alike lasting d file (Action.ask (isBacked h · doc)) := by
  refine Own.ask hh.equivalence fun hagree => ?_
  rw [isBacked, isBacked, path?_eq hh hagree hfile]

theorem own_isModified : Own alike lasting d file (isModified h d) := by
  refine Own.bind hh.equivalence (Own.outside hh.equivalence (hh.checkModified d) rfl) fun _ => ?_
  refine Own.document hh.equivalence (fun doc _ => Own.pure hh.equivalence doc.modified)
    fun doc doc' hsame => ?_
  rw [(content_eq_iff.mp hsame).2.1]

/-- Converting what is read through a handle is a matter of the converters. -/
theorem own_incoming (handle : Handle (Binding κ)) (t : Text) :
    Own alike lasting d file (handle.incoming (mapping h) t) := by
  induction handle with
  | file n => exact Own.pure hh.equivalence t
  | mapped inner b ih =>
    exact Own.bind hh.equivalence ih fun t' =>
      Own.outside hh.equivalence (hh.convert b.set .toLenient t') trivial
  | forwarding inner ih => exact ih

/-- Loading a document reads its file. -/
theorem own_load : Own alike lasting d file (load h d) := by
  refine Own.bind hh.equivalence (Own.outside hh.equivalence (hh.checkLoad d) rfl) fun _ => ?_
  refine Own.document hh.equivalence (fun doc hfile => ?_) fun doc doc' hsame => ?_
  · cases hhandle : doc.handle with
    | none => exact Own.pure hh.equivalence ()
    | some handle =>
      -- the file that is read is the document's own
      have hn : file = some handle.base := by rw [← hfile, Document.file?, hhandle]; rfl
      refine Own.bind hh.equivalence (Own.bind hh.equivalence
        (Own.outside hh.equivalence (hh.read handle.base) hn) fun chunks =>
          Own.mapM hh.equivalence (own_incoming hh handle) chunks) fun chunks => ?_
      refine Own.modify hh.equivalence (fun _ hdoc => hdoc) fun doc doc' hsame => ?_
      exact content_eq_iff.mpr ⟨rfl, rfl, (content_eq_iff.mp hsame).2.2⟩
  · rw [(content_eq_iff.mp hsame).2.2]

theorem own_setText (t : Text) : Own alike lasting d file (setText h d t) := by
  refine Own.bind hh.equivalence (Own.outside hh.equivalence (hh.checkEdit d) rfl) fun _ => ?_
  refine Own.modify hh.equivalence (fun doc hfile => ?_) fun doc doc' hsame => ?_
  · split <;> exact hfile
  · obtain ⟨htext, hmodified, hhandle⟩ := content_eq_iff.mp hsame
    rw [htext]
    split
    · exact hsame
    · exact content_eq_iff.mpr ⟨rfl, rfl, hhandle⟩

/-- Converting a document in place asks the converters. -/
theorem own_transcode (set : κ) (direction : Direction)
    {onError : Failure → Action (Editor σ κ) Unit}
    (honError : ∀ f, Own alike lasting d file (onError f)) :
    Own alike lasting d file (transcode h d set direction onError) := by
  refine Own.bind hh.equivalence ?_ fun _ => Own.modify hh.equivalence
    (fun _ hfile => hfile) fun doc doc' hsame => hsame
  rw [Streams.transcode, map_eq_pure_bind, bind_assoc]
  -- only the text of the document is asked for
  refine Own.document hh.equivalence (fun doc _ => ?_) fun doc doc' hsame => ?_
  · rw [pure_bind]
    refine Own.bind hh.equivalence
      (Own.attempt (Own.outside hh.equivalence (hh.convert set direction doc.text) trivial))
      fun r => ?_
    cases r with
    | error f => exact Own.bind hh.equivalence (honError f) fun _ => Own.throw hh.equivalence f
    | ok t => exact own_setText hh t
  · rw [(content_eq_iff.mp hsame).1]

theorem own_restoreText (c : ControllerSettings) (l : String) (modified backed : Bool) :
    Own alike lasting d file (restoreText h c d l modified backed) := by
  unfold restoreText
  split
  · exact Own.bind hh.equivalence (Own.outside hh.equivalence (hh.converters l) trivial) fun set =>
      own_transcode hh set .toCanonical fun _ => Own.pure hh.equivalence ()
  split
  · exact own_load hh
  · exact Own.pure hh.equivalence ()

omit hh in
/-- Documents of the same content go by the same name, and have a file alike. -/
theorem path?_congr (hsame : doc.content = doc'.content) (e : Editor σ κ) :
    sourceOf h e d doc = sourceOf h e d doc' ∧ isBacked h e doc = isBacked h e doc' := by
  have hpath : path? h e doc = path? h e doc' := by
    rw [path?, path?, (content_eq_iff.mp hsame).2.2]
  rw [sourceOf, sourceOf, isBacked, isBacked, hpath]
  exact ⟨rfl, rfl⟩

/-- Turning a document canonical has to do with this document only. -/
theorem own_disable (c : ControllerSettings) : Own alike lasting d file (disable h c d) := by
  refine Own.tracked (fun t => ?_) fun t t' hsame => by rw [hsame]
  split
  · exact Own.pure hh.equivalence Outcome.success
  next l _ =>
  -- up to here nothing but the tracked languages has been looked at
  refine Own.bind hh.equivalence (Own.untrack hh.equivalence) fun _ => ?_
  refine Own.document hh.equivalence (fun doc hfile => ?_) fun doc doc' hsame => ?_
  · have hunmapped : (doc.handle.map Handle.unmapped).map Handle.base = file := by
      rw [← hfile, Document.file?, Option.map_map]
      exact congrArg (Option.map · doc.handle) (funext base_unmapped)
    refine Own.bind hh.equivalence (own_sourceOf hh hfile) fun source => ?_
    refine Own.bind hh.equivalence (own_isModified hh) fun modified => ?_
    refine Own.bind hh.equivalence (Own.modify hh.equivalence (fun _ _ => hunmapped)
      fun doc doc' hsame => ?_) fun _ => ?_
    · obtain ⟨htext, hmodified, -⟩ := content_eq_iff.mp hsame
      exact content_eq_iff.mpr ⟨htext, hmodified, rfl⟩
    refine Own.bind hh.equivalence (own_isBacked hh hfile) fun backed => ?_
    refine Own.bind hh.equivalence (Own.attempt (own_restoreText hh c l modified backed)) fun r => ?_
    cases r with
    | error f =>
      exact Own.bind hh.equivalence (Own.notify hh.equivalence _) fun _ =>
        Own.pure hh.equivalence (Outcome.failure f none)
    | ok _ => exact Own.pure hh.equivalence Outcome.success
  · -- what is asked about the document depends on its content only
    have hsource : (sourceOf h · d doc) = (sourceOf h · d doc') :=
      funext fun e => (path?_congr hsame e).1
    have hbacked : (isBacked h · doc) = (isBacked h · doc') :=
      funext fun e => (path?_congr (d := d) hsame e).2
    simp only [hsource, hbacked, (content_eq_iff.mp hsame).2.2]

/-! ## Several documents -/

/-- The file of a document, if there is one of this number. -/
def fileOf (e : Editor σ κ) (d : Nat) : Option Nat := e.documents[d]?.bind Document.file?

omit hh in
/-- A document that is there is on the file of its handle. -/
theorem fileOf_of_holds (hdoc : e.Holds d doc) : doc.file? = e.fileOf d := by
  rw [fileOf, show e.documents[d]? = some doc from hdoc]
  rfl

/-- No two documents that count as lenient share a file, unless the file lasts. -/
def Apart (lasting : Part → Prop) (e : Editor σ κ) : Prop :=
  ∀ d d' n, d ≠ d' → e.isLenient d = true → e.isLenient d' = true →
    e.fileOf d = some n → e.fileOf d' = some n → lasting (.file n)

variable (c : ControllerSettings)

/-- An editor agrees with itself on every document. -/
theorem agree_self : Agree alike d (e.fileOf d) e e :=
  .refl hh.equivalence fun _ => fileOf_of_holds

/-- Turning a document canonical touches nothing but what has to do with it. -/
theorem beside_disable :
    Beside alike lasting d (e.fileOf d) e (disable h c d e).2 :=
  (own_disable hh c).beside (agree_self hh)

omit hh in
/-- Whatever fails, a document that has been turned canonical does not count as lenient, and the
others count as before. -/
theorem tracked_disable (h : Host σ κ) (d : Nat) (e : Editor σ κ) :
    (disable h c d e).2.tracked = e.tracked.filter fun t => t.1 ≠ d := by
  cases hdoc : e.documents[d]? with
  | none => rw [disable_of_none h c hdoc]
  | some doc =>
    obtain ⟨doc', -, hshape⟩ := exists_shape_disable h.respects_true c hdoc trivial
    exact hshape.tracked

omit hh in
/-- A document that has been turned canonical is not in the table. -/
theorem lookup_disable (h : Host σ κ) (d : Nat) (e : Editor σ κ) :
    (disable h c d e).2.tracked.lookup d = none := by
  rw [tracked_disable]
  exact lookup_filter_self d e.tracked

/-- Turning one document canonical keeps those that still count as lenient apart. -/
theorem Apart.disable (hapart : Apart lasting e) (d : Nat) :
    Apart lasting (disable h c d e).2 := by
  have hbeside := beside_disable (d := d) (e := e) hh c
  have hlenient (d' : Nat) (h' : (Editor.disable h c d e).2.isLenient d' = true) :
      d' ≠ d ∧ e.isLenient d' = true := by
    -- the document itself does not count as lenient any more
    have hne : d' ≠ d := by
      rintro rfl
      rw [isLenient, lookup_disable] at h'
      contradiction
    refine ⟨hne, ?_⟩
    rw [← isLenient_congr (hbeside.tracked d' hne)]
    exact h'
  have hfile (d' : Nat) (hne : d' ≠ d) :
      (Editor.disable h c d e).2.fileOf d' = e.fileOf d' :=
    congrArg (Option.bind · Document.file?) (hbeside.documents d' hne)
  intro d₁ d₂ n hne h₁ h₂ hfile₁ hfile₂
  obtain ⟨hne₁, hlenient₁⟩ := hlenient d₁ h₁
  obtain ⟨hne₂, hlenient₂⟩ := hlenient d₂ h₂
  exact hapart d₁ d₂ n hne hlenient₁ hlenient₂ ((hfile d₁ hne₁).symm.trans hfile₁)
    ((hfile d₂ hne₂).symm.trans hfile₂)

/-- Turns documents canonical one after the other, whatever fails. -/
def disableAll (h : Host σ κ) (c : ControllerSettings) (ts : List (Nat × String)) :
    Action (Editor σ κ) Unit :=
  ts.forM fun t => do
    let _ ← (disable h c t.1).attempt

omit hh in
/-- The documents are turned canonical from the first one on. -/
theorem disableAll_cons (h : Host σ κ) (t : Nat × String) (ts : List (Nat × String))
    (e : Editor σ κ) :
    disableAll h c (t :: ts) e = disableAll h c ts (disable h c t.1 e).2 := rfl

/-- A document that does not count as lenient is left alone. -/
theorem content?_disableAll_of_free (ts : List (Nat × String)) (hfree : e.isLenient d = false) :
    (disableAll h c ts e).2.content? d = e.content? d := by
  induction ts generalizing e with
  | nil => rfl
  | cons t ts ih =>
    -- the induction is on the documents that count as lenient, of which this is none
    have hnone : e.tracked.lookup d = none := by simpa [isLenient] using hfree
    rw [disableAll_cons]
    by_cases hd : d = t.1
    · subst hd
      rw [disable_of_free c hnone]
      exact ih hfree
    · have hbeside := beside_disable (d := t.1) (e := e) hh c
      rw [ih ((isLenient_congr (hbeside.tracked d hd)).trans hfree)]
      exact congrArg (Option.map Document.content) (hbeside.documents d hd)

/-- When several documents are turned canonical, each of them becomes what it becomes alone. -/
theorem content?_disableAll (ts : List (Nat × String)) (hapart : Apart lasting e)
    (hd : e.isLenient d = true → d ∈ ts.map Prod.fst) :
    (disableAll h c ts e).2.content? d = (disable h c d e).2.content? d := by
  induction ts generalizing e with
  | nil =>
    have hfree : e.tracked.lookup d = none := by
      cases hl : e.isLenient d with
      | false => simpa [isLenient] using hl
      | true => exact absurd (hd hl) List.not_mem_nil
    rw [disable_of_free c hfree]
    rfl
  | cons t ts ih =>
    cases hlenient : e.isLenient d with
    | false =>
      have hfree : e.tracked.lookup d = none := by simpa [isLenient] using hlenient
      rw [content?_disableAll_of_free hh c _ hlenient, disable_of_free c hfree]
    | true =>
    rw [disableAll_cons]
    by_cases heq : d = t.1
    · -- its turn has come, and afterwards it does not count as lenient
      subst heq
      refine content?_disableAll_of_free hh c ts ?_
      rw [isLenient, lookup_disable]
      rfl
    · have hagree : Agree alike d (e.fileOf d) e (disable h c t.1 e).2 := by
        cases hother : e.isLenient t.1 with
        | false =>
          rw [disable_of_free c (by simpa [isLenient] using hother)]
          exact agree_self hh
        | true =>
          refine (beside_disable hh c).agree heq (fun _ => fileOf_of_holds) fun p hp hp' => ?_
          cases p with
          | converters => exact hh.lasting_converters
          | file n => exact hapart d t.1 n heq hlenient hother hp hp'
          | document d' => exact absurd (hp.symm.trans hp') heq
      have hstill : (disable h c t.1 e).2.isLenient d = true → d ∈ ts.map Prod.fst := by
        intro _
        exact (List.mem_cons.mp (hd hlenient)).resolve_left heq
      rw [ih (hapart.disable hh c t.1) hstill]
      exact ((own_disable hh c).agree hagree).2.content.symm

end Disable

end Editor

end Dialects
