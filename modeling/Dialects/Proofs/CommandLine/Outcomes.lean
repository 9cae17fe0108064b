import Dialects.Proofs.CommandLine.Converting
import Dialects.Proofs.Text.Utf8

/-!
# Printing, rewriting and failing

Whether the converted text is printed or stored makes no difference to what it is, and to whether
there is one: it is the whole of the file, converted, or there is none and the exit status is 1
(`printing_iff_rewriting`). A run without a configuration does all that is asked for or
says why nothing has been done, except in two cases (`whole_iff`): the file is not UTF-8, or the
converted text holds surrogates, which can neither be stored nor be printed.

## Main definitions

* `Alike`: a run that prints and one that rewrites the file come to the same;
* `Whole`: nothing is left halfway.
-/

namespace Dialects.CommandLine

variable {a : Arguments} {indent : Int} {before : Tree}

/-! ## Endings -/

namespace Ending

variable {r : Except Failure Nat × Console}

/-- Without a converted text, nothing is printed and nothing is stored. -/
theorem of_error {f : Failure} (h : Ending a indent before r)
    (hconverted : a.converted indent before = .error f) :
    r.2.disk.tree = before ∧ r.2.output = [] ∧
      ((reported f = true ∧ r.1 = .ok 1 ∧ r.2.remarks ≠ "") ∨
        (reported f = false ∧ ∃ f', r.1 = .error f')) := by
  -- the endings with a converted text are out of the question
  cases h with
  | printed hwrite hok htree => rw [hok] at hconverted; contradiction
  | stored hwrite hok hencode hplace htree houtput => rw [hok] at hconverted; contradiction
  | unencodable hwrite hok hencode htree houtput => rw [hok] at hconverted; contradiction
  | refused herror hreported hremarks htree houtput =>
    obtain rfl := Except.error.inj (herror.symm.trans hconverted)
    exact ⟨htree, houtput, .inl ⟨hreported, rfl, hremarks⟩⟩
  | raised herror hreported htree houtput =>
    obtain rfl := Except.error.inj (herror.symm.trans hconverted)
    exact ⟨htree, houtput, .inr ⟨hreported, _, rfl⟩⟩

/-- A converted text is printed if it is not to be stored. -/
theorem of_printing {s : Text} (h : Ending a indent before r) (hwrite : a.write = false)
    (hconverted : a.converted indent before = .ok s) :
    r.1 = .ok 0 ∧ r.2.output = s ∧ r.2.disk.tree = before := by
  cases h with
  | printed _ hok htree => exact ⟨rfl, Except.ok.inj (hok.symm.trans hconverted), htree⟩
  | stored hwrite' => rw [hwrite'] at hwrite; contradiction
  | unencodable hwrite' => rw [hwrite'] at hwrite; contradiction
  | refused herror => rw [herror] at hconverted; contradiction
  | raised herror => rw [herror] at hconverted; contradiction

/-- A converted text that is to be stored is stored just when it has bytes. -/
theorem of_rewriting {s : Text} (h : Ending a indent before r) (hwrite : a.write = true)
    (hconverted : a.converted indent before = .ok s) :
    r.2.output = [] ∧
      ((∃ bytes, Utf8.encode s = .ok bytes ∧ r.1 = .ok 0 ∧
          r.2.disk.tree.find? (.ofString a.path) = some (.file bytes)) ∨
        (∃ fault, Utf8.encode s = .error fault) ∧ ∃ f', r.1 = .error f') := by
  -- a text that is stored is not printed, and one that has been converted has not failed
  cases h with
  | printed hwrite' => rw [hwrite'] at hwrite; contradiction
  | stored _ hok hencode hplace htree houtput =>
    obtain rfl := Except.ok.inj (hok.symm.trans hconverted)
    exact ⟨houtput, .inl ⟨_, hencode, rfl, htree ▸ Tree.find?_insert_writable hplace _⟩⟩
  | unencodable _ hok hencode htree houtput =>
    obtain rfl := Except.ok.inj (hok.symm.trans hconverted)
    exact ⟨houtput, .inr ⟨⟨_, hencode⟩, _, rfl⟩⟩
  | refused herror => rw [herror] at hconverted; contradiction
  | raised herror => rw [herror] at hconverted; contradiction

end Ending

/-- A text that has been stored is the text of the file. -/
theorem textAt_of_encode {t : Tree} {p : Path} {s : Text} {bytes : Bytes}
    (hfind : t.find? p = some (.file bytes)) (hencode : Utf8.encode s = .ok bytes) :
    textAt t p = .ok s := by
  rw [textAt, hfind]
  simp [Utf8.decode_encode hencode]

/-- The text of a file that is converted, and what it is converted to. -/
theorem Arguments.converted_eq_ok_iff {s : Text} :
    a.converted indent before = .ok s ↔ ∃ t, textAt before (.ofString a.path) = .ok t ∧
      (a.converters indent).convert a.target.direction t = .ok s := by
  rw [Arguments.converted]
  cases textAt before (.ofString a.path) <;> simp [bind, Except.bind]

/-- Without a configuration the preferences are the standard. -/
theorem sought_of_missing {cs : List (String × Candidate)} (h : ∀ c ∈ cs, c.2 = .missing) :
    Preferences.sought cs = .ok .standard := by
  -- each candidate that is missing is passed over
  have hsearch : Configuration.search cs = ⟨[], .ok (.ofIni .empty none)⟩ := by
    induction cs with
    | nil => rfl
    | cons c cs ih =>
      obtain ⟨path, candidate⟩ := c
      obtain ⟨rfl, hcs⟩ := List.forall_mem_cons.1 h
      exact ih hcs
  rw [Preferences.sought, hsearch]
  exact eq_ok_of_toOption (by decide +kernel)

/-! ## Printing and rewriting -/

/-- A run that prints and one that rewrites the file come to the same, and that is the whole of the
file, converted. -/
structure Alike (a : Arguments) (others : List (String × Candidate)) (before : Tree)
    (printing rewriting : Except Failure Nat × Console) : Prop where
  /-- What is printed is what is stored otherwise, without anything being printed. -/
  text : ∀ s, printing.1 = .ok 0 ∧ printing.2.output = s ↔
    rewriting.1 = .ok 0 ∧ rewriting.2.output = [] ∧
      textAt rewriting.2.disk.tree (.ofString a.path) = .ok s
  /-- A text is printed just when the preferences and the file can be read and the whole of the file
  is converted to it. -/
  converted : ∀ s, printing.1 = .ok 0 ∧ printing.2.output = s ↔
    ∃ p, Preferences.sought (a.candidates others before) = .ok p ∧
      a.converted p.indent before = .ok s
  /-- Both of them have nothing to convert, or neither has. -/
  refused : printing.1 = .ok 1 ↔ rewriting.1 = .ok 1
  /-- That is so just when there is no converted text, for a reason that is reported on. -/
  failed : printing.1 = .ok 1 ↔
    ∃ p f, Preferences.sought (a.candidates others before) = .ok p ∧
      a.converted p.indent before = .error f ∧ reported f = true
  /-- Nothing has been stored if there was nothing to convert, and nothing is stored by printing. -/
  unchanged : printing.2.disk.tree = before ∧
    (rewriting.1 = .ok 1 → rewriting.2.disk.tree = before)

section Alike

variable {others : List (String × Candidate)} {p : Preferences} {P W : Except Failure Nat × Console}

/-- Without preferences both runs fail before they look at the file. -/
theorem alike_of_unsought {f g g' : Failure}
    (hsought : Preferences.sought (a.candidates others before) = .error f)
    (hP : P.1 = .error g) (hW : W.1 = .error g') (htree : P.2.disk.tree = before) :
    Alike a others before P W where
  text s := by simp [hP, hW]
  converted s := by simp [hP, hsought]
  refused := by simp [hP, hW]
  failed := by simp [hP, hsought]
  unchanged := ⟨htree, by simp [hW]⟩

/-- Where there is no converted text, it depends on the reason alone how both runs end. -/
theorem Ending.alike_of_error {f : Failure}
    (hsought : Preferences.sought (a.candidates others before) = .ok p)
    (hP : Ending { a with write := false } p.indent before P)
    (hW : Ending { a with write := true } p.indent before W)
    (hconverted : a.converted p.indent before = .error f) : Alike a others before P W := by
  obtain ⟨htree, -, hend⟩ := hP.of_error (f := f) hconverted
  obtain ⟨htree', -, hend'⟩ := hW.of_error (f := f) hconverted
  obtain ⟨hreported, hone, -⟩ | ⟨hreported, g, hraised⟩ := hend
  · obtain ⟨-, hone', -⟩ | ⟨hunreported, -⟩ := hend'
    · exact {
        text s := by simp [hone, hone']
        converted s := by simp [hone, hsought, hconverted]
        refused := by simp [hone, hone']
        failed := by simp [hone, hsought, hconverted, hreported]
        unchanged := ⟨htree, fun _ => htree'⟩ }
    · cases hreported.symm.trans hunreported
  · obtain ⟨hreported', -, -⟩ | ⟨-, g', hraised'⟩ := hend'
    · cases hreported'.symm.trans hreported
    · exact {
        text s := by simp [hraised, hraised']
        converted s := by simp [hraised, hsought, hconverted]
        refused := by simp [hraised, hraised']
        failed := by simp [hraised, hsought, hconverted, hreported]
        unchanged := ⟨htree, fun _ => htree'⟩ }

/-- A converted text that has bytes is printed by the one run and stored by the other. -/
theorem Ending.alike_of_ok {s : Text} {bytes : Bytes}
    (hsought : Preferences.sought (a.candidates others before) = .ok p)
    (hP : Ending { a with write := false } p.indent before P)
    (hW : Ending { a with write := true } p.indent before W)
    (hconverted : a.converted p.indent before = .ok s) (hencode : Utf8.encode s = .ok bytes) :
    Alike a others before P W := by
  obtain ⟨hzero, houtput, htree⟩ := hP.of_printing (s := s) rfl hconverted
  obtain ⟨hsilent, ⟨bytes', hencode', hzero', hfind⟩ | ⟨⟨fault, hfault⟩, -⟩⟩ :=
    hW.of_rewriting (s := s) rfl hconverted
  · -- what has been stored is read as the text again
    have htext : textAt W.2.disk.tree (.ofString a.path) = .ok s := textAt_of_encode hfind hencode'
    exact {
      text s' := by simp [hzero, hzero', houtput, hsilent, htext]
      converted s' := by simp [hzero, houtput, hsought, hconverted]
      refused := by simp [hzero, hzero']
      failed := by simp [hzero, hsought, hconverted]
      unchanged := ⟨htree, by simp [hzero']⟩ }
  · cases hencode.symm.trans hfault

end Alike

/-- Printing the converted text and rewriting the file come to the same, unless the converted text
has no bytes. -/
theorem printing_iff_rewriting {words words' : List String}
    (hprint : Arguments.parse words = .ok { a with write := false })
    (hwrite : Arguments.parse words' = .ok { a with write := true })
    (others : List (String × Candidate)) (before : Tree)
    (hencodable : ∀ p s, Preferences.sought (a.candidates others before) = .ok p →
      a.converted p.indent before = .ok s → ∃ bytes, Utf8.encode s = .ok bytes) :
    Alike a others before (run words others (.start before))
      (run words' others (.start before)) := by
  have hprinting := run_cases hprint others before
  have hrewriting := run_cases hwrite others before
  generalize run words others (.start before) = P at hprinting ⊢
  generalize run words' others (.start before) = W at hrewriting ⊢
  obtain ⟨f, c, rfl, htree, hnone⟩ | ⟨p, hsought, hP⟩ := hprinting
  · -- Neither run has preferences.
    obtain ⟨f', c', rfl, -, -⟩ | ⟨p', hsought', -⟩ := hrewriting
    · exact alike_of_unsought hnone rfl rfl htree
    · cases hnone.symm.trans hsought'
  obtain ⟨f', c', -, -, hnone⟩ | ⟨p', hsought', hW⟩ := hrewriting
  · cases hsought.symm.trans hnone
  obtain rfl : p = p' := Except.ok.inj (hsought.symm.trans hsought')
  cases hconverted : a.converted p.indent before with
  | error f => exact hP.alike_of_error hsought hW hconverted
  | ok s =>
    obtain ⟨bytes, hencode⟩ := hencodable p s hsought hconverted
    exact hP.alike_of_ok hsought hW hconverted hencode

/-- A tree with a file under the path `/p`. -/
def holding (content : Bytes) : Tree := ⟨[([['p']], .file content)], []⟩

/-- What is asked for by a command line that names this file, perhaps its language, and whether it
is to be stored. -/
def asking (write : Bool) (language : Option String) : Arguments :=
  ⟨"/p", .lenient, language, write, none, false⟩

/-- A tree with the script `1;` under this path. -/
def oneStatement : Tree := holding [0x31, 0x3B]

/-- The script is converted to the statement without its semicolon. -/
theorem converted_oneStatement (write : Bool) (config : Option String) (indent : Int) :
    { asking write none with config }.converted indent oneStatement = .ok [.scalar '1'] := by
  have hset : { asking write none with config }.converters indent = .script :=
    if_neg (show (asking false none).tag ≠ "json" by decide)
  have hone : (ConverterSet.script.convert .toLenient [.scalar '1', .scalar ';']).toOption
      = some [.scalar '1'] := by decide +kernel
  have htext : textAt oneStatement (.ofString "/p") = .ok [.scalar '1', .scalar ';'] :=
    eq_ok_of_toOption (by decide +kernel)
  refine Arguments.converted_eq_ok_iff.2 ⟨_, htext, ?_⟩
  rw [hset]
  exact eq_ok_of_toOption hone

/-- The script of one statement is printed without its semicolon, with the exit status 0, and
rewriting it gives the exit status 0 and stores the one byte that is left, without printing it. -/
theorem printing_iff_rewriting_oneStatement :
    let printing := run ["/p"] [] (.start oneStatement)
    let rewriting := run ["/p", "--write"] [] (.start oneStatement)
    (∀ p s, Preferences.sought ((asking false none).candidates [] oneStatement) = .ok p →
      (asking false none).converted p.indent oneStatement = .ok s →
      ∃ bytes, Utf8.encode s = .ok bytes) ∧
    Alike (asking false none) [] oneStatement printing rewriting ∧
    printing.1 = .ok 0 ∧ printing.2.output = Text.ofString "1" ∧
    rewriting.1 = .ok 0 ∧ rewriting.2.output = [] ∧
    rewriting.2.disk.tree.find? (.ofString "/p") = some (.file [0x31]) := by
  intro printing rewriting
  have hencodable (p : Preferences) (s : Text)
      (hs : (asking false none).converted p.indent oneStatement = .ok s) :
      ∃ bytes, Utf8.encode s = .ok bytes := by
    obtain rfl := Except.ok.inj ((converted_oneStatement false none p.indent).symm.trans hs)
    exact ⟨[0x31], rfl⟩
  have hprint : Arguments.parse ["/p"] = .ok { asking false none with write := false } := rfl
  have hwrite : Arguments.parse ["/p", "--write"] = .ok { asking false none with write := true } :=
    rfl
  have halike : Alike (asking false none) [] oneStatement printing rewriting :=
    printing_iff_rewriting hprint hwrite [] oneStatement fun p s _ => hencodable p s
  -- that both runs end well, and with which text, follows from the conversion
  have hsought : Preferences.sought [] = .ok .standard := sought_of_missing nofun
  have hprinted : printing.1 = .ok 0 ∧ printing.2.output = Text.ofString "1" :=
    (halike.converted _).2 ⟨.standard, hsought, converted_oneStatement false none _⟩
  obtain ⟨hzero, hsilent, -⟩ := (halike.text _).1 hprinted
  have hstored : rewriting.2.disk.tree.find? (.ofString "/p") = some (.file [0x31]) := by
    decide +kernel
  exact ⟨fun p s _ => hencodable p s, halike, hprinted.1, hprinted.2, hzero, hsilent, hstored⟩

/-! ## Nothing is left halfway -/

/-- A run does all that is asked for, or says why nothing has been done. -/
structure Whole (a : Arguments) (indent : Int) (before : Tree) (r : Except Failure Nat × Console) :
    Prop where
  /-- There is an exit status. -/
  status : r.1 = .ok 0 ∨ r.1 = .ok 1
  /-- The exit status 1 comes with a remark and leaves all files alone. -/
  refused : r.1 = .ok 1 → r.2.remarks ≠ "" ∧ r.2.disk.tree = before
  /-- Printing leaves all files alone. -/
  printed : r.1 = .ok 0 → a.write = false → r.2.disk.tree = before
  /-- What is stored are the bytes of the converted text. -/
  stored : r.1 = .ok 0 → a.write = true → ∃ s bytes, a.converted indent before = .ok s ∧
    Utf8.encode s = .ok bytes ∧ r.2.disk.tree.find? (.ofString a.path) = some (.file bytes)
  /-- What is printed has bytes, without which the printing would end the program. -/
  printable : ∃ bytes, Utf8.encode r.2.output = .ok bytes

section Whole

variable {R : Except Failure Nat × Console}

/-- A run that has nothing to convert is whole just when it says why. -/
theorem Ending.whole_iff_reported {f : Failure} (h : Ending a indent before R)
    (hconverted : a.converted indent before = .error f) :
    Whole a indent before R ↔ reported f = true := by
  obtain ⟨htree, houtput, ⟨hreported, hone, hremarks⟩ | ⟨hreported, g, hraised⟩⟩ :=
    h.of_error hconverted
  · exact iff_of_true ⟨.inr hone, fun _ => ⟨hremarks, htree⟩, by simp [hone], by simp [hone],
      houtput ▸ ⟨[], rfl⟩⟩ hreported
  · refine iff_of_false (fun hwhole => ?_) (by simp [hreported])
    simpa [hraised] using hwhole.status

/-- A run that has a converted text is whole just when this text has bytes. -/
theorem Ending.whole_iff_encodable {s : Text} (h : Ending a indent before R)
    (hconverted : a.converted indent before = .ok s) :
    Whole a indent before R ↔ ∃ bytes, Utf8.encode s = .ok bytes := by
  cases hwrite : a.write with
  | false =>
    -- what is printed has to be encoded as well
    obtain ⟨hzero, houtput, htree⟩ := h.of_printing hwrite hconverted
    constructor
    · intro hwhole
      exact houtput ▸ hwhole.printable
    · intro hencodable
      exact ⟨.inl hzero, by simp [hzero], fun _ _ => htree, by simp [hwrite], houtput ▸ hencodable⟩
  | true =>
    obtain ⟨houtput, ⟨bytes, hencode, hzero, hfind⟩ | ⟨⟨fault, hfault⟩, g, hraised⟩⟩ :=
      h.of_rewriting hwrite hconverted
    · refine iff_of_true ⟨.inl hzero, by simp [hzero], by simp [hwrite], fun _ _ => ?_,
        houtput ▸ ⟨[], rfl⟩⟩ ⟨bytes, hencode⟩
      exact ⟨s, bytes, hconverted, hencode, hfind⟩
    · -- that a text has no bytes ends the program without an exit status
      refine iff_of_false (fun hwhole => ?_) (by simp [hfault])
      simpa [hraised] using hwhole.status

end Whole

/-- Nothing but a file that is not UTF-8 goes unreported. -/
theorem reported_eq_false_iff {f : Failure} (h : a.converted indent before = .error f) :
    reported f = false ↔ ∃ content fault,
      before.find? (.ofString a.path) = some (.file content) ∧
        Utf8.decode content = .error fault := by
  rw [Arguments.converted, textAt] at h
  -- a path that leads to nothing or to a folder is reported
  cases hentry : before.find? (.ofString a.path) with
  | none =>
    rw [hentry] at h
    cases h
    simp [reported, Failure.isStorage]
  | some entry =>
    rw [hentry] at h
    cases entry with
    | folder =>
      cases h
      simp [reported, Failure.isStorage]
    | file content =>
      cases hdecode : Utf8.decode content with
      | error fault =>
        simp only [hdecode, mapError_error] at h
        cases h
        simp [reported, Failure.isStorage, Failure.isPipeline, hdecode]
      | ok t =>
        simp only [hdecode, mapError_ok] at h
        -- a text that cannot be converted is reported, as all failures of the converters are
        simp [reported, Arguments.isPipeline_of_convert _ h, hdecode]

/-- Without a configuration, a run leaves nothing halfway just when the file, if there is one, is
UTF-8 and the converted text, if there is one, has bytes. -/
theorem whole_iff {words : List String} (hparse : Arguments.parse words = .ok a)
    (others : List (String × Candidate)) (before : Tree)
    (hmissing : ∀ c ∈ a.candidates others before, c.2 = .missing) :
    Whole a Preferences.standard.indent before (run words others (.start before)) ↔
      (∀ content, before.find? (.ofString a.path) = some (.file content) →
        ∃ t, Utf8.decode content = .ok t) ∧
      ∀ s, a.converted Preferences.standard.indent before = .ok s →
        ∃ bytes, Utf8.encode s = .ok bytes := by
  have hrun := run_cases hparse others before
  generalize run words others (.start before) = R at hrun ⊢
  obtain ⟨f, -, -, -, hnone⟩ | ⟨p, hsought, hR⟩ := hrun
  · -- without a configuration there are always preferences
    cases (sought_of_missing hmissing).symm.trans hnone
  obtain rfl := Except.ok.inj ((sought_of_missing hmissing).symm.trans hsought)
  cases hconverted : a.converted Preferences.standard.indent before with
  | error f =>
    have hreported := reported_eq_false_iff hconverted
    rw [hR.whole_iff_reported hconverted]
    constructor
    · intro htrue
      refine ⟨fun content hcontent => ?_, fun s hs => by contradiction⟩
      cases hdecode : Utf8.decode content with
      | ok t => exact ⟨t, rfl⟩
      | error fault => cases htrue.symm.trans (hreported.mpr ⟨content, fault, hcontent, hdecode⟩)
    · rintro ⟨hutf8, -⟩
      refine (Bool.not_eq_false _).mp fun hfalse => ?_
      obtain ⟨content, fault, hcontent, hdecode⟩ := hreported.mp hfalse
      obtain ⟨t, ht⟩ := hutf8 content hcontent
      cases hdecode.symm.trans ht
  | ok s =>
    -- what has been converted has been read, and is UTF-8 thus
    have hutf8 : ∀ content, before.find? (.ofString a.path) = some (.file content) →
        ∃ t, Utf8.decode content = .ok t := by
      intro content hcontent
      obtain ⟨t, ht, -⟩ := Arguments.converted_eq_ok_iff.1 hconverted
      rw [textAt, hcontent] at ht
      cases hdecode : Utf8.decode content with
      | ok t => exact ⟨t, rfl⟩
      | error fault => simp [hdecode] at ht
    rw [hR.whole_iff_encodable hconverted, and_iff_right hutf8]
    simp

/-- The script of one statement is rewritten as a whole: neither the configuration that is asked for
nor the one in the standard place is there, the exit status is 0, and the byte of the statement
without its semicolon is stored. -/
theorem whole_oneStatement :
    let a := { asking true none with config := some "/c" }
    let others := [("~/.config/PyLenient/config.ini", Candidate.missing)]
    let rewriting := run ["/p", "--write", "--config", "/c"] others (.start oneStatement)
    (∀ c ∈ a.candidates others oneStatement, c.2 = .missing) ∧
      Whole a Preferences.standard.indent oneStatement rewriting ∧ rewriting.1 = .ok 0 ∧
      rewriting.2.disk.tree.find? (.ofString "/p") = some (.file [0x31]) := by
  intro a others rewriting
  have hparse : Arguments.parse ["/p", "--write", "--config", "/c"] = .ok a := rfl
  have hmissing : ∀ c ∈ a.candidates others oneStatement, c.2 = .missing := by decide
  have hconverted : a.converted Preferences.standard.indent oneStatement = .ok [.scalar '1'] :=
    converted_oneStatement true (some "/c") _
  have hwhole : Whole a Preferences.standard.indent oneStatement rewriting := by
    refine (whole_iff hparse others oneStatement hmissing).2 ⟨fun content hcontent => ?_,
      fun s hs => ?_⟩
    · have hfind : oneStatement.find? (.ofString "/p") = some (.file [0x31, 0x3B]) := by decide
      obtain rfl := Entry.file.inj (Option.some.inj (hfind.symm.trans hcontent))
      exact ⟨[.scalar '1', .scalar ';'], eq_ok_of_toOption (by decide +kernel)⟩
    · obtain rfl := Except.ok.inj (hconverted.symm.trans hs)
      exact ⟨[0x31], rfl⟩
  have hzero : rewriting.1 = .ok 0 := eq_ok_of_toOption (by decide +kernel)
  -- with this exit status the bytes of the converted text have been stored
  obtain ⟨s, bytes, hs, hbytes, hstored⟩ := hwhole.stored hzero rfl
  obtain rfl := Except.ok.inj (hconverted.symm.trans hs)
  obtain rfl : bytes = [0x31] := (Except.ok.inj hbytes).symm
  exact ⟨hmissing, hwhole, hzero, hstored⟩

/-- A byte that is not UTF-8 ends the program without an exit status, and so does a string that
denotes a surrogate if the document is to be stored. -/
theorem not_whole_undecodable :
    ¬ Whole (asking false none) Preferences.standard.indent (holding [0xFF])
        (run ["/p"] [] (.start (holding [0xFF]))) ∧
      ¬ Whole (asking true (some "json")) Preferences.standard.indent
        (holding [0x22, 0x5C, 0x75, 0x64, 0x38, 0x30, 0x30, 0x22])
        (run ["/p", "--write", "--language", "json"] []
          (.start (holding [0x22, 0x5C, 0x75, 0x64, 0x38, 0x30, 0x30, 0x22]))) := by
  have hbyte : (run ["/p"] [] (.start (holding [0xFF]))).1.toOption = none := by decide +kernel
  have hsurrogate : (run ["/p", "--write", "--language", "json"] [] (.start
      (holding [0x22, 0x5C, 0x75, 0x64, 0x38, 0x30, 0x30, 0x22]))).1.toOption = none := by
    decide +kernel
  refine ⟨fun hwhole => ?_, fun hwhole => ?_⟩
  · -- a program that ends with an exit status would have one here
    rcases hwhole.status with h | h <;> simp [h, Except.toOption] at hbyte
  · rcases hwhole.status with h | h <;> simp [h, Except.toOption] at hsurrogate

end Dialects.CommandLine
