import Dialects.Preferences
import Dialects.Proofs.Action
import Dialects.Proofs.Text.Utf8

/-!
# Configurations in spite of bad files

The preferences ought to be those of the first candidate that is UTF-8 and well formed
(`Configuration.firstReadable`), with a value that cannot be read counting as none
(`Preferences.wished`), whatever the candidates hold.

There are two ways in which a file is in the way of this, and no others (`robust_iff`): one that is
not UTF-8, ahead of the first readable one, unless a complete line of the blocks in front is at
fault already (`Candidate.Undecodable`); and, in the readable one, an option of the lenient mode
whose references cannot be followed. Either of them is a failure; there are never other preferences
than the ones that are wished (`sought_eq_ok_iff`).
-/

namespace Dialects

/-! ## One candidate -/

/-- A file can be read if its bytes are UTF-8 and the text is well formed. -/
theorem Ini.ofBytes_eq_ok_iff {bs : Bytes} {ini : Ini} :
    Ini.ofBytes bs = .ok ini ↔ ∃ t, Utf8.decode bs = .ok t ∧ Ini.ofText t = .ok ini := by
  simp only [← Utf8.decodeFile_eq_none_iff]
  rw [Ini.ofBytes]
  -- bytes that cannot be decoded are refused, whatever the text in front of them says
  split
  next t hfile =>
    cases hini : Ini.ofText t <;> simp [hfile, hini]
  next t f hfile =>
    have hnone : ∀ u, Utf8.decodeFile bs ≠ (u, none) := by simp [hfile]
    split <;> simp [hnone]

namespace Candidate

/-- The options that a candidate holds, if it is a file that is UTF-8 and well formed. -/
def ini? : Candidate → Option Ini
  | .missing | .unopenable _ => none
  | .file content => (Utf8.decode content).toOption.bind fun t => (Ini.ofText t).toOption

/-- The candidate is a file that is not UTF-8, and no line that is complete before its first block
at fault is ill formed. -/
def Undecodable : Candidate → Prop
  | .missing | .unopenable _ => False
  | .file content => ∃ t f r, Utf8.decodeFile content = (t, some f) ∧
      Ini.readLines .start 1 (Ini.completeLines t) = .ok r

/-- A file has options if it can be read. -/
theorem ini?_file (content : Bytes) :
    (Candidate.file content).ini? = (Ini.ofBytes content).toOption := by
  -- that the options are found is said of each of them, and their absence follows
  have hread (ini : Ini) :
      (Candidate.file content).ini? = some ini ↔ Ini.ofBytes content = .ok ini := by
    rw [Ini.ofBytes_eq_ok_iff, ini?]
    cases Utf8.decode content with
    | error f => simp [Except.toOption]
    | ok t => cases h : Ini.ofText t <;> simp [Except.toOption, h]
  cases h : Ini.ofBytes content with
  | ok ini => exact (hread ini).2 h
  | error p =>
    rw [Except.toOption, Option.eq_none_iff_forall_ne_some]
    intro ini hini
    rw [hread, h] at hini
    contradiction

/-- What stops the reader of a file. -/
theorem undecodable_file_iff {content : Bytes} :
    (Candidate.file content).Undecodable ↔ ∃ f, Ini.ofBytes content = .error (.undecodable f) := by
  rw [Undecodable, Ini.ofBytes]
  rcases Utf8.decodeFile content with ⟨t, fault⟩
  cases fault with
  | none => cases h : Ini.ofText t <;> simp [h]
  | some f =>
    cases h : Ini.readLines .start 1 (Ini.completeLines t) <;> simp [h]

/-- What stops the reader has no text, and so no options. -/
theorem Undecodable.decode_ne {content : Bytes} (h : (Candidate.file content).Undecodable)
    (t : Text) : Utf8.decode content ≠ .ok t := by
  obtain ⟨t', f, r, hfile, -⟩ := h
  simp [← Utf8.decodeFile_eq_none_iff, hfile]

end Candidate

/-! ## The search -/

namespace Configuration

/-- The configuration of the first candidate that can be read, or the one of an empty file. -/
def firstReadable : List (String × Candidate) → Configuration
  | [] => ofIni .empty none
  | (path, candidate) :: rest =>
    match candidate.ini? with
    | some ini => ofIni ini (some path)
    | none => firstReadable rest

/-- The candidates ahead of the first one that can be read. -/
def passedOver (cs : List (String × Candidate)) : List (String × Candidate) :=
  cs.takeWhile fun c => c.2.ini?.isNone

/-- A candidate that cannot be read leaves nothing behind. -/
theorem firstReadable_cons_of_none {path : String} {candidate : Candidate}
    (h : candidate.ini? = none) (rest : List (String × Candidate)) :
    firstReadable ((path, candidate) :: rest) = firstReadable rest := by
  rw [firstReadable, h]

/-- A search comes to the first candidate that can be read, unless one ahead of it is not UTF-8. -/
theorem search_eq_ok_iff (cs : List (String × Candidate)) (c : Configuration) :
    (search cs).result = .ok c ↔
      (∀ p ∈ passedOver cs, ¬ p.2.Undecodable) ∧ c = firstReadable cs := by
  induction cs with
  | nil => simp [search, passedOver, firstReadable, eq_comm]
  | cons p rest ih =>
    obtain ⟨path, candidate⟩ := p
    -- Where the candidate is skipped, the rest is searched.
    have hskip (hnone : candidate.ini? = none) (hread : ¬ candidate.Undecodable) :
        (search rest).result = .ok c ↔ (∀ p ∈ passedOver ((path, candidate) :: rest),
          ¬ p.2.Undecodable) ∧ c = firstReadable ((path, candidate) :: rest) := by
      rw [ih, firstReadable_cons_of_none hnone]
      simp [passedOver, hnone, hread]
    cases candidate with
    | missing => exact hskip rfl id
    | unopenable reason => exact hskip rfl id
    | file content =>
      have hini := Candidate.ini?_file content
      have hstop := @Candidate.undecodable_file_iff content
      rw [search]
      cases hfile : Ini.ofBytes content with
      | ok ini =>
        simp only [hfile, Except.toOption] at hini
        simp [passedOver, firstReadable, hini, eq_comm]
      | error problem =>
        simp only [hfile, Except.toOption] at hini
        cases problem with
        | malformed fault => exact hskip hini (by simp [hstop, hfile])
        | undecodable fault =>
          have hmem : (path, Candidate.file content) ∈
              passedOver ((path, .file content) :: rest) := by
            simp [passedOver, hini]
          have hundecodable : (Candidate.file content).Undecodable := hstop.2 ⟨fault, hfile⟩
          exact iff_of_false (by simp) fun h => h.1 _ hmem hundecodable

end Configuration

/-! ## The preferences -/

namespace Preferences

/-- The options of the lenient mode. -/
def optionNames : List String := ["js_scope", "json_scope", "json_indent", "reload_on_switch"]

/-- The value of an option of the lenient mode, if it can be read. -/
def readable? (c : Configuration) (name : String) : Option Text :=
  (c.get? Configuration.lenientName (Text.ofString name)).toOption.join

/-- The preferences of a configuration of which a value that cannot be read counts as none. -/
def wished (c : Configuration) : Preferences :=
  ofValues (readable? c "js_scope") (readable? c "json_scope")
    ((readable? c "json_indent").bind Text.toInt?)
    (((readable? c "reload_on_switch").bind Configuration.truth?).getD standard.reload)

/-- Nested values are indented, whatever is wished. -/
theorem one_le_indentOf (value : Option Int) : 1 ≤ indentOf value := by
  unfold indentOf
  split
  · decide
  · split
    · decide
    · exact Nat.le_max_left ..

theorem one_le_indent_wished (c : Configuration) : 1 ≤ (wished c).indent := one_le_indentOf _

/-- A configuration has preferences if the values of the four options can be followed up. -/
theorem ofConfiguration_eq_ok_iff (c : Configuration) (p : Preferences) :
    ofConfiguration c = .ok p ↔
      (∀ name ∈ optionNames,
        ∃ value, c.get? Configuration.lenientName (Text.ofString name) = .ok value) ∧
      p = wished c := by
  simp only [ofConfiguration, Configuration.getInt?, Configuration.getBool?, wished, readable?,
    optionNames, List.forall_mem_cons, List.not_mem_nil, false_imp_iff, implies_true, and_true]
  -- the options are read one after the other, and the first one that cannot be ends it
  cases c.get? Configuration.lenientName (Text.ofString "js_scope") with
  | error f => simp [bind, Except.bind]
  | ok script =>
  cases c.get? Configuration.lenientName (Text.ofString "json_scope") with
  | error f => simp [bind, Except.bind]
  | ok json =>
  cases c.get? Configuration.lenientName (Text.ofString "json_indent") with
  | error f => simp [bind, Except.bind]
  | ok indent =>
  cases c.get? Configuration.lenientName (Text.ofString "reload_on_switch") with
  | error f => simp [bind, Except.bind, pure, Except.pure]
  | ok reload => simp [bind, Except.bind, pure, Except.pure, Except.toOption, eq_comm]

/-- The preferences to which a search among candidates leads. -/
def sought (cs : List (String × Candidate)) : Except Failure Preferences :=
  (Configuration.search cs).result.bind ofConfiguration

/-- Preferences are found whatever the candidates hold: those of the first candidate that can be
read, with an indent. -/
def Robust (cs : List (String × Candidate)) : Prop :=
  sought cs = .ok (wished (Configuration.firstReadable cs)) ∧
    1 ≤ (wished (Configuration.firstReadable cs)).indent

/-- A search leads to preferences if neither a file nor a value stops it, and to no other ones than
those that are wished. -/
theorem sought_eq_ok_iff (cs : List (String × Candidate)) (p : Preferences) :
    sought cs = .ok p ↔
      (∀ q ∈ Configuration.passedOver cs, ¬ q.2.Undecodable) ∧
        (∀ name ∈ optionNames, ∃ value, (Configuration.firstReadable cs).get?
          Configuration.lenientName (Text.ofString name) = .ok value) ∧
        p = wished (Configuration.firstReadable cs) := by
  -- the search is followed by reading the options, and either may fail
  have hbind : sought cs = .ok p ↔
      ∃ c, (Configuration.search cs).result = .ok c ∧ ofConfiguration c = .ok p := by
    rw [sought]
    cases (Configuration.search cs).result <;> simp [Except.bind]
  simp only [hbind, Configuration.search_eq_ok_iff, ofConfiguration_eq_ok_iff, and_assoc,
    exists_eq_left, exists_and_left]

/-- Preferences are found just when no file ahead of the first readable one is stopped at bytes that
are not UTF-8 and the values of the four options in the readable one can be followed up. Otherwise
there is a failure, and no preferences are made up from what has been read so far. -/
theorem robust_iff (cs : List (String × Candidate)) :
    (Robust cs ↔
      (∀ q ∈ Configuration.passedOver cs, ¬ q.2.Undecodable) ∧
        ∀ name ∈ optionNames, ∃ value, (Configuration.firstReadable cs).get?
          Configuration.lenientName (Text.ofString name) = .ok value) ∧
      (Robust cs ∨ ∃ f, sought cs = .error f) := by
  have hwished := one_le_indent_wished (Configuration.firstReadable cs)
  refine ⟨?_, ?_⟩
  · rw [Robust, and_iff_left hwished, sought_eq_ok_iff]
    simp
  · -- a failure is all that there is besides preferences
    cases h : sought cs with
    | error f => exact .inr ⟨f, rfl⟩
    | ok p =>
      obtain ⟨-, -, rfl⟩ := (sought_eq_ok_iff cs p).1 h
      exact .inl ⟨h, hwished⟩

/-- A file that has no section, and behind it one that reads `[lenient]` and `json_indent=-1` on two
lines. -/
def headless : List (String × Candidate) :=
  [("/c", .file [0x78]),
    ("/d", .file [0x5B, 0x6C, 0x65, 0x6E, 0x69, 0x65, 0x6E, 0x74, 0x5D, 0x0A,
      0x6A, 0x73, 0x6F, 0x6E, 0x5F, 0x69, 0x6E, 0x64, 0x65, 0x6E, 0x74, 0x3D, 0x2D, 0x31])]

/-- What is wished in the second file is found, as far as it goes. -/
theorem robust_headless :
    Robust headless ∧ sought headless = .ok { standard with indent := 1 } := by
  have hfirst : Utf8.decode [0x78] = .ok [.scalar 'x'] :=
    eq_ok_of_toOption (by decide +kernel)
  have hpassed : ∀ q ∈ Configuration.passedOver headless, ¬ q.2.Undecodable := by
    have hlist : Configuration.passedOver headless = [("/c", .file [0x78])] := by decide +kernel
    -- the only file that is passed over is a text without a section
    rw [hlist, List.forall_mem_singleton]
    exact fun hundecodable => hundecodable.decode_ne _ hfirst
  have hvalues : ∀ name ∈ optionNames, ∃ value, (Configuration.firstReadable headless).get?
      Configuration.lenientName (Text.ofString name) = .ok value := by
    have hall : ∀ name ∈ optionNames, ((Configuration.firstReadable headless).get?
        Configuration.lenientName (Text.ofString name)).isOk = true := by decide +kernel
    intro name hname
    have hok := hall name hname
    revert hok
    cases (Configuration.firstReadable headless).get? Configuration.lenientName
        (Text.ofString name) with
    | error f => exact fun hok => nomatch hok
    | ok value => exact fun _ => ⟨value, rfl⟩
  have hrobust : Robust headless := (robust_iff headless).1.2 ⟨hpassed, hvalues⟩
  have hwished : wished (Configuration.firstReadable headless) = { standard with indent := 1 } := by
    decide +kernel
  exact ⟨hrobust, hwished ▸ hrobust.1⟩

/-- A file of a single byte that is not UTF-8. -/
def strayByte : List (String × Candidate) := [("/c", .file [0xFF])]

/-- A file that reads `[lenient]` and `js_scope=%` on two lines. -/
def strayPercent : List (String × Candidate) :=
  [("/c", .file [0x5B, 0x6C, 0x65, 0x6E, 0x69, 0x65, 0x6E, 0x74, 0x5D, 0x0A,
    0x6A, 0x73, 0x5F, 0x73, 0x63, 0x6F, 0x70, 0x65, 0x3D, 0x25])]

/-- Bytes that are not UTF-8 are in the way of the preferences, and so is a percent sign that starts
nothing known. -/
theorem not_robust_stray : ¬ Robust strayByte ∧ ¬ Robust strayPercent := by
  have hbyte : (sought strayByte).toOption = none := by decide +kernel
  have hpercent : (sought strayPercent).toOption = none := by decide +kernel
  refine ⟨?_, ?_⟩
  · rintro ⟨hsought, -⟩
    simp [hsought, Except.toOption] at hbyte
  · rintro ⟨hsought, -⟩
    simp [hsought, Except.toOption] at hpercent

end Preferences

end Dialects
