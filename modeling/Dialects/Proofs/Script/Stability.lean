import Dialects.Proofs.Script.RoundTrip
import Dialects.Proofs.Script.Templates

/-!
# Scripts that are saved and shown again

Saving a script in the lenient dialect adds the semicolons that it lacks, and showing it again
leaves them out. `normalize_eq_iff` says exactly when that gives back the same lenient script: when
it has no semicolon itself that the lenient dialect leaves out, and no semicolon is added in the
text of a template.
-/

namespace Dialects.Script

open CodePoint (scalar)
open Canonical (Context)

variable {s s' : LexState} {t u : Token} {ts us : List Token} {ms ms' : List (Token × Bool)}
  {c : Context}

/-- Whether saving a script in the lenient dialect and showing it again leaves it as it is: none of
its semicolons is one that the lenient dialect leaves out, and the canonical dialect adds none in
the text of a template. -/
def isStable (lenient : Text) : Bool :=
  match tokens lenient with
  | .ok ts => (Lenient.redundant [] ts).all (! ·) && sparesTemplates .initial false ts
  | .error _ => false

/-! ## What does not depend on the places of tokens -/

/-- What tokens spell does not depend on where they stand. -/
theorem join_congr (h : ts.map Token.bare = us.map Token.bare) : Token.join ts = Token.join us := by
  have hvalues (ts : List Token) : Token.join ts = ((ts.map Token.bare).map Prod.snd).flatten := by
    rw [List.map_map, Token.join, List.flatMap]
    rfl
  rw [hvalues, hvalues, h]

/-- How tokens are read does not depend on where they stand. -/
theorem Lexed.congr (h : Lexed s ts) (hbare : ts.map Token.bare = us.map Token.bare) :
    Lexed s us := by
  -- the places of tokens are of no account for how the text is read
  induction h generalizing us with
  | nil =>
    obtain rfl := List.map_eq_nil_iff.mp hbare.symm
    exact .nil
  | @cons s t ts a first kind length rest ih =>
    obtain ⟨u, us, rfl, hu, hus⟩ := List.map_eq_cons_iff.mp hbare.symm
    rw [← value_of_bare hu, join_congr hus.symm] at first
    rw [← value_of_bare hu] at length ih
    exact .cons first ((kind_of_bare hu).trans kind) length (ih hus.symm)

/-- Whether tokens end a line does not depend on where they stand. -/
theorem lineEnds_congr (h : ts.map Token.bare = us.map Token.bare) :
    Token.lineEnds ts = Token.lineEnds us := by
  induction ts generalizing us with
  | nil =>
    obtain rfl := List.map_eq_nil_iff.mp h.symm
    rfl
  | cons t ts ih =>
    obtain ⟨u, us, rfl, hu, hus⟩ := List.map_eq_cons_iff.mp h.symm
    rw [Token.lineEnds, Token.lineEnds, breaksLine_of_bare hu, significant_of_bare hu, ih hus.symm]

/-- The next significant token does not depend on where the tokens stand. -/
theorem next_congr (h : ts.map Token.bare = us.map Token.bare) :
    (Token.nextSignificant? ts).map Token.bare = (Token.nextSignificant? us).map Token.bare := by
  induction ts generalizing us with
  | nil =>
    obtain rfl := List.map_eq_nil_iff.mp h.symm
    rfl
  | cons t ts ih =>
    obtain ⟨u, us, rfl, hu, hus⟩ := List.map_eq_cons_iff.mp h.symm
    cases hsignificant : t.isSignificant with
    | true =>
      rw [nextSignificant_of_significant hsignificant,
        nextSignificant_of_significant ((significant_of_bare hu).trans hsignificant),
        Option.map_some, Option.map_some, hu]
    | false =>
      rw [nextSignificant_of_insignificant hsignificant,
        nextSignificant_of_insignificant ((significant_of_bare hu).trans hsignificant),
        ih hus.symm]

/-- Which semicolons are redundant does not depend on where the tokens stand. -/
theorem redundant_congr (h : ts.map Token.bare = us.map Token.bare) (pending : List Bracket) :
    Lenient.redundant pending ts = Lenient.redundant pending us := by
  induction ts generalizing us pending with
  | nil =>
    obtain rfl := List.map_eq_nil_iff.mp h.symm
    rfl
  | cons t ts ih =>
    obtain ⟨u, us, rfl, hu, hus⟩ := List.map_eq_cons_iff.mp h.symm
    have hjoins : (Token.nextSignificant? ts).any joinsLine
        = (Token.nextSignificant? us).any joinsLine :=
      any_congr (fun _ _ heq => by rw [joinsLine, joinsLine, value_of_bare heq])
        (next_congr hus.symm)
    rw [redundant_cons, redundant_cons, nested, nested, Lenient.isRedundant, Lenient.isRedundant,
      Token.isSemicolon, Token.isSemicolon, opens_of_bare hu, closes_of_bare hu, kind_of_bare hu,
      spells_of_bare hu, lineEnds_congr hus.symm, hjoins, ih hus.symm]

/-- What remains does not depend on where the tokens stand. -/
theorem remaining_congr (hwhole : (whole ms).map Token.bare = (whole ms').map Token.bare)
    (hmarks : ms.map Prod.snd = ms'.map Prod.snd) :
    (remaining ms).map Token.bare = (remaining ms').map Token.bare := by
  induction ms generalizing ms' with
  | nil =>
    obtain rfl := List.map_eq_nil_iff.mp hmarks.symm
    rfl
  | cons m ms ih =>
    obtain ⟨m', ms', rfl, hmark, hmarks'⟩ := List.map_eq_cons_iff.mp hmarks.symm
    obtain ⟨t, dropped⟩ := m
    obtain ⟨t', dropped'⟩ := m'
    obtain rfl : dropped' = dropped := hmark
    obtain ⟨hbare, hrest⟩ := List.cons.inj hwhole
    have hremaining := ih hrest hmarks'.symm
    cases dropped' with
    | true => exact hremaining
    | false => exact congrArg₂ List.cons hbare hremaining

/-- The marks are those of the lenient dialect. -/
theorem marks_marked (pending : List Bracket) (ts : List Token) :
    (marked pending ts).map Prod.snd = Lenient.redundant pending ts := by
  induction ts generalizing pending with
  | nil => rfl
  | cons t ts ih => rw [marked_cons, redundant_cons, List.map_cons, ih]

/-! ## From the text to the tokens -/

/-- If leaving out semicolons of the canonical text gives the lenient text, those that are left out
are the ones that were added. -/
theorem supplied_of_eq (h : Lexed s (whole ms)) (hsound : Sound ms)
    (hfollows : Follows s s' (whole ms)) (hu : Lexed s' us)
    (hjoin : Token.join us = Token.join (remaining ms))
    (htext : Token.join (whole ms) = punctuated c us) :
    (whole ms).map Token.bare = (whole (supplied c us)).map Token.bare ∧
      ms.map Prod.snd = (supplied c us).map Prod.snd := by
  -- The induction is on the length, for a token and the semicolon behind it go together.
  induction hn : ms.length using Nat.strongRecOn generalizing s s' c ms us with
  | ind n ih =>
    match ms with
    | [] =>
      obtain rfl := hu.eq_nil hjoin
      exact ⟨rfl, rfl⟩
    | (t, true) :: ms =>
      -- The lenient text would have to start with the semicolon too.
      obtain ⟨-, hvalue⟩ := isSemicolon_iff.mp (hsound.1 rfl).1
      rw [whole_cons, join_cons, hvalue] at htext
      exact absurd htext.symm (punctuated_ne_of_dropped h hsound hu hjoin _)
    | (t, false) :: ms =>
      have hfollows' : Follows s s' (t :: whole ms) := hfollows
      obtain ⟨u, us, rfl⟩ := exists_cons_of_join h hjoin
      have hstem (hbehind : behind ms ≠ []) : ∃ p q r, stem ((t, false) :: ms) = p ++ q ∧
          q.head? ≠ some (scalar ';') ∧ u.value ++ (semicolonIf (lacks c u us) ++
            punctuated (advance c u us) us) = p ++ scalar ';' :: r := by
        obtain hnil | ⟨⟨r, hr⟩, -⟩ := behind_split h hsound
        · exact absurd hnil hbehind
        · refine ⟨_, [], r, (List.append_nil _).symm, fun heq => by contradiction, ?_⟩
          rw [← punctuated_cons, ← htext, join_whole, hr]
      obtain ⟨hbare, hrest, s₁, s₁', hlexed, hlexed', hnext, hsame, hstarted⟩ :=
        matched h hsound hfollows' hu hjoin fun hbehind =>
          length_le_stem h hsound hbehind hjoin (hstem hbehind)
      rw [whole_cons, join_cons, punctuated_cons, value_of_bare hbare,
        List.append_cancel_left_eq] at htext
      rw [List.length_cons] at hn
      obtain hhead | ⟨w, ms, rfl⟩ := head_remaining hlexed
      · -- Both texts go on alike, so that there is no semicolon behind the token.
        cases hlacks : lacks c u us with
        | true =>
          rw [← hrest, htext, hlacks] at hhead
          exact absurd hhead (head_of_lineEnds hlexed' (lineEnds_of_lacks hlacks))
        | false =>
          rw [hlacks] at htext
          obtain ⟨hwhole, hmarks⟩ := ih _ (by omega) hlexed hsound.2 hnext hlexed' hrest htext rfl
          rw [supplied_of_complete hlacks]
          exact ⟨congrArg₂ List.cons hbare.symm hwhole, congrArg (false :: ·) hmarks⟩
      · -- A semicolon is left out behind the token: it is the one that was added.
        obtain ⟨hkind, hvalue⟩ := isSemicolon_iff.mp (hsound.2.1 rfl).1
        rw [whole_cons, join_cons, hvalue] at htext
        cases hlacks : lacks c u us with
        | false =>
          rw [hlacks] at htext
          exact absurd htext.symm (punctuated_ne_of_dropped hlexed hsound.2 hlexed' hrest _)
        | true =>
          rw [hlacks] at htext
          rw [List.length_cons] at hn
          obtain ⟨s₂, hlexed₂, hnext₂⟩ :=
            follows_dropped hbare hlacks hsame hlexed hsound.2 hstarted
          obtain ⟨hwhole, hmarks⟩ := ih ms.length (by omega) hlexed₂ hsound.2.2 hnext₂ hlexed' hrest
            (List.cons.inj htext).2 rfl
          have hw : w.bare = semicolon.bare := Prod.ext hkind hvalue
          rw [supplied_of_lacks hlacks]
          exact ⟨congrArg₂ List.cons hbare.symm (congrArg₂ List.cons hw hwhole),
            congrArg (fun marks => false :: true :: marks) hmarks⟩

/-! ## The law -/

/-- The lenient text of a script are the tokens that remain. -/
theorem toLenient_eq {script : Text} (h : tokens script = .ok ts) :
    toLenient script = .ok (Token.join (remaining (marked [] ts))) := by
  rw [toLenient, h]
  rfl

/-- The canonical text of a script are its tokens, punctuated. -/
theorem toCanonical_eq {script : Text} (h : tokens script = .ok ts) :
    toCanonical script = .ok (punctuated .initial ts) := by
  rw [toCanonical, h]
  rfl

/-- If the canonical text of a script is shown as the script, its tokens can only be those of the
script and the added semicolons, and just the latter are left out. -/
theorem stable_of_shown (h : Lexed .initial ts)
    (hshown : toLenient (punctuated .initial ts) = .ok (Token.join ts)) :
    Lenient.redundant [] (whole (supplied .initial ts)) = (supplied .initial ts).map Prod.snd ∧
      sparesTemplates .initial false ts = true := by
  cases hus : tokens (punctuated .initial ts) with
  | error f =>
    rw [toLenient, hus] at hshown
    contradiction
  | ok us =>
    rw [toLenient_eq hus] at hshown
    obtain ⟨hlex, -⟩ := tokens_eq_ok.mp hus
    obtain ⟨hlexed, hjoin, -⟩ := lexed_of_lexFrom hlex
    -- Nothing is missing from the tokens of the canonical text.
    have hwhole : whole (marked [] us) = us := whole_marked [] us
    obtain ⟨hbare, hmarks⟩ : (whole (marked [] us)).map Token.bare
          = (whole (supplied .initial ts)).map Token.bare ∧
        (marked [] us).map Prod.snd = (supplied .initial ts).map Prod.snd :=
      supplied_of_eq (hwhole.symm ▸ hlexed) (sound_marked [] us) (Or.inl rfl) h
        (Except.ok.inj hshown).symm (hwhole.symm ▸ hjoin)
    rw [hwhole] at hbare
    rw [marks_marked, redundant_congr hbare] at hmarks
    exact ⟨hmarks, (hlexed.congr hbare).sparesTemplates⟩

/-- If no semicolon is added in the text of a template and just the added ones are left out, the
canonical text of a script is cut into its tokens and these semicolons, and is shown as the script.
-/
theorem shown_of_stable (h : Lexed .initial ts) (hbrackets : checkBrackets [] ts = .ok ())
    (hmarks : Lenient.redundant [] (whole (supplied .initial ts))
      = (supplied .initial ts).map Prod.snd)
    (hspares : sparesTemplates .initial false ts = true) :
    toLenient (punctuated .initial ts) = .ok (Token.join ts) := by
  have hlexed : Lexed .initial (whole (supplied .initial ts)) := h.supplied hspares (Or.inl rfl)
  have hus : tokens (punctuated .initial ts) = .ok (placed 0 (whole (supplied .initial ts))) := by
    refine tokens_eq_ok.mpr ⟨?_, ?_⟩
    · rw [lex, ← join_supplied]
      exact lexFrom_join hlexed 0
    · rw [← checkBrackets_supplied .initial] at hbrackets
      exact checkBrackets_congr (bare_placed 0 _).symm rfl hbrackets
  have hremaining :
      (remaining (marked [] (placed 0 (whole (supplied .initial ts))))).map Token.bare
        = (remaining (supplied .initial ts)).map Token.bare := by
    refine remaining_congr ?_ ?_
    · rw [whole_marked, bare_placed]
    · rw [marks_marked, redundant_congr (bare_placed 0 _), hmarks]
  rw [toLenient_eq hus, join_congr hremaining, remaining_supplied]

/-- A lenient script is the same when it is saved and shown again if and only if it is stable. -/
theorem normalize_eq_iff {lenient : Text} :
    normalize lenient = .ok lenient ↔ isStable lenient = true := by
  cases htokens : tokens lenient with
  | error f =>
    rw [normalize, toCanonical, isStable, htokens]
    exact iff_of_false (fun h => by contradiction) (fun h => by contradiction)
  | ok ts =>
    obtain ⟨hlex, hbrackets⟩ := tokens_eq_ok.mp htokens
    obtain ⟨hlexed, hjoin, -⟩ := lexed_of_lexFrom hlex
    have hmatches : Matches .initial [] := .nil
    have hall : (Lenient.redundant [] ts).all (! ·) = true ↔
        ∀ mark ∈ Lenient.redundant [] ts, mark = false := by
      simp only [List.all_eq_true, Bool.not_eq_true']
    rw [isStable, htokens, normalize, toCanonical_eq htokens, Bool.and_eq_true, hall,
      ← redundant_supplied hmatches, ← hjoin]
    exact ⟨stable_of_shown hlexed,
      fun hstable => shown_of_stable hlexed hbrackets hstable.1 hstable.2⟩

/-- Of two semicolons in a row only the last one is left out, and the other one when the script is
shown again. -/
example : isStable (Text.ofString "1;\n") = false := by decide +kernel

/-- Showing, saving and showing a script again gives what showing it once does if and only if the
script that is shown is stable. -/
theorem toLenient_toCanonical_toLenient_iff {script lenient : Text}
    (h : toLenient script = .ok lenient) :
    (do toLenient (← toCanonical (← toLenient script))) = toLenient script ↔
      isStable lenient = true := by
  rw [← normalize_eq_iff, h]
  rfl

/-- A template on one line, a semicolon that comes back and one that keeps the next line apart. -/
theorem toLenient_toCanonical_toLenient_hazard :
    toLenient (Text.ofString "`1`;\n2;\n(3)\n") = .ok (Text.ofString "`1`\n2;\n(3)\n") ∧
      isStable (Text.ofString "`1`\n2;\n(3)\n") = true ∧
      (do toLenient (← toCanonical (← toLenient (Text.ofString "`1`;\n2;\n(3)\n"))))
        = toLenient (Text.ofString "`1`;\n2;\n(3)\n") := by
  have hlenient : toLenient (Text.ofString "`1`;\n2;\n(3)\n")
      = .ok (Text.ofString "`1`\n2;\n(3)\n") := eq_ok_of_toOption (by decide +kernel)
  have hstable : isStable (Text.ofString "`1`\n2;\n(3)\n") = true := by decide +kernel
  exact ⟨hlenient, hstable, (toLenient_toCanonical_toLenient_iff hlenient).mpr hstable⟩

/-- The line break in front of an interpolation is taken for the end of a line of code, so that a
semicolon is added in the text of the template and stays there. -/
theorem not_toLenient_toCanonical_toLenient_template :
    toLenient (Text.ofString "`\n$\x7b1\x7d`;\n") = .ok (Text.ofString "`\n$\x7b1\x7d`\n") ∧
      toCanonical (Text.ofString "`\n$\x7b1\x7d`\n")
        = .ok (Text.ofString "`;\n$\x7b1\x7d`;\n") ∧
      toLenient (Text.ofString "`;\n$\x7b1\x7d`;\n")
        = .ok (Text.ofString "`;\n$\x7b1\x7d`\n") ∧
      (do toLenient (← toCanonical (← toLenient (Text.ofString "`\n$\x7b1\x7d`;\n"))))
        ≠ toLenient (Text.ofString "`\n$\x7b1\x7d`;\n") := by
  have hlenient : toLenient (Text.ofString "`\n$\x7b1\x7d`;\n")
      = .ok (Text.ofString "`\n$\x7b1\x7d`\n") := eq_ok_of_toOption (by decide +kernel)
  have hsaved : toCanonical (Text.ofString "`\n$\x7b1\x7d`\n")
      = .ok (Text.ofString "`;\n$\x7b1\x7d`;\n") := eq_ok_of_toOption (by decide +kernel)
  have hshown : toLenient (Text.ofString "`;\n$\x7b1\x7d`;\n")
      = .ok (Text.ofString "`;\n$\x7b1\x7d`\n") := eq_ok_of_toOption (by decide +kernel)
  refine ⟨hlenient, hsaved, hshown, fun heq => ?_⟩
  rw [hlenient] at heq
  have hagain : normalize (Text.ofString "`\n$\x7b1\x7d`\n")
      = .ok (Text.ofString "`\n$\x7b1\x7d`\n") := heq
  rw [normalize, hsaved] at hagain
  have htext := Except.ok.inj (hshown.symm.trans hagain)
  revert htext
  decide

end Dialects.Script
