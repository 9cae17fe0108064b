import Dialects.Proofs.Action
import Dialects.Proofs.Script.Brackets

/-!
# Scripts that are shown and saved

Showing a script in the lenient dialect leaves out the semicolons at the ends of lines, and saving
it puts them back. `toCanonical_toLenient_iff` says exactly when that gives the canonical text of
the script again: when every semicolon that is left out stands directly behind a token behind which
the canonical dialect adds one. An empty statement is one that is lost.
-/

namespace Dialects.Script

open Canonical (Context)

variable {ms : List (Token × Bool)}

/-- Whether saving the script as it is shown puts back all its semicolons. -/
def isRestorable (script : Text) : Bool :=
  match tokens script with
  | .ok ts => restores .initial (marked [] ts)
  | .error _ => false

/-! ## The round trip -/

/-- Saving a script that is shown in the lenient dialect gives its canonical text if and only if all
its semicolons are put back. -/
theorem toCanonical_toLenient_iff {script lenient : Text} (h : toLenient script = .ok lenient) :
    toCanonical lenient = toCanonical script ↔ isRestorable script = true := by
  cases htokens : tokens script with
  | error f =>
    rw [toLenient, htokens] at h
    contradiction
  | ok ts =>
    obtain ⟨hlex, hbrackets⟩ := tokens_eq_ok.mp htokens
    have hwhole : whole (marked [] ts) = ts := whole_marked [] ts
    have hsound : Sound (marked [] ts) := sound_marked [] ts
    obtain ⟨hlexed, -, hplaced⟩ := lexed_of_lexFrom hlex
    rw [← hwhole] at hlexed hbrackets
    have hlenient : Token.join (remaining (marked [] ts)) = lenient := by
      rw [toLenient, htokens] at h
      exact Except.ok.inj h
    have hcanonical : toCanonical script = .ok (punctuated .initial (whole (marked [] ts))) := by
      rw [toCanonical, htokens, hwhole]
      rfl
    have halike (us : List Token) : Alike .initial .initial (whole (marked [] ts)) us :=
      ⟨rfl, rfl, rfl, Or.inl rfl⟩
    rw [isRestorable, htokens, hcanonical]
    constructor
    · -- The lenient text is lexed as the tokens that are left, each of which answers one of the
      -- script.
      intro htext
      cases hus : tokens lenient with
      | error f =>
        rw [toCanonical, hus] at htext
        contradiction
      | ok us =>
        rw [toCanonical, hus] at htext
        obtain ⟨hlexu, -⟩ := tokens_eq_ok.mp hus
        obtain ⟨hlexedu, hjoin, hplacedu⟩ := lexed_of_lexFrom hlexu
        have hanswered : Answered .initial (marked [] ts) .initial us :=
          answered_of_eq hlexed hsound (Or.inl rfl) hlexedu (hjoin.trans hlenient.symm)
            (Except.ok.inj htext).symm
        exact hanswered.restores_eq hsound (halike us) (hwhole.symm ▸ hplaced) hplacedu
    · -- What is put back makes the tokens that are left the tokens of the lenient text.
      intro hrestores
      have hrest : Lexed .initial (remaining (marked [] ts)) :=
        hlexed.remaining hsound (fit_of_restores hrestores) (Or.inl rfl)
      have hlexu : lex lenient = .ok (placed 0 (remaining (marked [] ts))) := by
        rw [lex, ← hlenient]
        exact lexFrom_join hrest 0
      have hus : tokens lenient = .ok (placed 0 (remaining (marked [] ts))) :=
        tokens_eq_ok.mpr ⟨hlexu, checkBrackets_remaining hsound rfl hbrackets 0⟩
      have hanswered : Answered .initial (marked [] ts) .initial
          (placed 0 (remaining (marked [] ts))) :=
        answered_of_restores hrestores hsound (halike _) (hwhole.symm ▸ hplaced)
      rw [toCanonical, hus]
      exact congrArg Except.ok (hanswered.punctuated_eq hsound).symm

/-- One semicolon ends its line and comes back; the other one keeps the next line apart. -/
theorem toCanonical_toLenient_hazard :
    toLenient (Text.ofString "1;\n2;\n(3)\n") = .ok (Text.ofString "1\n2;\n(3)\n") ∧
      isRestorable (Text.ofString "1;\n2;\n(3)\n") = true ∧
      toCanonical (Text.ofString "1\n2;\n(3)\n") = toCanonical (Text.ofString "1;\n2;\n(3)\n") := by
  have hlenient : toLenient (Text.ofString "1;\n2;\n(3)\n")
      = .ok (Text.ofString "1\n2;\n(3)\n") := eq_ok_of_toOption (by decide +kernel)
  have hrestorable : isRestorable (Text.ofString "1;\n2;\n(3)\n") = true := by decide +kernel
  exact ⟨hlenient, hrestorable, (toCanonical_toLenient_iff hlenient).mpr hrestorable⟩

/-- The empty body of a loop is lost: what comes next is its body when the script is saved. -/
theorem not_toCanonical_toLenient_loop :
    toLenient (Text.ofString "while(1);\n2;\n") = .ok (Text.ofString "while(1)\n2\n") ∧
      toCanonical (Text.ofString "while(1)\n2\n") = .ok (Text.ofString "while(1)\n2;\n") ∧
      toCanonical (Text.ofString "while(1);\n2;\n") = .ok (Text.ofString "while(1);\n2;\n") ∧
      toCanonical (Text.ofString "while(1)\n2\n")
        ≠ toCanonical (Text.ofString "while(1);\n2;\n") := by
  have hlenient : toLenient (Text.ofString "while(1);\n2;\n")
      = .ok (Text.ofString "while(1)\n2\n") := eq_ok_of_toOption (by decide +kernel)
  have hsaved : toCanonical (Text.ofString "while(1)\n2\n")
      = .ok (Text.ofString "while(1)\n2;\n") := eq_ok_of_toOption (by decide +kernel)
  have hscript : toCanonical (Text.ofString "while(1);\n2;\n")
      = .ok (Text.ofString "while(1);\n2;\n") := eq_ok_of_toOption (by decide +kernel)
  refine ⟨hlenient, hsaved, hscript, fun heq => ?_⟩
  rw [hsaved, hscript] at heq
  have htext := Except.ok.inj heq
  revert htext
  decide

end Dialects.Script
