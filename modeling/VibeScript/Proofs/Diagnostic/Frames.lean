import VibeScript.Proofs.Check.Errors
import VibeScript.Proofs.Diagnostic.CodeFrame
import VibeScript.Proofs.Diagnostic.Wording

/-!
What the search for errors finds in the text of a failed compile.

The text of an error is its wording and a code frame.  The wording is found again as a
whole, and in the frame only the quoted line of the source can hold a match
(`matchesIn_text_locate`).
-/

namespace VibeScript

/-- An error as its text reports it. -/
def SyntaxError.reported (e : SyntaxError) : PositionedError :=
  ⟨e.pos.line, e.pos.column, e.fault.message⟩

/-- The line of a source that an error is on. -/
def SyntaxError.lineText (e : SyntaxError) (source : Text) : Text :=
  (source.lines[e.pos.line - 1]?).getD []

/-- The lines of a code frame: where it is, the quoted line, and the caret. -/
theorem exists_codeFrame {source lineText : Text} (hsource : source ≠ []) {line : Nat}
    (hline : 1 ≤ line) (hlineText : source.lines[line - 1]? = some lineText)
    (column : Int) :
    ∃ place gutter caret : Text,
      codeFrame? source line column =
          some (place ++ CodePoint.newline :: (gutter ++ lineText ++
            CodePoint.newline :: caret)) ∧
        CodePoint.ofChar 'p' ∉ place ∧ CodePoint.ofChar 'p' ∉ gutter ∧
          CodePoint.ofChar 'p' ∉ caret := by
  refine ⟨framePlace line (nearestColumn lineText column), frameGutter line,
    frameIndent line (nearestColumn lineText column) ++ [CodePoint.ofChar '^'],
    codeFrame?_eq hsource hline hlineText column,
    not_mem_framePlace (by decide) (by decide) (by decide) line _,
    not_mem_frameGutter (by decide) (by decide) line, ?_⟩
  rw [List.mem_append, not_or]
  exact ⟨not_mem_frameIndent (by decide) line _, by decide⟩

/-- Only the quoted line of a code frame can hold a match. -/
theorem matchesIn_codeFrame {place gutter caret : Text} (lineText : Text)
    (hplace : CodePoint.ofChar 'p' ∉ place) (hgutter : CodePoint.ofChar 'p' ∉ gutter)
    (hcaret : CodePoint.ofChar 'p' ∉ caret) :
    matchesIn defaultTemplate (place ++ CodePoint.newline :: (gutter ++ lineText ++
      CodePoint.newline :: caret)) = matchesIn defaultTemplate lineText := by
  have hskip {s : Text} (hs : CodePoint.ofChar 'p' ∉ s) (t : Text) :
      matchesIn defaultTemplate (s ++ t) = matchesIn defaultTemplate t :=
    matchesIn_append_of_not_mem hs t
  have hnone {s : Text} (hs : CodePoint.ofChar 'p' ∉ s) : matchesIn defaultTemplate s = [] := by
    have h := hskip hs []
    rwa [List.append_nil, matchesIn] at h
  rw [matchesIn_append_newline defaultTemplate_oneLine,
    matchesIn_append_newline defaultTemplate_oneLine, hnone hplace, hskip hgutter,
    hnone hcaret, List.nil_append, List.append_nil]

theorem header_locate (e : SyntaxError) (source : Text) :
    "parse error at " ++ decimalInt (e.locate source).line ++ ":" ++
        decimalInt (e.locate source).column ++ ": " ++ (e.locate source).message =
      defaultWording.render e.reported := by
  simp only [Wording.render, List.append_assoc]
  rfl

/-- The code frame that is printed below an error, empty if there is none. -/
def SyntaxError.frame (e : SyntaxError) (source : Text) : Text :=
  (codeFrame? source e.pos.line e.pos.column).getD []

theorem lineText_of_getElem? {e : SyntaxError} {source lineText : Text}
    (h : source.lines[e.pos.line - 1]? = some lineText) : e.lineText source = lineText := by
  rw [SyntaxError.lineText, h, Option.getD_some]

/-- What the code frame of an error holds is what the line that it quotes holds. -/
theorem matchesIn_frame {e : SyntaxError} {source : Text} (hpos : e.pos.LiesIn source) :
    matchesIn defaultTemplate (e.frame source) =
      matchesIn defaultTemplate (e.lineText source) := by
  obtain ⟨lineText, hlineText, _, hline, _⟩ := hpos.exists_line
  rw [lineText_of_getElem? hlineText, SyntaxError.frame]
  by_cases hsource : source = []
  · subst hsource
    have hempty : lineText = [] := by
      have hmem := List.mem_of_getElem? hlineText
      rwa [Text.lines_nil, List.mem_singleton] at hmem
    rw [codeFrame?, if_pos (Or.inl rfl), hempty]
    rfl
  · obtain ⟨place, gutter, caret, hframe, hplace, hgutter, hcaret⟩ :=
      exists_codeFrame hsource hline hlineText e.pos.column
    rw [hframe, Option.getD_some, matchesIn_codeFrame lineText hplace hgutter hcaret]

/-- The search in the text of an error finds the error itself and then what its code frame
holds. -/
theorem matchesIn_text_frame (e : SyntaxError) (source : Text) :
    matchesIn defaultTemplate (e.locate source).text =
      defaultWording.matchOf e.reported :: matchesIn defaultTemplate (e.frame source) := by
  have hheader : matchesIn defaultTemplate (defaultWording.render e.reported) =
      [defaultWording.matchOf e.reported] :=
    Wording.matchesIn_render defaultWording_separated e.fault.message_ne_nil
      e.fault.newline_not_mem_message
  have hbreak : text "\n" = [CodePoint.newline] := rfl
  have hlocated : codeFrame? (e.locate source).source (e.locate source).line
      (e.locate source).column = codeFrame? source e.pos.line e.pos.column := rfl
  rw [LocatedError.text, header_locate, hlocated, SyntaxError.frame]
  cases codeFrame? source e.pos.line e.pos.column with
  | none =>
      rw [Option.getD_none, matchesIn]
      exact hheader
  | some frame =>
      simp only [hbreak, List.append_assoc, List.singleton_append, Option.getD_some]
      rw [matchesIn_append_newline defaultTemplate_oneLine, hheader, List.singleton_append]

/-- The search in the text of an error finds the error itself and then what the line
that it quotes holds. -/
theorem matchesIn_text_locate {e : SyntaxError} {source : Text}
    (hpos : e.pos.LiesIn source) :
    matchesIn defaultTemplate (e.locate source).text =
      defaultWording.matchOf e.reported :: matchesIn defaultTemplate (e.lineText source) := by
  rw [matchesIn_text_frame, matchesIn_frame hpos]

/-- What is found in the text of a source that does not compile: every error, and behind
it what the line that it quotes holds. -/
theorem matchesIn_errorSummary {errors : List SyntaxError} {source : Text}
    (hpos : ∀ e ∈ errors, e.pos.LiesIn source) :
    matchesIn defaultTemplate (errorSummary (errors.map (·.locate source))) =
      errors.flatMap fun e =>
        defaultWording.matchOf e.reported :: matchesIn defaultTemplate (e.lineText source) := by
  have hjoin := matchesIn_join defaultTemplate_oneLine 1
    ((errors.map (·.locate source)).map LocatedError.text)
  rw [List.flatMap_map, List.flatMap_map] at hjoin
  refine hjoin.trans ?_
  clear hjoin
  induction errors with
  | nil => rfl
  | cons e rest ih =>
      rw [List.flatMap_cons, List.flatMap_cons,
        matchesIn_text_locate (hpos e List.mem_cons_self),
        ih fun x hx => hpos x (List.mem_cons_of_mem e hx)]

end VibeScript
