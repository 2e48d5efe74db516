import VibeScript.Proofs.Check.Stack
import VibeScript.Proofs.Diagnostic.Frames
import VibeScript.Proofs.Token.Spans

/-!
Where the caret under an error stands.

An error stands at the token that shows it, and the stretch of that token begins at the offset that
the position of the error has among the lines of the source (`Position.offsetIn_advanceBy`).  So the
caret of the code frame stands under the first character of the token (`caret_points_at_token`).
-/

namespace VibeScript

section Places

variable {source : Text}

/-- Where a token stands on its line: the mark of the end behind it, and any other one at its first
character, if this is on a line at all. -/
theorem exists_line_of_mem_tokenize {token : Token} (htoken : token ∈ tokenize source) :
    ∃ lineText, source.lines[token.pos.line - 1]? = some lineText ∧
      (token.kind = .eof → token.pos.offsetIn source = source.length ∧
        token.pos.column = lineText.length + 1) ∧
      (token.kind ≠ .eof → ∃ (span : Span) (c : CodePoint) (rest : Text),
        span.Marks source token ∧ source[span.start]? = some c ∧
        token.pos.offsetIn source = span.start ∧ (lexeme c rest).token? = some token.kind ∧
        (c ≠ CodePoint.newline → lineText[token.pos.column - 1]? = some c)) := by
  obtain ⟨before, after, hlexed, hpos, hlexeme⟩ := exists_lexed_of_mem_tokensFrom htoken
  obtain ⟨left, _, hline, hcolumn, _⟩ := Position.getElem?_lines_advanceBy before after
  have hoffset := Position.offsetIn_advanceBy before after
  rw [hlexed.append_eq, ← hpos] at hline hoffset
  rw [← hpos] at hcolumn
  refine ⟨_, hline, ?_, ?_⟩
  · intro heof
    rcases hlexeme with ⟨_, rfl⟩ | ⟨c, rest, _, hkind⟩
    · rw [← hlexed.append_eq, List.append_nil] at hoffset ⊢
      refine ⟨hoffset, ?_⟩
      rw [← hcolumn, List.takeWhile_nil, List.append_nil]
    · rw [heof] at hkind
      exact absurd hkind (lexeme_token?_ne_eof c rest)
  · intro hne
    obtain ⟨c, rest, rfl, hkind⟩ := hlexeme.resolve_left fun heof => hne heof.1
    have hmarks := Span.marks_of_lexeme before hkind
    rw [hlexed.append_eq, ← hpos] at hmarks
    refine ⟨_, c, rest, hmarks, ?_, hoffset, hkind, ?_⟩
    · rw [← hlexed.append_eq, List.getElem?_append_right (Nat.le_refl _), Nat.sub_self]
      rfl
    · intro hc
      have hindex : token.pos.column - 1 = left.length := by omega
      rw [hindex, List.getElem?_append_right (Nat.le_refl _), Nat.sub_self,
        List.takeWhile_cons_of_pos (by simpa using hc)]
      rfl

/-- An error is printed with a code frame of its line, and its own column needs no correction. -/
theorem pointsAt_frame {e : SyntaxError} {lineText : Text} (he : e ∈ (check source).errors)
    (hlineText : source.lines[e.pos.line - 1]? = some lineText) :
    PointsAt (e.frame source) lineText e.pos.line e.pos.column ∧
      (e.locate source).text = "parse error at " ++ decimal e.pos.line ++ ":" ++
        decimal e.pos.column ++ ": " ++ e.fault.message ++ "\n" ++ e.frame source := by
  obtain ⟨shown, hshown, hbound, hline, hcolumn⟩ := (pos_liesIn_of_mem_errors he).exists_line
  obtain rfl : shown = lineText := Option.some.inj (hshown.symm.trans hlineText)
  have hnearest : nearestColumn shown e.pos.column = e.pos.column := by
    rw [nearestColumn]
    omega
  obtain ⟨frame, hframe, hpoints⟩ :=
    exists_pointsAt (ne_nil_of_mem_errors he) hline hlineText e.pos.column
  rw [hnearest] at hpoints
  have hprinted : e.frame source = frame := by rw [SyntaxError.frame, hframe, Option.getD_some]
  rw [hprinted]
  refine ⟨hpoints, ?_⟩
  have hlocated : codeFrame? (e.locate source).source (e.locate source).line
      (e.locate source).column = some frame := hframe
  rw [LocatedError.text, hlocated]
  rfl

end Places

/-- The caret under an error stands under the first character of the token that shows it, or behind
the last line at the end of the source.  The code frame has three lines: the position of the error
as it is, its line as it is, and the caret.  Of any line of a source that is not empty there is such
a frame, with the caret under the column that is nearest to the one asked for. -/
theorem caret_points_at_token (source : Text) :
    (∀ e ∈ (check source).errors, ∃ lineText before token after,
      source.lines[e.pos.line - 1]? = some lineText ∧
      (e.locate source).text = "parse error at " ++ decimal e.pos.line ++ ":" ++
        decimal e.pos.column ++ ": " ++ e.fault.message ++ "\n" ++ e.frame source ∧
      e.frame source ≠ [] ∧ PointsAt (e.frame source) lineText e.pos.line e.pos.column ∧
      tokenize source = before ++ token :: after ∧ e.pos = token.pos ∧
      e.fault ∈ (checkToken before.getLast? (stackAfter none [] before) token).2 ∧
      (token.kind = .eof → e.pos.offsetIn source = source.length ∧
        e.pos.column = lineText.length + 1) ∧
      (token.kind ≠ .eof → ∃ (span : Span) (c : CodePoint), span.Marks source token ∧
        source[span.start]? = some c ∧ e.pos.offsetIn source = span.start ∧
        lineText[e.pos.column - 1]? = some c)) ∧
    (source ≠ [] → ∀ line column : Int, 1 ≤ line → line ≤ source.lines.length →
      ∃ frame lineText, codeFrame? source line column = some frame ∧
        source.lines[line.toNat - 1]? = some lineText ∧
        PointsAt frame lineText line.toNat
          (max 1 (min column (lineText.length + 1))).toNat) := by
  constructor
  · intro e he
    obtain ⟨before, token, after, htokens, hpos, hfault⟩ := exists_split_of_mem_errors he
    have htoken : token ∈ tokenize source := by
      rw [htokens]
      exact List.mem_append_right before List.mem_cons_self
    obtain ⟨lineText, hline, hend, hstart⟩ := exists_line_of_mem_tokenize htoken
    rw [← hpos] at hline hend hstart
    obtain ⟨hpoints, htext⟩ := pointsAt_frame he hline
    rw [Option.or_none] at hfault
    refine ⟨lineText, before, token, after, hline, htext, hpoints.ne_nil, hpoints, htokens, hpos,
      hfault, hend, ?_⟩
    intro hne
    obtain ⟨span, c, rest, hmarks, hc, hoffset, hlexeme, hshown⟩ := hstart hne
    exact ⟨span, c, hmarks, hc, hoffset, hshown (ne_newline_of_fault hlexeme hfault)⟩
  · intro hsource line column hpositive hlast
    obtain ⟨number, rfl⟩ := Int.eq_ofNat_of_zero_le (Int.le_trans Int.one_nonneg hpositive)
    have hindex : number - 1 < source.lines.length := by omega
    obtain ⟨frame, hframe, hpoints⟩ := exists_pointsAt hsource (Int.ofNat_le.mp hpositive)
      (List.getElem?_eq_getElem hindex) column
    exact ⟨frame, _, hframe, List.getElem?_eq_getElem hindex, hpoints⟩

/-- The error of a bracket that is left open in front of a string without an end, and a column far
behind its line. -/
theorem caret_points_at_token_end :
    let source : Text := "(x\n\"a\\\nb"
    let e : SyntaxError := ⟨.unclosed ⟨.delimiter .paren, 1⟩, ⟨3, 2⟩⟩
    e ∈ (check source).errors ∧ PointsAt (e.frame source) "b" 3 2 ∧
      ∃ frame, codeFrame? source 1 10 = some frame ∧ PointsAt frame "(x" 1 3 := by
  intro source e
  have he : e ∈ (check source).errors := by decide +kernel
  obtain ⟨herrors, hlines⟩ := caret_points_at_token source
  obtain ⟨lineText, _, _, _, hline, _, _, hpoints, _⟩ := herrors e he
  obtain ⟨frame, first, hframe, hfirst, hfar⟩ :=
    hlines (by decide) 1 10 (by decide) (by decide +kernel)
  have hlast : some (text "b") = some lineText := Eq.trans (by decide +kernel) hline
  have hopened : some (text "(x") = some first := Eq.trans (by decide +kernel) hfirst
  obtain rfl := Option.some.inj hlast
  obtain rfl := Option.some.inj hopened
  exact ⟨he, hpoints, frame, hframe, hfar⟩

end VibeScript
