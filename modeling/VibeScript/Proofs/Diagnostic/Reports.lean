import VibeScript.Editor
import VibeScript.Proofs.Check.Definitions
import VibeScript.Proofs.Diagnostic.Frames

/-!
The diagnostics of a source with syntax errors.

They are those of the errors, each with whatever the line that it quotes seems to report
(`diagnose_of_readable`).  So they are those of the errors alone exactly if no quoted
line reads like an error.
-/

namespace VibeScript

/-- The diagnostic of a syntax error: one unit wide, at the UTF-16 offset of its
column. -/
def SyntaxError.diagnostic (e : SyntaxError) (content source : Text) : Diagnostic :=
  ⟨e.pos.line - 1, (e.lineText content).indexToUtf16 (e.pos.column - 1 : Nat),
    e.fault.message, source⟩

/-- The diagnostic of an error with a place in a document. -/
def PositionedError.diagnostic (e : PositionedError) (content source : Text) : Diagnostic :=
  ⟨e.line - 1, utf16Character content.lines (e.line - 1) (e.column - 1), e.message, source⟩

/-- The column of a syntax error is never past the end of its line, so its offset needs
no correction. -/
theorem SyntaxError.diagnostic_reported {e : SyntaxError} {content : Text}
    (hpos : e.pos.LiesIn content) (source : Text) :
    e.reported.diagnostic content source = e.diagnostic content source := by
  obtain ⟨lineText, hline, hcolumn, _, _⟩ := hpos.exists_line
  have hexcess : e.pos.column - 1 - lineText.length = 0 := by omega
  simp only [PositionedError.diagnostic, diagnostic, reported, SyntaxError.lineText,
    utf16Character, hline, Option.getD_some, hexcess, Nat.add_zero]

/-- What is found in the text of a failed compile of a source with syntax errors. -/
def foundIn (content : Text) : List TemplateMatch :=
  (check content).errors.flatMap fun e =>
    defaultWording.matchOf e.reported :: matchesIn defaultTemplate (e.lineText content)

theorem mem_foundIn_header {content : Text} {e : SyntaxError}
    (he : e ∈ (check content).errors) : defaultWording.matchOf e.reported ∈ foundIn content :=
  List.mem_flatMap.mpr ⟨e, he, List.mem_cons_self⟩

theorem scriptCompiler_of_errors {content : Text} (herrors : (check content).errors ≠ []) :
    scriptCompiler content =
      some (errorSummary ((check content).errors.map (·.locate content))) := by
  simp only [scriptCompiler, compile, if_pos herrors]
  rfl

theorem matchesIn_message {content : Text} :
    matchesIn defaultTemplate
        (errorSummary ((check content).errors.map (·.locate content))) =
      foundIn content :=
  matchesIn_errorSummary fun _ he => pos_liesIn_of_mem_errors he

theorem foundIn_ne_nil {content : Text} (herrors : (check content).errors ≠ []) :
    foundIn content ≠ [] := by
  obtain ⟨e, rest, hcons⟩ := List.exists_cons_of_ne_nil herrors
  simp [foundIn, hcons]

/-- The diagnostics of a source with syntax errors: for each error its own, and behind it
those that are found in the line that it quotes. -/
theorem diagnose_of_readable {content : Text} (herrors : (check content).errors ≠ [])
    (hread : ∀ m ∈ foundIn content, m.Readable) (source : Text) :
    diagnose scriptCompiler defaultTemplate source content =
      .ok ((check content).errors.flatMap fun e => e.diagnostic content source ::
        (matchesIn defaultTemplate (e.lineText content)).map
          fun m => m.reading.diagnostic content source) := by
  have hfound : findErrors defaultTemplate
      (errorSummary ((check content).errors.map (·.locate content))) =
        .ok (.placed ((foundIn content).map TemplateMatch.reading)) := by
    rw [findErrors_of_readable] <;> rw [matchesIn_message]
    · exact foundIn_ne_nil herrors
    · exact hread
  have hreports : ((foundIn content).map TemplateMatch.reading).map
      (fun e => e.diagnostic content source) =
        (check content).errors.flatMap fun e => e.diagnostic content source ::
          (matchesIn defaultTemplate (e.lineText content)).map
            fun m => m.reading.diagnostic content source := by
    rw [foundIn, List.map_map, List.map_flatMap, List.flatMap_def, List.flatMap_def]
    refine congrArg List.flatten (List.map_congr_left fun e he => ?_)
    rw [List.map_cons, Function.comp_apply, Wording.reading_matchOf,
      SyntaxError.diagnostic_reported (pos_liesIn_of_mem_errors he)]
    rfl
  rw [diagnose, scriptCompiler_of_errors herrors]
  simp only [hfound, Except.map]
  rw [← hreports]
  rfl

theorem diagnose_of_not_readable {content : Text} (herrors : (check content).errors ≠ [])
    {m : TemplateMatch} (hm : m ∈ foundIn content) (hread : ¬ m.Readable) (source : Text) :
    ∃ e, diagnose scriptCompiler defaultTemplate source content = .error e := by
  rw [← matchesIn_message] at hm
  obtain ⟨e, he⟩ := findErrors_of_not_readable hm hread
  refine ⟨e, ?_⟩
  rw [diagnose, scriptCompiler_of_errors herrors]
  simp only [he, Except.map]

/-- The message about a duplicate definition does not read like an error with a place. -/
theorem matchesIn_duplicate {source : Text} {definition : Definition}
    (h : definition ∈ (check source).definitions) :
    matchesIn defaultTemplate (CompileError.duplicate definition).message = [] := by
  have hname : CodePoint.colon ∉ definition.name := by
    intro hmem
    exact absurd (isNameChar_of_mem_definitions h _ hmem) (by decide +kernel)
  have hkind : CodePoint.colon ∉ definition.kind.name := by
    cases definition.kind <;> decide
  have hcolon : CodePoint.colon ∉ (CompileError.duplicate definition).message := by
    simp only [CompileError.message, List.mem_append, not_or]
    exact ⟨⟨⟨by decide, hkind⟩, by decide⟩, hname⟩
  rw [matchesIn_eq_nil_iff defaultTemplate_ne_nil]
  intro part hpart hspells
  exact hcolon (hpart.subset (hspells.char_mem (by decide)))

/-- A source without syntax errors always has diagnostics: none, or the one of a duplicate
definition. -/
theorem exists_diagnose_of_no_errors {content : Text} (herrors : (check content).errors = [])
    (source : Text) :
    ∃ diagnostics, diagnose scriptCompiler defaultTemplate source content = .ok diagnostics := by
  have hcompile : ¬ (check content).errors ≠ [] := by
    intro hne
    exact hne herrors
  cases hduplicate : firstDuplicate? [] (check content).definitions with
  | none =>
      refine ⟨[], ?_⟩
      simp only [diagnose, scriptCompiler, compile, if_neg hcompile, hduplicate]
  | some definition =>
      have hmatches := matchesIn_duplicate (firstDuplicate?_mem hduplicate)
      refine ⟨[⟨0, 0, (CompileError.duplicate definition).message, source⟩], ?_⟩
      simp only [diagnose, scriptCompiler, compile, if_neg hcompile, hduplicate, findErrors,
        hmatches]
      rfl

/-- A source whose errors can all be read back: no number in their positions, or in what
their lines seem to report, has too many digits. -/
def Diagnosable (content : Text) : Prop :=
  ∀ e ∈ (check content).errors,
    (decimal e.pos.line).length ≤ digitLimit ∧ (decimal e.pos.column).length ≤ digitLimit ∧
      ∀ m ∈ matchesIn defaultTemplate (e.lineText content), m.Readable

instance (content : Text) : Decidable (Diagnosable content) :=
  inferInstanceAs (Decidable (∀ e ∈ (check content).errors, _))

theorem diagnosable_iff_foundIn (content : Text) :
    Diagnosable content ↔ ∀ m ∈ foundIn content, m.Readable := by
  constructor
  · intro h m hm
    obtain ⟨e, he, hm⟩ := List.mem_flatMap.mp hm
    obtain ⟨hline, hcolumn, hquoted⟩ := h e he
    rcases List.mem_cons.mp hm with rfl | hm
    · exact (defaultWording.readable_matchOf_iff _).mpr ⟨hline, hcolumn⟩
    · exact hquoted m hm
  · intro h e he
    obtain ⟨hline, hcolumn⟩ :=
      (defaultWording.readable_matchOf_iff _).mp (h _ (mem_foundIn_header he))
    exact ⟨hline, hcolumn, fun m hm =>
      h m (List.mem_flatMap.mpr ⟨e, he, List.mem_cons_of_mem _ hm⟩)⟩

/-- There are diagnostics of a source exactly if its errors can be read back. -/
theorem exists_diagnose_iff (content source : Text) :
    (∃ diagnostics,
      diagnose scriptCompiler defaultTemplate source content = .ok diagnostics) ↔
        Diagnosable content := by
  by_cases herrors : (check content).errors = []
  · refine ⟨fun _ e he => ?_, fun _ => exists_diagnose_of_no_errors herrors source⟩
    rw [herrors] at he
    cases he
  · rw [diagnosable_iff_foundIn]
    constructor
    · rintro ⟨diagnostics, hok⟩ m hm
      by_cases hread : m.Readable
      · exact hread
      · obtain ⟨e, herror⟩ := diagnose_of_not_readable herrors hm hread source
        rw [hok] at herror
        cases herror
    · intro hread
      exact ⟨_, diagnose_of_readable herrors hread source⟩

/-- The diagnostic of a syntax error as the editor gets it. -/
def SyntaxError.diagnosticJson (e : SyntaxError) (content : Text) : Json :=
  let character := (e.lineText content).indexToUtf16 (e.pos.column - 1 : Nat)
  VibeScript.diagnosticJson
    (rangeJson (e.pos.line - 1 : Nat) character (e.pos.line - 1 : Nat) (character + 1))
    e.fault.message errorSeverity defaultSource

theorem SyntaxError.toJson_diagnostic (e : SyntaxError) (content : Text) :
    (e.diagnostic content defaultSource).toJson = e.diagnosticJson content := rfl

/-- At least one match is found for every error. -/
theorem length_le_length_found (content : Text) (errors : List SyntaxError) :
    errors.length ≤ (errors.flatMap fun e => defaultWording.matchOf e.reported ::
      matchesIn defaultTemplate (e.lineText content)).length := by
  induction errors with
  | nil => exact Nat.le_refl 0
  | cons e rest ih =>
      rw [List.flatMap_cons, List.length_append, List.length_cons, List.length_cons]
      omega

/-- As many matches as errors leave none for the quoted lines. -/
theorem matchesIn_quoted_eq_nil {content : Text} {errors : List SyntaxError}
    (hlength : (errors.flatMap fun e => defaultWording.matchOf e.reported ::
      matchesIn defaultTemplate (e.lineText content)).length = errors.length) {e : SyntaxError}
    (he : e ∈ errors) : matchesIn defaultTemplate (e.lineText content) = [] := by
  induction errors with
  | nil => cases he
  | cons first rest ih =>
      have hrest := length_le_length_found content rest
      rw [List.flatMap_cons, List.length_append, List.length_cons, List.length_cons] at hlength
      rcases List.mem_cons.mp he with rfl | he
      · exact List.eq_nil_of_length_eq_zero (by omega)
      · exact ih (by omega) he

/-- The diagnostics of a source are those of its syntax errors, each at its place,
exactly if no line with an error holds an instance of the error template and every
position is short enough to be read back.  Every error is on a line of the source. -/
theorem diagnose_eq_errors_iff (content : Text) (herrors : (check content).errors ≠ []) :
    (∀ e ∈ (check content).errors, ∃ lineText, content.lines[e.pos.line - 1]? = some lineText ∧
      e.lineText content = lineText ∧ e.pos.column ≤ lineText.length + 1) ∧
    ((diagnose scriptCompiler defaultTemplate defaultSource content).map
        (·.map Diagnostic.toJson) =
      .ok ((check content).errors.map (·.diagnosticJson content)) ↔
    ∀ e ∈ (check content).errors,
      (∀ part, part <:+: e.lineText content → ¬ defaultTemplate.Spells part) ∧
        (decimal e.pos.line).length ≤ digitLimit ∧
        (decimal e.pos.column).length ≤ digitLimit) := by
  have hquoted (e : SyntaxError) : matchesIn defaultTemplate (e.lineText content) = [] ↔
      ∀ part, part <:+: e.lineText content → ¬ defaultTemplate.Spells part :=
    matchesIn_eq_nil_iff defaultTemplate_ne_nil (e.lineText content)
  refine ⟨fun e he => ?_, ?_, ?_⟩
  · obtain ⟨lineText, hline, hcolumn, _, _⟩ := (pos_liesIn_of_mem_errors he).exists_line
    exact ⟨lineText, hline, by rw [SyntaxError.lineText, hline, Option.getD_some], hcolumn⟩
  · intro hdiagnose e he
    by_cases hread : ∀ m ∈ foundIn content, m.Readable
    · rw [diagnose_of_readable herrors hread] at hdiagnose
      have hlength : (foundIn content).length = (check content).errors.length := by
        have hlists := congrArg List.length (Except.ok.inj hdiagnose)
        rw [List.length_map, List.length_map, List.length_flatMap] at hlists
        rw [foundIn, List.length_flatMap, ← hlists]
        simp only [List.length_cons, List.length_map]
      exact ⟨(hquoted e).mp (matchesIn_quoted_eq_nil hlength he),
        (defaultWording.readable_matchOf_iff _).mp (hread _ (mem_foundIn_header he))⟩
    · obtain ⟨m, hm, hnot⟩ : ∃ m, m ∈ foundIn content ∧ ¬ m.Readable := by simpa using hread
      obtain ⟨failure, hfailure⟩ := diagnose_of_not_readable herrors hm hnot defaultSource
      rw [hfailure] at hdiagnose
      cases hdiagnose
  · intro hclean
    have hnone : ∀ e ∈ (check content).errors,
        matchesIn defaultTemplate (e.lineText content) = [] :=
      fun e he => (hquoted e).mpr (hclean e he).1
    have hread : ∀ m ∈ foundIn content, m.Readable := by
      intro m hm
      obtain ⟨e, he, hm⟩ := List.mem_flatMap.mp hm
      rw [hnone e he, List.mem_singleton] at hm
      rw [hm, defaultWording.readable_matchOf_iff]
      exact (hclean e he).2
    rw [diagnose_of_readable herrors hread, Except.map, List.map_flatMap, List.flatMap_def]
    have hone : ∀ e ∈ (check content).errors,
        ((e.diagnostic content defaultSource :: (matchesIn defaultTemplate
          (e.lineText content)).map fun m => m.reading.diagnostic content defaultSource).map
            Diagnostic.toJson) = [e.diagnosticJson content] := by
      intro e he
      rw [hnone e he, List.map_nil, List.map_cons, SyntaxError.toJson_diagnostic, List.map_nil]
    rw [List.map_congr_left hone, ← List.flatMap_def, List.map_eq_flatMap]

/-- Errors on a line that does not read like one: a bad character outside the basic plane,
and a delimiter behind it at the UTF-16 offset two. -/
theorem diagnose_eq_errors_astral : (check "😀)").errors ≠ [] ∧
    (diagnose scriptCompiler defaultTemplate defaultSource "😀)").map
        (·.map Diagnostic.toJson) =
      .ok ((check "😀)").errors.map (·.diagnosticJson "😀)")) := by
  have herrors : (check "😀)").errors ≠ [] := by decide +kernel
  have hclean : ∀ e ∈ (check "😀)").errors,
      matchesIn defaultTemplate (e.lineText "😀)") = [] ∧
        (decimal e.pos.line).length ≤ digitLimit ∧
        (decimal e.pos.column).length ≤ digitLimit := by
    decide +kernel
  exact ⟨herrors, (diagnose_eq_errors_iff "😀)" herrors).2.mpr fun e he =>
    ⟨(matchesIn_eq_nil_iff defaultTemplate_ne_nil _).mp (hclean e he).1,
      (hclean e he).2⟩⟩

/-- A line that reads like an error is reported once more. -/
theorem quoted_error_reported_twice :
    (check "parse error at 1:1: )").errors.map (·.pos.column) = [21] ∧
    (diagnose scriptCompiler defaultTemplate defaultSource "parse error at 1:1: )").toOption =
      some [⟨0, 20, "unexpected ')'", defaultSource⟩, ⟨0, 0, ")", defaultSource⟩] := by
  decide +kernel

end VibeScript
