import VibeScript.Proofs.Diagnostic.Reports
import VibeScript.Proofs.Text.Units
import VibeScript.Proofs.Token.Spelling

/-!
What the range of a diagnostic covers.

A diagnostic is one UTF-16 code unit wide.  It covers the character at which the error stands,
unless that is a stray character outside the basic plane: then it ends between the two halves of a
surrogate pair (`diagnostic_covers_character_iff`).
-/

namespace VibeScript

namespace Text

/-- An offset of a line, in UTF-16 code units, that no character lies across. -/
def IsBoundary (t : Text) (offset : Nat) : Prop :=
  ∃ front back, t = front ++ back ∧ offset = front.utf16Length

variable {t : Text} {index : Nat} {c : CodePoint}

/-- A character of a line begins where the units in front of it end. -/
theorem exists_split_of_getElem? (h : t[index]? = some c) :
    ∃ front back, t = front ++ c :: back ∧ front.length = index := by
  obtain ⟨hindex, rfl⟩ := List.getElem?_eq_some_iff.mp h
  refine ⟨t.take index, t.drop (index + 1), ?_, List.length_take_of_le (Nat.le_of_lt hindex)⟩
  rw [← List.drop_eq_getElem_cons hindex, List.take_append_drop]

/-- Behind a character the offset is larger by its width. -/
theorem indexToUtf16_succ (h : t[index]? = some c) :
    t.indexToUtf16 (index + 1 : Nat) = t.indexToUtf16 index + c.utf16Width := by
  obtain ⟨hindex, rfl⟩ := List.getElem?_eq_some_iff.mp h
  rw [indexToUtf16_natCast, indexToUtf16_natCast, utf16Length_take_succ hindex]

theorem isBoundary_indexToUtf16 (t : Text) (index : Int) : t.IsBoundary (t.indexToUtf16 index) := by
  unfold indexToUtf16 upTo
  split
  · exact ⟨_, _, (List.take_append_drop _ t).symm, rfl⟩
  · exact ⟨_, _, (List.take_append_drop _ t).symm, rfl⟩

/-- The unit behind the start of a character ends it, or it lies between two halves. -/
theorem isBoundary_succ_iff (h : t[index]? = some c) :
    t.IsBoundary (t.indexToUtf16 index + 1) ↔ c.utf16Width = 1 := by
  constructor
  · rintro ⟨s, u, hsplit, hoffset⟩
    obtain ⟨front, back, rfl, rfl⟩ := exists_split_of_getElem? h
    rw [indexToUtf16_append] at hoffset
    rcases List.append_eq_append_iff.mp hsplit with ⟨more, rfl, hmore⟩ | ⟨more, rfl, _⟩
    · rw [utf16Length_append] at hoffset
      cases more with
      | nil => simp at hoffset
      | cons d more =>
          obtain ⟨rfl, _⟩ := List.cons.inj hmore
          have hpositive := c.utf16Width_pos
          rw [utf16Length_cons] at hoffset
          omega
    · rw [utf16Length_append] at hoffset
      omega
  · intro hwidth
    rw [← hwidth, ← indexToUtf16_succ h]
    exact isBoundary_indexToUtf16 t _

end Text

/-- A stray character outside the basic plane. -/
def SyntaxError.IsAstral (e : SyntaxError) : Prop :=
  ∃ c, e.fault = .illegal (.unexpectedCharacter c) ∧ 0xFFFF < c.val

section Places

variable {content lineText : Text} {e : SyntaxError} {c : CodePoint}

/-- The character at which an error stands begins the lexeme of the token that shows it. -/
theorem exists_lexeme_of_mem_errors (he : e ∈ (check content).errors)
    (hline : content.lines[e.pos.line - 1]? = some lineText)
    (hc : lineText[e.pos.column - 1]? = some c) :
    ∃ token rest, (lexeme c rest).token? = some token.kind ∧
      ∃ prev stack, e.fault ∈ (checkToken prev stack token).2 := by
  obtain ⟨token, htoken, hpos, hshown⟩ := exists_token_of_mem_errors he
  obtain ⟨before, after, hlexed, hplace, hlexeme⟩ := exists_lexed_of_mem_tokensFrom htoken
  obtain ⟨left, _, hhere, hcolumn, _⟩ := Position.getElem?_lines_advanceBy before after
  rw [hlexed.append_eq, ← hplace, ← hpos, hline, Option.some.injEq] at hhere
  rw [← hplace, ← hpos] at hcolumn
  have hindex : e.pos.column - 1 = left.length := by omega
  rw [hhere, hindex, List.getElem?_append_right (Nat.le_refl _), Nat.sub_self,
    ← List.head?_eq_getElem?] at hc
  rcases hlexeme with ⟨_, rfl⟩ | ⟨d, rest, rfl, hkind⟩
  · cases hc
  · have hd : d = c := by
      by_cases hnewline : d = CodePoint.newline
      · simp [hnewline] at hc
      · simpa [hnewline] using hc
    exact ⟨token, rest, hd ▸ hkind, hshown⟩

/-- Outside the basic plane only stray characters show a fault. -/
theorem isAstral_iff (he : e ∈ (check content).errors)
    (hline : content.lines[e.pos.line - 1]? = some lineText)
    (hc : lineText[e.pos.column - 1]? = some c) : e.IsAstral ↔ 0xFFFF < c.val := by
  obtain ⟨token, rest, hlexeme, prev, stack, hfault⟩ := exists_lexeme_of_mem_errors he hline hc
  have hspelled := (lexeme_describes c rest).spelled _ hlexeme
  generalize rest.take (lexeme c rest).extra = more at hspelled
  generalize rest.drop (lexeme c rest).extra = after at hspelled
  constructor
  · rintro ⟨d, hd, hastral⟩
    rcases fault_cases hfault with ⟨problem, hkind, hproblem⟩ | ⟨_, hnot⟩
    · rw [hproblem, SyntaxFault.illegal.injEq] at hd
      rw [hkind, hd] at hspelled
      cases hspelled
      exact hastral
    · exact absurd hd (hnot _)
  · intro hastral
    rcases fault_cases hfault with ⟨problem, hkind, hproblem⟩ | ⟨hcloses, _⟩
    · rw [hkind] at hspelled
      cases hspelled with
      | unterminated _ => exact absurd hastral (by decide)
      | unexpected _ _ => exact ⟨c, hproblem, hastral⟩
    · rcases hcloses with hkind | ⟨d, hkind⟩ | hkind
      · rw [hkind] at hspelled
        cases hspelled
        exact absurd hastral (by decide)
      · rw [hkind] at hspelled
        cases hspelled
        exact absurd hastral (by cases d <;> decide)
      · rw [hkind] at hlexeme
        exact absurd hlexeme (lexeme_token?_ne_eof c rest)

/-- Whenever there are diagnostics of a source, those of its errors are among them. -/
theorem diagnostic_mem_of_diagnose {source : Text} {diagnostics : List Diagnostic}
    (he : e ∈ (check content).errors)
    (h : diagnose scriptCompiler defaultTemplate source content = .ok diagnostics) :
    e.diagnostic content source ∈ diagnostics := by
  have herrors : (check content).errors ≠ [] := List.ne_nil_of_mem he
  by_cases hread : ∀ m ∈ foundIn content, m.Readable
  · rw [diagnose_of_readable herrors hread] at h
    cases h
    exact List.mem_flatMap.mpr ⟨e, he, List.mem_cons_self⟩
  · obtain ⟨m, hm, hnot⟩ : ∃ m, m ∈ foundIn content ∧ ¬ m.Readable := by simpa using hread
    obtain ⟨failure, hfailure⟩ := diagnose_of_not_readable herrors hm hnot source
    rw [hfailure] at h
    cases h

/-- The diagnostic of an error at a character starts where the character does.  It ends where the
character does, and so not between the halves of a pair, exactly if the error is not about a stray
character outside the basic plane. -/
theorem diagnostic_covers_character_iff (he : e ∈ (check content).errors)
    (hline : content.lines[e.pos.line - 1]? = some lineText)
    (hc : lineText[e.pos.column - 1]? = some c) (source : Text) :
    let line := e.pos.line - 1
    let start := lineText.indexToUtf16 (e.pos.column - 1 : Nat)
    let diagnostic := e.diagnostic content source
    (FoundErrors.placed [e.reported]).diagnostics content source = [diagnostic] ∧
      (∀ diagnostics, diagnose scriptCompiler defaultTemplate source content = .ok diagnostics →
        diagnostic ∈ diagnostics) ∧
      diagnostic.toJson = diagnosticJson (rangeJson line start line (start + 1)) e.fault.message
        errorSeverity source ∧
      lineText.IsBoundary start ∧
      (start + 1 = lineText.indexToUtf16 e.pos.column ↔ ¬ e.IsAstral) ∧
      (lineText.IsBoundary (start + 1) ↔ ¬ e.IsAstral) := by
  intro line start diagnostic
  have hpos := pos_liesIn_of_mem_errors he
  obtain ⟨_, _, _, _, hcolumn⟩ := hpos.exists_line
  have hwidth : c.utf16Width = 1 ↔ ¬ e.IsAstral := by
    rw [isAstral_iff he hline hc, CodePoint.utf16Width]
    split <;> simp_all
  have hnext : lineText.indexToUtf16 e.pos.column = start + c.utf16Width := by
    have hsucc : e.pos.column - 1 + 1 = e.pos.column := Nat.sub_add_cancel hcolumn
    rw [← Text.indexToUtf16_succ hc, hsucc]
  have hplaced : (FoundErrors.placed [e.reported]).diagnostics content source =
      [e.reported.diagnostic content source] := rfl
  refine ⟨?_, fun _ => diagnostic_mem_of_diagnose he, ?_, ?_, ?_, ?_⟩
  · rw [hplaced, SyntaxError.diagnostic_reported hpos]
  · simp only [diagnostic, SyntaxError.diagnostic, lineText_of_getElem? hline]
    rfl
  · exact Text.isBoundary_indexToUtf16 lineText _
  · rw [hnext, Nat.add_left_cancel_iff, eq_comm, hwidth]
  · rw [← hwidth]
    exact Text.isBoundary_succ_iff hc

end Places

/-- A bracket behind an astral letter. -/
theorem diagnostic_covers_character_bracket :
    let e : SyntaxError := ⟨.unexpected (.delimiter .paren), ⟨2, 3⟩⟩
    e ∈ (check "x\n𝒜 )").errors ∧ (Text.lines "x\n𝒜 )")[1]? = some (text "𝒜 )") ∧
      (text "𝒜 )")[2]? = some (CodePoint.ofChar ')') ∧ ¬ e.IsAstral ∧
      (text "𝒜 )").indexToUtf16 2 + 1 = (text "𝒜 )").indexToUtf16 3 := by
  intro e
  have he : e ∈ (check "x\n𝒜 )").errors := by decide +kernel
  have hline : (Text.lines "x\n𝒜 )")[1]? = some (text "𝒜 )") := by decide +kernel
  have hc : (text "𝒜 )")[2]? = some (CodePoint.ofChar ')') := by decide
  have hastral : ¬ e.IsAstral := by
    rintro ⟨_, hfault, _⟩
    cases hfault
  obtain ⟨_, _, _, _, hnext, _⟩ := diagnostic_covers_character_iff he hline hc defaultSource
  exact ⟨he, hline, hc, hastral, hnext.mpr hastral⟩

/-- The diagnostic of a stray astral character ends between the two halves of its pair. -/
theorem diagnostic_splits_pair :
    (⟨.illegal (.unexpectedCharacter '😀'), ⟨1, 1⟩⟩ : SyntaxError) ∈ (check "😀").errors ∧
      ((diagnose scriptCompiler defaultTemplate defaultSource "😀").toOption =
        some [⟨0, 0, "unexpected character '😀'", defaultSource⟩]) ∧
      (Diagnostic.mk 0 0 "unexpected character '😀'" defaultSource).toJson =
        diagnosticJson (rangeJson 0 0 0 1) "unexpected character '😀'" errorSeverity
          defaultSource ∧
      (text "😀").indexToUtf16 1 = 2 ∧ ¬ (text "😀").IsBoundary 1 := by
  refine ⟨by decide +kernel, by decide +kernel, rfl, by decide, ?_⟩
  have hc : (text "😀")[0]? = some (CodePoint.ofChar '😀') := rfl
  intro hboundary
  exact absurd ((Text.isBoundary_succ_iff hc).mp hboundary) (by decide)

end VibeScript
