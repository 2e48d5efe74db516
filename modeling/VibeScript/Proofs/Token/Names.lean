import VibeScript.Proofs.Text.Words
import VibeScript.Proofs.Token.Neighbours
import VibeScript.Proofs.Token.Places

/-!
Names under a cursor.

The tokenizer and a cursor cut names from a line by rules of their own.  A cursor on a name finds
it exactly if the name stands alone on its line (`name_found_iff`): what a cursor takes for a word
goes on over digits and marks that belong to other tokens, and stops at numerals that are no decimal
digits.
-/

namespace VibeScript

/-- A name on a line that no other word character touches, and that holds only word characters. -/
structure StandsAlone (left name after : Text) : Prop where
  numerals : ∀ c ∈ name, c.isNumeric = true → c.isLetter = true ∨ c.isDecimal = true
  /-- A number ends in a digit, and operators such as `!` are marks. -/
  before : ∀ c ∈ left.getLast?, c.isWordChar = true → c.isDigit = false ∧ ¬ c.IsMark
  /-- In front of an equals sign a mark belongs to an operator such as `!=`. -/
  operator : ∀ c ∈ after.head?, c.IsMark → after.tail.head? ≠ some CodePoint.equalsSign
  /-- Behind a mark of its own another token can begin. -/
  behind : (∃ c ∈ name.getLast?, c.IsMark) → ∀ c ∈ after.head?, c.isWordChar = false

/-- The line of a name or a reserved word, and what it touches there. -/
theorem exists_line_of_word {source : Text} {token : Token} (htoken : token ∈ tokenize source)
    (hword : token.kind.isWord = true) :
    ∃ left after, source.lines[token.pos.line - 1]? = some (left ++ token.kind.value ++ after) ∧
      left.length + 1 = token.pos.column ∧ 1 ≤ token.pos.line ∧ token.kind.value ≠ [] ∧
      NameNeighbours left token.kind.value after := by
  obtain ⟨before, behind, hsource, hpos, hne, hneighbours⟩ := exists_place_of_word htoken hword
  obtain ⟨left, hsuffix, hline, hcolumn, hpositive⟩ :=
    Position.getElem?_lines_advanceBy before (token.kind.value ++ behind)
  have hname : ∀ c ∈ token.kind.value, decide (c ≠ CodePoint.newline) = true := by
    intro c hc
    have hchar := isNameChar_of_mem_word htoken hword c hc
    refine decide_eq_true fun hnewline => ?_
    rw [hnewline] at hchar
    exact absurd hchar (by decide +kernel)
  rw [List.takeWhile_append_of_pos hname, ← hsource, ← hpos, ← List.append_assoc] at hline
  rw [← hpos] at hcolumn hpositive
  refine ⟨left, _, hline, hcolumn, hpositive, hne, fun c hc => ?_, fun c hc hchar => ?_⟩
  · obtain ⟨front, rfl⟩ := hsuffix
    refine hneighbours.before c ?_
    rw [List.getLast?_append, Option.mem_def.mp hc, Option.some_or]
    rfl
  · cases behind with
    | nil => cases hc
    | cons d more =>
        by_cases hd : d = CodePoint.newline
        · simp [hd] at hc
        · have hkeep : (d :: more).takeWhile (· ≠ CodePoint.newline) =
              d :: more.takeWhile (· ≠ CodePoint.newline) :=
            List.takeWhile_cons_of_pos (by simpa using hd)
          rw [hkeep] at hc ⊢
          refine (hneighbours.behind c hc hchar).imp_left (And.imp_right fun hequals => ?_)
          obtain ⟨rest, rfl⟩ := List.head?_eq_some_iff.mp hequals
          rfl

/-- A word is a run of word characters on its line exactly if it stands alone there. -/
theorem wordRun_iff_standsAlone {left name after : Text} (hne : name ≠ [])
    (hname : ∀ c ∈ name, c.isNameChar = true) (hneighbours : NameNeighbours left name after) :
    WordRun left name after ↔ StandsAlone left name after := by
  have hmark {c : CodePoint} (hc : c.IsMark) : c.isWordChar = true :=
    CodePoint.isWordChar_iff.mpr (Or.inr (Or.inr hc))
  constructor
  · intro hrun
    refine ⟨fun c hc hnumeric => ?_, fun c hc hchar => ?_, fun c hc hm => ?_, fun _ => hrun.right⟩
    · have hchar := hrun.inside c hc
      simp only [CodePoint.isWordChar, Bool.or_eq_true, decide_eq_true_eq] at hchar
      rcases hchar with (((h | h) | rfl) | rfl) | rfl
      · exact Or.inl h
      · exact Or.inr h
      all_goals exact absurd hnumeric (by decide +kernel)
    · rw [hrun.left c hc] at hchar
      cases hchar
    · have hnot := hrun.right c hc
      rw [hmark hm] at hnot
      cases hnot
  · intro halone
    refine ⟨hne, fun c hc => ?_, fun c hc => ?_, fun c hc => ?_⟩
    · have hchar := hname c hc
      simp only [CodePoint.isNameChar, CodePoint.isIdentifierChar, Bool.or_eq_true,
        decide_eq_true_eq] at hchar
      simp only [CodePoint.isWordChar, Bool.or_eq_true, decide_eq_true_eq]
      have hnumerals := halone.numerals c hc
      grind
    · refine Bool.eq_false_iff.mpr fun hchar => ?_
      obtain ⟨hdigit, hm⟩ := halone.before c hc hchar
      rcases hneighbours.before c hc hchar with h | h
      · rw [hdigit] at h
        cases h
      · exact hm h
    · refine Bool.eq_false_iff.mpr fun hchar => ?_
      rcases hneighbours.behind c hc hchar with ⟨hm, hequals⟩ | hown
      · exact halone.operator c hc hm hequals
      · rw [halone.behind hown c hc] at hchar
        cases hchar

/-- A cursor within a part of a line finds it exactly if it is a run of word characters. -/
theorem wordAt?_finds_iff_wordRun {source left name after : Text} {line k : Nat}
    (hline : source.lines[line]? = some (left ++ name ++ after)) (hk : k ≤ name.length) :
    (∃ found, wordAt? source line
        ((left ++ name ++ after).indexToUtf16 ((left.length + k : Nat) : Int)) = some found ∧
        found.word = name ∧ found.start = left.length) ↔ WordRun left name after := by
  have hsplit : left ++ name ++ after = (left ++ name.take k) ++ (name.drop k ++ after) := by
    rw [List.append_assoc, List.append_assoc, ← List.append_assoc (name.take k),
      List.take_append_drop]
  have hoffset : (left ++ name ++ after).indexToUtf16 ((left.length + k : Nat) : Int) =
      (left ++ name.take k).utf16Length := by
    have hlength : left.length + k = (left ++ name.take k).length := by
      rw [List.length_append, List.length_take_of_le hk]
    rw [hsplit, hlength, Text.indexToUtf16_append]
  constructor
  · rintro ⟨found, hfound, hname, hstart⟩
    obtain ⟨_, before, word, behind, hrun, hword, rfl⟩ := exists_wordRun_of_wordAt? hfound
    rw [Int.toNat_natCast, hline, Option.some.injEq] at hrun
    obtain rfl : word = name := hname
    rw [List.append_assoc, List.append_assoc] at hrun
    obtain ⟨rfl, hrest⟩ := List.append_inj hrun hstart.symm
    rw [List.append_cancel_left hrest]
    exact hword
  · intro hrun
    refine ⟨_, hrun.wordAt?_eq (Int.natCast_nonneg line) hline ?_ ?_, rfl, rfl⟩
    · rw [hoffset, Text.utf16Length_append]
      omega
    · have hname := Text.utf16Length_append (name.take k) (name.drop k)
      rw [List.take_append_drop] at hname
      rw [hoffset, Text.utf16Length_append, Text.utf16Length_append]
      omega

/-- A cursor on a name or a reserved word finds that token, as it is and where it is, exactly if
the token stands alone on its line. -/
theorem name_found_iff {source : Text} {token : Token} (htoken : token ∈ tokenize source)
    (hword : token.kind.isWord = true) :
    ∃ left after, source.lines[token.pos.line - 1]? = some (left ++ token.kind.value ++ after) ∧
      left.length + 1 = token.pos.column ∧ 1 ≤ token.pos.line ∧
      ∀ k < token.kind.value.length,
        (∃ found, wordAt? source (token.pos.line - 1 : Nat)
            ((left ++ token.kind.value ++ after).indexToUtf16 (token.pos.column - 1 + k : Nat)) =
              some found ∧
          found.word = token.kind.value ∧ found.start = token.pos.column - 1) ↔
        StandsAlone left token.kind.value after := by
  obtain ⟨left, after, hline, hcolumn, hpositive, hne, hneighbours⟩ :=
    exists_line_of_word htoken hword
  refine ⟨left, after, hline, hcolumn, hpositive, fun k hk => ?_⟩
  have hstart : token.pos.column - 1 = left.length := by omega
  rw [hstart, wordAt?_finds_iff_wordRun hline (Nat.le_of_lt hk)]
  exact wordRun_iff_standsAlone hne (isNameChar_of_mem_word htoken hword) hneighbours

/-- A name behind an astral one, with a mark of its own and a bracket behind it. -/
theorem name_found_iff_astral :
    let source : Text := "end\n𝒜.b1?(x)"
    let token : Token := ⟨.ident "b1?", ⟨2, 3⟩⟩
    token ∈ tokenize source ∧ token.kind.isWord = true ∧
      ∃ found, wordAt? source 1 4 = some found ∧ found.word = text "b1?" ∧ found.start = 2 := by
  intro source token
  have htoken : token ∈ tokenize source := by decide +kernel
  obtain ⟨left, after, hline, hcolumn, _, hfound⟩ := name_found_iff htoken rfl
  have hsame : left ++ text "b1?" ++ after = text "𝒜." ++ text "b1?" ++ text "(x)" :=
    (Option.some.inj hline).symm
  rw [List.append_assoc, List.append_assoc] at hsame
  obtain ⟨rfl, hrest⟩ := List.append_inj hsame (Nat.succ.inj hcolumn)
  obtain rfl : after = text "(x)" := List.append_cancel_left hrest
  have halone : StandsAlone (text "𝒜.") (text "b1?") (text "(x)") :=
    ⟨by decide +kernel, by decide +kernel, by decide +kernel, by decide +kernel⟩
  exact ⟨htoken, rfl, (hfound 1 (by decide)).mpr halone⟩

/-- In front of an equals sign a mark is an operator, but a cursor takes it for the end of the
name. -/
theorem name_found_with_operator :
    (⟨.ident "x", ⟨1, 1⟩⟩ : Token) ∈ tokenize "x!=y" ∧
      wordAt? "x!=y" 0 0 = some ⟨"x!", 0, 2⟩ := by
  decide +kernel

end VibeScript
