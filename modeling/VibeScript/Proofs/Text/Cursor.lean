import VibeScript.Proofs.Text.Words

/-!
Which word a cursor finds.

An index of a line finds the run of word characters that it touches
(`wordOnLine?_eq_some_iff`).  A cursor behind the last character counts as being on that
character.  If the character belongs to no word, but the one before it does, the cursor finds
that word without touching it; in every other place it finds what it touches
(`wordAt?_finds_touched_iff`).
-/

namespace VibeScript

/-- The span of a run that an index touches: the index is that of a character of the run or
of the place right behind it. -/
def TouchesRun (lineText : Text) (index : Nat) (found : WordSpan) : Prop :=
  ∃ before word after, lineText = before ++ word ++ after ∧ WordRun before word after ∧
    found = WordRun.span before word ∧ found.start ≤ index ∧ index ≤ found.stop

/-- A line whose last character belongs to no word, right behind one that does. -/
def EndsBehindWord (lineText : Text) : Prop :=
  ∃ front c d, lineText = front ++ [c, d] ∧ c.isWordChar = true ∧ d.isWordChar = false

section

variable {lineText : Text} {index : Nat} {found : WordSpan}

theorem wordOnLine?_eq_some_iff :
    wordOnLine? lineText index = some found ↔ TouchesRun lineText index found := by
  constructor
  · intro h
    obtain ⟨before, word, after, hline, hrun, rfl, hstart, hstop⟩ :=
      exists_wordRun_of_wordOnLine? h
    exact ⟨before, word, after, hline, hrun, rfl, hstart, hstop⟩
  · rintro ⟨before, word, after, rfl, hrun, rfl, hstart, hstop⟩
    exact hrun.wordOnLine?_eq hstart hstop

/-- A cursor on a line looks at its index there, or at the last character if it is behind
it. -/
theorem wordAt?_of_line {source : Text} {line : Nat} (hline : source.lines[line]? = some lineText)
    (character : Int) :
    wordAt? source line character =
      wordOnLine? lineText (min (lineText.utf16ToIndex character) (lineText.length - 1)) := by
  rw [wordAt?, if_neg (by omega), Int.toNat_natCast, hline]
  cases lineText with
  | nil =>
      rw [List.length_nil, Nat.zero_sub, Nat.min_zero]
      rfl
  | cons c rest => rfl

/-- A run that the end of the line touches holds the last character. -/
theorem TouchesRun.last (h : TouchesRun lineText lineText.length found) :
    TouchesRun lineText (lineText.length - 1) found := by
  obtain ⟨before, word, after, hline, hrun, rfl, hstart, hstop⟩ := h
  have hword : 0 < word.length := List.length_pos_iff.mpr hrun.ne_nil
  have hlength : lineText.length = before.length + word.length + after.length := by
    rw [hline, List.length_append, List.length_append]
  refine ⟨before, word, after, hline, hrun, rfl, ?_, ?_⟩
  all_goals simp only [WordRun.span] at hstart hstop ⊢
  all_goals omega

/-- A run that the last character touches, but not the end of the line, ends right before that
character. -/
theorem endsBehindWord_of_touchesRun_last
    (h : TouchesRun lineText (lineText.length - 1) found)
    (hend : ¬ TouchesRun lineText lineText.length found) :
    EndsBehindWord lineText ∧ found.stop + 1 = lineText.length := by
  obtain ⟨before, word, after, hline, hrun, rfl, hstart, hstop⟩ := h
  have hlength : lineText.length = before.length + word.length + after.length := by
    rw [hline, List.length_append, List.length_append]
  have hshort : before.length + word.length < lineText.length := by
    refine Nat.lt_of_not_le fun hle => hend ⟨before, word, after, hline, hrun, rfl, ?_, hle⟩
    exact Nat.le_trans hstart (Nat.sub_le _ _)
  have hone : after.length = 1 := by
    simp only [WordRun.span] at hstop
    omega
  obtain ⟨d, rfl⟩ := List.length_eq_one_iff.mp hone
  obtain ⟨init, c, rfl⟩ : ∃ init c, word = init ++ [c] :=
    ⟨_, _, (List.dropLast_concat_getLast hrun.ne_nil).symm⟩
  refine ⟨⟨before ++ init, c, d, ?_, hrun.inside c (by simp), hrun.right d rfl⟩, ?_⟩
  · rw [hline]
    simp only [List.append_assoc, List.cons_append, List.nil_append]
  · rw [hlength, List.length_singleton]
    rfl

/-- The end of a line that ends behind a word touches no run, and its last character touches
that word. -/
theorem EndsBehindWord.exists_last (h : EndsBehindWord lineText) :
    (∃ found, TouchesRun lineText (lineText.length - 1) found) ∧
      ∀ found, ¬ TouchesRun lineText lineText.length found := by
  obtain ⟨front, c, d, rfl, hc, hd⟩ := h
  have hlast : (front ++ [c, d]).length - 1 = (front ++ [c]).length := by
    simp only [List.length_append, List.length_cons, List.length_nil]
    omega
  constructor
  · obtain ⟨before, word, after, heq, hrun, hstart, hstop⟩ := exists_wordRun_append front [d] hc
    refine ⟨WordRun.span before word, before, word, after, heq, hrun, rfl, ?_, ?_⟩
    all_goals simp only [WordRun.span, List.length_append, List.length_cons, List.length_nil]
    all_goals omega
  · rintro found ⟨before, word, after, heq, hrun, rfl, hstart, hstop⟩
    have hafter : after = [] := by
      have hlength := congrArg List.length heq
      simp only [WordRun.span, List.length_append] at hstop hlength
      exact List.eq_nil_of_length_eq_zero (by omega)
    obtain ⟨init, e, rfl⟩ : ∃ init e, word = init ++ [e] :=
      ⟨_, _, (List.dropLast_concat_getLast hrun.ne_nil).symm⟩
    have hsame : e = d := by
      have hget := congrArg List.getLast? heq
      simp [hafter] at hget
      exact hget.symm
    have he := hrun.inside e (by simp)
    rw [hsame, hd] at he
    cases he

end

/-- A cursor on a line finds the run of word characters that it touches, and nothing if it
touches none, exactly if it is not at the end of a line that ends behind a word.  There it
finds that word, which the last character of the line separates from it. -/
theorem wordAt?_finds_touched_iff {source lineText : Text} {line : Nat}
    (hline : source.lines[line]? = some lineText) (character : Int) :
    ((∀ found, wordAt? source line character = some found ↔
        TouchesRun lineText (lineText.utf16ToIndex character) found) ↔
      ¬ (lineText.utf16ToIndex character = lineText.length ∧ EndsBehindWord lineText)) ∧
    (lineText.utf16ToIndex character = lineText.length → EndsBehindWord lineText →
      ∃ found, wordAt? source line character = some found ∧
        TouchesRun lineText (lineText.length - 1) found ∧ found.stop + 1 = lineText.length) := by
  have hat := wordAt?_of_line hline character
  have hbound := lineText.utf16ToIndex_le_length character
  have hfound (hend : lineText.utf16ToIndex character = lineText.length) (found : WordSpan) :
      wordAt? source line character = some found ↔
        TouchesRun lineText (lineText.length - 1) found := by
    rw [hat, hend, Nat.min_eq_right (Nat.sub_le _ _), wordOnLine?_eq_some_iff]
  refine ⟨⟨?_, ?_⟩, ?_⟩
  · rintro hall ⟨hend, hbehind⟩
    obtain ⟨⟨found, hlast⟩, hnone⟩ := hbehind.exists_last
    have htouched := (hall found).mp ((hfound hend found).mpr hlast)
    exact hnone found (hend ▸ htouched)
  · intro hnot found
    by_cases hend : lineText.utf16ToIndex character = lineText.length
    · rw [hfound hend, hend]
      refine ⟨fun hlast => ?_, TouchesRun.last⟩
      by_cases htouched : TouchesRun lineText lineText.length found
      · exact htouched
      · exact absurd ⟨hend, (endsBehindWord_of_touchesRun_last hlast htouched).1⟩ hnot
    · rw [hat, Nat.min_eq_left (by omega), wordOnLine?_eq_some_iff]
  · intro hend hbehind
    obtain ⟨⟨found, hlast⟩, hnone⟩ := hbehind.exists_last
    exact ⟨found, (hfound hend found).mpr hlast, hlast,
      (endsBehindWord_of_touchesRun_last hlast (hnone found)).2⟩

/-- A cursor right behind a word finds it, and so does one behind the delimiter that closes
the line. -/
theorem wordAt?_finds_touched_astral :
    let source : Text := "x\n(𝒜b)"
    source.lines[1]? = some (text "(𝒜b)") ∧ wordAt? source 1 4 = some ⟨"𝒜b", 1, 3⟩ ∧
      ∃ found, wordAt? source 1 5 = some found ∧ found.stop = 3 := by
  intro source
  have hline : source.lines[1]? = some (text "(𝒜b)") := by decide +kernel
  have hrun : WordRun "(" "𝒜b" ")" :=
    ⟨by decide, by decide +kernel, by decide +kernel, by decide +kernel⟩
  have hinside : ¬ ((text "(𝒜b)").utf16ToIndex 4 = (text "(𝒜b)").length ∧
      EndsBehindWord (text "(𝒜b)")) := fun h => absurd h.1 (by decide)
  have hbehind : EndsBehindWord (text "(𝒜b)") :=
    ⟨"(𝒜", 'b', ')', rfl, by decide +kernel, by decide +kernel⟩
  refine ⟨hline, ?_, ?_⟩
  · exact ((wordAt?_finds_touched_iff hline 4).1.mpr hinside ⟨"𝒜b", 1, 3⟩).mpr
      ⟨"(", "𝒜b", ")", rfl, hrun, rfl, by decide, by decide⟩
  · obtain ⟨found, hfound, _, hstop⟩ :=
      (wordAt?_finds_touched_iff hline 5).2 (by decide) hbehind
    exact ⟨found, hfound, Nat.succ.inj hstop⟩

/-- Behind the last character of a line a word is found that the cursor does not touch. -/
theorem word_found_beyond_delimiter :
    (Text.lines "a)")[0]? = some (text "a)") ∧ wordAt? "a)" 0 2 = some ⟨"a", 0, 1⟩ ∧
      ∀ found, ¬ TouchesRun "a)" (Text.utf16ToIndex "a)" 2) found := by
  have hend : Text.utf16ToIndex "a)" 2 = (text "a)").length := by decide
  have hbehind : EndsBehindWord "a)" :=
    ⟨[], 'a', ')', rfl, by decide +kernel, by decide +kernel⟩
  refine ⟨by decide, by decide +kernel, ?_⟩
  rw [hend]
  exact hbehind.exists_last.2

end VibeScript
