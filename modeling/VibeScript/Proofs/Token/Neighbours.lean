import VibeScript.Proofs.Token.Spelling
import VibeScript.Word

/-!
What stands next to a name.

Two tokens can touch each other.  Of the characters that a cursor takes for parts of a word, a name
touches few that are not its own (`exists_place_of_word`).
-/

namespace VibeScript

section Characters

variable {c : CodePoint}

theorem CodePoint.not_isIdentifierStart (h : c.isIdentifierChar = false) :
    c.isIdentifierStart = false := by
  simp only [isIdentifierChar, Bool.or_eq_false_iff] at h
  simp [isIdentifierStart, h.1.1, h.2]

theorem CodePoint.isWordChar_iff :
    c.isWordChar = true ↔ c.isIdentifierStart = true ∨ c.isDecimal = true ∨ c.IsMark := by
  simp only [isWordChar, isIdentifierStart, IsMark, Bool.or_eq_true, decide_eq_true_eq]
  grind

end Characters

/-- A stretch of a source that no name follows directly, unless it ends in a digit, a mark or some
character that belongs to no word. -/
def EndsApart (taken after : Text) : Prop :=
  ∀ c ∈ taken.getLast?, ∀ d ∈ after.head?, c.isWordChar = true → d.isIdentifierStart = true →
    c.isDigit = true ∨ c.IsMark

namespace EndsApart

variable {taken after : Text}

theorem of_last (h : ∀ c ∈ taken.getLast?, c.isWordChar = true → c.isDigit = true ∨ c.IsMark) :
    EndsApart taken after :=
  fun c hc _ _ hword _ => h c hc hword

theorem of_head (h : ∀ d ∈ after.head?, d.isIdentifierStart = false) : EndsApart taken after := by
  intro c _ d hd _ hstart
  rw [h d hd] at hstart
  cases hstart

/-- No name follows the characters of a name. -/
theorem of_run (taken : Text) (rest : Text) :
    EndsApart taken (rest.drop (rest.takeWhile (·.isIdentifierChar)).length) := by
  refine of_head fun d hd => CodePoint.not_isIdentifierStart ?_
  have hhead := List.head?_dropWhile_not (·.isIdentifierChar) rest
  rw [drop_length_takeWhile] at hd
  rwa [Option.mem_def.mp hd] at hhead

end EndsApart

section Lexemes

variable {c : CodePoint} {rest : Text}

theorem stringLexeme_endsApart (rest : Text) :
    EndsApart (CodePoint.quote :: rest.take (stringLexeme rest).extra)
      (rest.drop (stringLexeme rest).extra) := by
  unfold stringLexeme
  split
  · next hscan =>
      obtain ⟨body, _, htake⟩ := exists_stringBody_of_scanString? hscan
      refine .of_last fun d hd hword => ?_
      simp only [htake, ← List.cons_append, List.getLast?_concat, Option.mem_some_iff] at hd
      rw [← hd] at hword
      exact absurd hword (by decide +kernel)
  · exact .of_head (by simp)

theorem variableLexeme_endsApart (rest : Text) :
    EndsApart ('@' :: rest.take (variableLexeme rest).extra)
      (rest.drop (variableLexeme rest).extra) := by
  have hat : EndsApart ['@'] rest := .of_last fun d hd hword => by
    obtain rfl : CodePoint.ofChar '@' = d := by simpa using hd
    exact absurd hword (by decide +kernel)
  by_cases hdoubled : rest.head? = some (CodePoint.ofChar '@')
  · obtain ⟨more, rfl⟩ := List.head?_eq_some_iff.mp hdoubled
    simp only [variableLexeme, Option.pure_def, Option.bind_eq_bind, Option.bind_some,
      List.head?_cons, ↓reduceIte, List.tail_cons]
    split
    · exact hat
    · exact .of_run _ more
  · simp only [variableLexeme, Option.pure_def, Option.bind_eq_bind, Option.bind_some,
      hdoubled, ↓reduceIte]
    split
    · exact hat
    · exact .of_run _ rest

theorem wordLexeme_endsApart (c : CodePoint) (rest : Text) :
    EndsApart (c :: rest.take (wordLexeme c rest).extra)
      (rest.drop (wordLexeme c rest).extra) := by
  obtain ⟨run, marks, after, rfl, hextra, _, hmarks⟩ := wordLexeme_split c rest
  rw [hextra, List.take_left, List.drop_left]
  rcases hmarks with ⟨_, hstop, _⟩ | ⟨mark, rfl, hmark⟩
  · exact .of_head fun d hd => CodePoint.not_isIdentifierStart (hstop d hd)
  · refine .of_last fun d hd _ => Or.inr ?_
    rw [← List.cons_append, List.getLast?_concat, Option.mem_some_iff] at hd
    exact hd ▸ hmark

/-- A number ends in a digit. -/
theorem isDigit_of_last_scanNumber (hasPoint : Bool) (c : CodePoint) (rest : Text)
    (h : c.isDigit = true ∨ startsWithDigit rest = true) :
    ∀ d ∈ (c :: rest.take (scanNumber hasPoint rest).1).getLast?, d.isDigit = true := by
  fun_induction scanNumber hasPoint rest generalizing c with
  | case1 => simpa [startsWithDigit] using h
  | case2 hasPoint d rest hdigit length point hscan ih =>
      have hd : d.isDigit = true ∨ startsWithDigit rest = true := by
        simp only [Bool.or_eq_true, Bool.and_eq_true] at hdigit
        exact hdigit.imp_right And.right
      rw [List.take_succ_cons, List.getLast?_cons_cons]
      simpa [hscan] using ih d hd
  | case3 hasPoint d rest hdigit hpoint length point hscan ih =>
      simp only [Bool.and_eq_true] at hpoint
      rw [List.take_succ_cons, List.getLast?_cons_cons]
      simpa [hscan] using ih d (Or.inr hpoint.2)
  | case4 hasPoint d rest hdigit hpoint =>
      simp only [Bool.or_eq_true, not_or] at hdigit
      simpa [startsWithDigit, hdigit.1] using h

theorem numberLexeme_endsApart (hdigit : c.isDigit = true) (rest : Text) :
    EndsApart (c :: rest.take (numberLexeme c rest).extra)
      (rest.drop (numberLexeme c rest).extra) :=
  .of_last fun d hd _ => Or.inl (isDigit_of_last_scanNumber false c rest (Or.inl hdigit) d hd)

/-- No operator of two characters ends in a word character, and of one character only marks are
word characters. -/
theorem operatorLexeme_endsApart (hstart : c.isIdentifierStart = false)
    (hdigit : c.isDigit = false) (rest : Text) :
    EndsApart (c :: rest.take (operatorLexeme c rest).extra)
      (rest.drop (operatorLexeme c rest).extra) := by
  have htwo : ∀ spelling ∈ twoCharOperators, ∀ d ∈ spelling.getLast?, d.isWordChar = false := by
    decide +kernel
  have hsingle (more : Text) : EndsApart [c] more := by
    refine .of_last fun d hd hword => ?_
    obtain rfl : c = d := by simpa using hd
    rcases CodePoint.isWordChar_iff.mp hword with h | h | h
    · simp [hstart] at h
    · simp [CodePoint.isDigit_of_isDecimal h] at hdigit
    · exact Or.inr h
  unfold operatorLexeme
  split
  · next hmem =>
      refine .of_last fun d hd hword => ?_
      simp [htwo _ hmem d hd] at hword
  · split
    · exact hsingle _
    · split
      · exact hsingle _
      · split <;> exact hsingle _

/-- A lexeme ends apart from what follows it. -/
theorem lexeme_endsApart (c : CodePoint) (rest : Text) :
    EndsApart (c :: rest.take (lexeme c rest).extra) (rest.drop (lexeme c rest).extra) := by
  have hsingle (hc : c.isWordChar = false) (more : Text) : EndsApart [c] more :=
    .of_last fun d hd hword => by
      obtain rfl : c = d := by simpa using hd
      simp [hc] at hword
  unfold lexeme
  split
  case isTrue hnewline => exact hsingle (by rw [hnewline]; decide +kernel) _
  split
  case isTrue hspacing =>
    exact hsingle (by rcases hspacing with rfl | rfl | rfl <;> decide +kernel) _
  split
  case isTrue hcomment =>
    refine .of_head fun d hd => ?_
    have hhead := List.head?_dropWhile_not (· ≠ CodePoint.newline) rest
    rw [drop_length_takeWhile] at hd
    rw [Option.mem_def.mp hd] at hhead
    obtain rfl : d = CodePoint.newline := by simpa using hhead
    decide +kernel
  split
  case isTrue hquote =>
    rw [hquote]
    exact stringLexeme_endsApart rest
  split
  case isTrue hat =>
    rw [hat]
    exact variableLexeme_endsApart rest
  split
  case isTrue hsymbol => exact .of_run _ rest
  split
  case isTrue => exact wordLexeme_endsApart c rest
  split
  case isTrue hdigit => exact numberLexeme_endsApart hdigit rest
  case isFalse hstart hdigit =>
    exact operatorLexeme_endsApart (by simpa using hstart) (by simpa using hdigit) rest

/-- So do all lexemes in front of a place together. -/
theorem Lexed.endsApart {source before after : Text} (h : Lexed source before after) :
    EndsApart before after := by
  induction h with
  | nil => simp [EndsApart]
  | @cons c rest before after h ih =>
      cases hlast : before.getLast? with
      | none =>
          obtain rfl : before = [] := List.getLast?_eq_none_iff.mp hlast
          have hafter : after = rest.drop (lexeme c rest).extra := h.append_eq
          rw [List.append_nil, hafter]
          exact lexeme_endsApart c rest
      | some e =>
          intro d hd
          rw [List.getLast?_append, hlast, Option.some_or, ← hlast] at hd
          exact ih d hd

end Lexemes

/-- Which word characters a name can touch: in front of it a digit or a mark, and behind it a mark
in front of an equals sign, or any if the name ends in a mark itself. -/
structure NameNeighbours (before name after : Text) : Prop where
  before : ∀ c ∈ before.getLast?, c.isWordChar = true → c.isDigit = true ∨ c.IsMark
  behind : ∀ c ∈ after.head?, c.isWordChar = true →
    (c.IsMark ∧ after.tail.head? = some CodePoint.equalsSign) ∨
      ∃ mark ∈ name.getLast?, mark.IsMark

/-- Behind a word stands no other word character than a mark, unless the word ends in one. -/
theorem behind_of_wordLexeme {c : CodePoint} {rest : Text} {kind : TokenKind}
    (h : (wordLexeme c rest).token? = some kind) {d : CodePoint}
    (hd : d ∈ (rest.drop (wordLexeme c rest).extra).head?) (hchar : d.isWordChar = true) :
    (d.IsMark ∧
        (rest.drop (wordLexeme c rest).extra).tail.head? = some CodePoint.equalsSign) ∨
      ∃ mark ∈ kind.value.getLast?, mark.IsMark := by
  have hvalue := value_of_wordLexeme h
  obtain ⟨run, marks, after, rfl, hextra, _, hmarks⟩ := wordLexeme_split c rest
  rw [hextra, List.take_left] at hvalue
  rw [hextra, List.drop_left] at hd ⊢
  rcases hmarks with ⟨_, hstop, hsuffix⟩ | ⟨mark, rfl, hmark⟩
  · obtain ⟨more, rfl⟩ := List.head?_eq_some_iff.mp hd
    have hother := hstop d hd
    have hmark : d.IsMark := by
      rcases CodePoint.isWordChar_iff.mp hchar with hstart | hdecimal | hmark
      · rw [CodePoint.not_isIdentifierStart hother] at hstart
        cases hstart
      · simp [CodePoint.isIdentifierChar,
          CodePoint.isNumeric_of_isDigit (CodePoint.isDigit_of_isDecimal hdecimal)] at hother
      · exact hmark
    simp only [takesSuffix, Bool.and_eq_false_iff, Bool.or_eq_false_iff,
      decide_eq_false_iff_not, Decidable.not_not] at hsuffix
    exact Or.inl ⟨hmark, hsuffix.resolve_left fun hnone => hmark.elim hnone.1 hnone.2⟩
  · refine Or.inr ⟨mark, ?_, hmark⟩
    rw [hvalue, ← List.cons_append, List.getLast?_concat, Option.mem_some_iff]

/-- Where a name or a reserved word stands, and what it touches. -/
theorem exists_place_of_word {source : Text} {token : Token} (htoken : token ∈ tokenize source)
    (hword : token.kind.isWord = true) :
    ∃ before after, source = before ++ (token.kind.value ++ after) ∧
      token.pos = Position.start.advanceBy before ∧ token.kind.value ≠ [] ∧
      NameNeighbours before token.kind.value after := by
  obtain ⟨before, behind, hlexed, hpos, ⟨heof, _⟩ | ⟨c, rest, rfl, hlexeme⟩⟩ :=
    exists_lexed_of_mem_tokensFrom htoken
  · rw [heof] at hword
    cases hword
  · obtain ⟨hstart, heq⟩ := lexeme_eq_wordLexeme hlexeme hword
    rw [heq] at hlexeme
    have hvalue := value_of_wordLexeme hlexeme
    refine ⟨before, rest.drop (wordLexeme c rest).extra, ?_, hpos, by simp [hvalue], ⟨?_, ?_⟩⟩
    · rw [hvalue, List.cons_append, List.take_append_drop, hlexed.append_eq]
    · exact fun d hd hchar => hlexed.endsApart d hd c rfl hchar hstart
    · exact fun d hd hchar => behind_of_wordLexeme hlexeme hd hchar

end VibeScript
