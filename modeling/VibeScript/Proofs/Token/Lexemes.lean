import VibeScript.Token.Lexer

/-!
Every token comes from a lexeme, so what holds of the token of each lexeme holds of every
token.
-/

namespace VibeScript

/-- A source that is cut behind some of its lexemes: what these take, and what is left. -/
inductive Lexed : Text → Text → Text → Prop
  | nil (source : Text) : Lexed source [] source
  | cons {c : CodePoint} {rest before after : Text}
      (h : Lexed (rest.drop (lexeme c rest).extra) before after) :
      Lexed (c :: rest) (c :: rest.take (lexeme c rest).extra ++ before) after

theorem Lexed.append_eq {source before after : Text} (h : Lexed source before after) :
    before ++ after = source := by
  induction h with
  | nil => rfl
  | cons _ ih => rw [List.append_assoc, ih, List.cons_append, List.take_append_drop]

/-- A token is the mark of the end, or it is that of the lexeme behind the characters that lead to
its position. -/
theorem exists_lexed_of_mem_tokensFrom {pos : Position} {source : Text} {token : Token}
    (htoken : token ∈ tokensFrom pos source) :
    ∃ before after, Lexed source before after ∧ token.pos = pos.advanceBy before ∧
      (token.kind = .eof ∧ after = [] ∨
        ∃ c rest, after = c :: rest ∧ (lexeme c rest).token? = some token.kind) := by
  fun_induction tokensFrom pos source with
  | case1 pos =>
      rw [List.mem_singleton] at htoken
      subst htoken
      exact ⟨[], [], .nil [], rfl, Or.inl ⟨rfl, rfl⟩⟩
  | case2 pos c rest front following kind hkind ih =>
      rcases List.mem_cons.mp htoken with rfl | hmem
      · exact ⟨[], c :: rest, .nil _, rfl, Or.inr ⟨c, rest, rfl, hkind⟩⟩
      · obtain ⟨before, after, hlexed, hpos, hlexeme⟩ := ih hmem
        exact ⟨_, after, .cons hlexed, by rw [hpos, Position.advanceBy_append], hlexeme⟩
  | case3 pos c rest front following hnone ih =>
      obtain ⟨before, after, hlexed, hpos, hlexeme⟩ := ih htoken
      exact ⟨_, after, .cons hlexed, by rw [hpos, Position.advanceBy_append], hlexeme⟩

/-- A token is the mark of the end or the token of a lexeme in the source. -/
theorem exists_lexeme_of_mem_tokensFrom {pos : Position} {source : Text} {token : Token}
    (htoken : token ∈ tokensFrom pos source) :
    token.kind = .eof ∨
      ∃ c rest, c :: rest <:+ source ∧ (lexeme c rest).token? = some token.kind := by
  obtain ⟨before, after, hlexed, _, hlexeme⟩ := exists_lexed_of_mem_tokensFrom htoken
  refine hlexeme.imp And.left ?_
  rintro ⟨c, rest, rfl, hkind⟩
  exact ⟨c, rest, ⟨before, hlexed.append_eq⟩, hkind⟩

/-- A character that a name may hold; the marks of a predicate or a command come last. -/
def CodePoint.isNameChar (c : CodePoint) : Bool :=
  c.isIdentifierChar || c = '?' || c = '!'

theorem CodePoint.isNameChar_of_start {c : CodePoint} (h : c.isIdentifierStart = true) :
    c.isNameChar = true := by
  rw [isIdentifierStart, Bool.or_eq_true] at h
  rw [isNameChar, isIdentifierChar]
  rcases h with hletter | hunderscore
  · simp [hletter]
  · simp [hunderscore]

/-- A mark that a name can end in. -/
def CodePoint.IsMark (c : CodePoint) : Prop := c = '?' ∨ c = '!'

instance (c : CodePoint) : Decidable c.IsMark := inferInstanceAs (Decidable (_ ∨ _))

theorem CodePoint.IsMark.isNameChar {c : CodePoint} (h : c.IsMark) : c.isNameChar = true := by
  rcases h with rfl | rfl <;> simp [CodePoint.isNameChar]

/-- A word goes on with the characters of a name as long as there are any, and then maybe with a
mark. -/
theorem wordLexeme_split (c : CodePoint) (rest : Text) :
    ∃ run marks after, rest = run ++ marks ++ after ∧
      (wordLexeme c rest).extra = (run ++ marks).length ∧
      (∀ d ∈ run, d.isIdentifierChar = true) ∧
      (marks = [] ∧ (∀ d ∈ after.head?, d.isIdentifierChar = false) ∧ takesSuffix after = false ∨
        ∃ mark, marks = [mark] ∧ mark.IsMark) := by
  have hsplit := List.takeWhile_append_dropWhile (p := (·.isIdentifierChar)) (l := rest)
  have hrun : ∀ d ∈ rest.takeWhile (·.isIdentifierChar), d.isIdentifierChar = true :=
    fun d hd => List.all_eq_true.mp List.all_takeWhile d hd
  have hstop : ∀ d ∈ (rest.dropWhile (·.isIdentifierChar)).head?, d.isIdentifierChar = false := by
    intro d hd
    have hhead := List.head?_dropWhile_not (·.isIdentifierChar) rest
    rwa [Option.mem_def.mp hd] at hhead
  have hextra : (wordLexeme c rest).extra =
      let body := (rest.takeWhile (·.isIdentifierChar)).length
      if takesSuffix (rest.drop body) then body + 1 else body := by
    simp only [wordLexeme]
    split <;> rfl
  generalize rest.takeWhile (·.isIdentifierChar) = run at hsplit hrun hextra
  generalize rest.dropWhile (·.isIdentifierChar) = behind at hsplit hstop
  subst hsplit
  simp only [List.drop_left] at hextra
  cases hsuffix : takesSuffix behind with
  | false =>
      rw [hsuffix] at hextra
      exact ⟨run, [], behind, by simp, by simpa using hextra, hrun, Or.inl ⟨rfl, hstop, hsuffix⟩⟩
  | true =>
      rw [hsuffix] at hextra
      cases behind with
      | nil => cases hsuffix
      | cons mark after =>
          simp only [takesSuffix, Bool.and_eq_true, Bool.or_eq_true, decide_eq_true_eq] at hsuffix
          exact ⟨run, [mark], after, by simp, by simpa using hextra, hrun,
            Or.inr ⟨mark, rfl, hsuffix.1⟩⟩

/-- A name or a reserved word. -/
def TokenKind.isWord : TokenKind → Bool
  | .ident _ | .keyword _ => true
  | _ => false

/-- A word is its characters. -/
theorem value_of_wordLexeme {c : CodePoint} {rest : Text} {kind : TokenKind}
    (h : (wordLexeme c rest).token? = some kind) :
    kind.value = c :: rest.take (wordLexeme c rest).extra := by
  simp only [wordLexeme] at h ⊢
  split at h
  · next word hword =>
      cases h
      exact Keyword.spelling_of_ofText? hword
  · cases h
    rfl

/-- Only a word gives a name or a reserved word. -/
theorem lexeme_eq_wordLexeme {c : CodePoint} {rest : Text} {kind : TokenKind}
    (h : (lexeme c rest).token? = some kind) (hword : kind.isWord = true) :
    c.isIdentifierStart = true ∧ lexeme c rest = wordLexeme c rest := by
  unfold lexeme at h ⊢
  split at h
  · cases h
    cases hword
  split at h
  · cases h
  split at h
  · cases h
  split at h
  · unfold stringLexeme at h
    split at h <;> cases h <;> cases hword
  split at h
  · simp only [variableLexeme] at h
    repeat' split at h
    all_goals
      cases h
      cases hword
  split at h
  · cases h
    cases hword
  split at h
  · next hnewline hspacing hcomment hquote hat hsymbol hstart =>
      refine ⟨hstart, ?_⟩
      rw [if_neg hnewline, if_neg hspacing, if_neg hcomment, if_neg hquote, if_neg hat,
        if_neg hsymbol, if_pos hstart]
  split at h
  · simp only [numberLexeme] at h
    cases h
    split at hword <;> cases hword
  · unfold operatorLexeme at h
    split at h
    · cases h
      cases hword
    split at h
    · cases h
      cases hword
    split at h
    · cases h
      cases hword
    split at h <;> cases h <;> cases hword

/-- A word has the characters of a name. -/
theorem isNameChar_of_wordLexeme {c : CodePoint} {rest : Text} {kind : TokenKind}
    (hc : c.isIdentifierStart = true) (h : (wordLexeme c rest).token? = some kind) :
    ∀ d ∈ kind.value, d.isNameChar = true := by
  obtain ⟨run, marks, after, hrest, hextra, hrun, hmarks⟩ := wordLexeme_split c rest
  have hvalue := value_of_wordLexeme h
  rw [hextra, hrest, List.take_left] at hvalue
  rw [hvalue]
  intro d hd
  rcases List.mem_cons.mp hd with rfl | hd
  · exact CodePoint.isNameChar_of_start hc
  rcases List.mem_append.mp hd with hd | hd
  · simp [CodePoint.isNameChar, hrun d hd]
  · rcases hmarks with ⟨rfl, _⟩ | ⟨mark, rfl, hmark⟩
    · cases hd
    · rw [List.mem_singleton.mp hd]
      exact hmark.isNameChar

/-- A name or a reserved word has the characters of a name. -/
theorem isNameChar_of_mem_word {source : Text} {token : Token} (htoken : token ∈ tokenize source)
    (hword : token.kind.isWord = true) : ∀ c ∈ token.kind.value, c.isNameChar = true := by
  rcases exists_lexeme_of_mem_tokensFrom htoken with heof | ⟨c, rest, _, hlexeme⟩
  · rw [heof] at hword
    cases hword
  · obtain ⟨hstart, heq⟩ := lexeme_eq_wordLexeme hlexeme hword
    exact isNameChar_of_wordLexeme hstart (heq ▸ hlexeme)

/-- The name of a token has the characters of a name. -/
theorem isNameChar_of_mem_ident {source name : Text} {token : Token}
    (htoken : token ∈ tokenize source) (hname : token.kind = .ident name) :
    ∀ c ∈ name, c.isNameChar = true := by
  have hchars := isNameChar_of_mem_word htoken (by rw [hname]; rfl)
  rwa [hname] at hchars

/-- No lexeme gives the mark of the end. -/
theorem lexeme_token?_ne_eof (c : CodePoint) (rest : Text) :
    (lexeme c rest).token? ≠ some .eof := by
  have hstring : (stringLexeme rest).token? ≠ some .eof := by
    unfold stringLexeme
    split <;> simp
  have hvariable : (variableLexeme rest).token? ≠ some .eof := by
    simp only [variableLexeme]
    repeat' split
    all_goals simp
  have hword : (wordLexeme c rest).token? ≠ some .eof := by
    simp only [wordLexeme]
    split <;> simp
  have hnumber : (numberLexeme c rest).token? ≠ some .eof := by
    simp only [numberLexeme]
    split <;> simp
  have hoperator : (operatorLexeme c rest).token? ≠ some .eof := by
    unfold operatorLexeme
    repeat' split
    all_goals simp
  unfold lexeme
  repeat' split
  all_goals first
    | assumption
    | simp

/-- The mark of the end stands behind all other tokens, and only there. -/
theorem exists_concat_eof (pos : Position) (source : Text) :
    ∃ tokens last, tokensFrom pos source = tokens ++ [⟨.eof, last⟩] ∧
      ∀ token ∈ tokens, token.kind ≠ .eof := by
  fun_induction tokensFrom pos source with
  | case1 pos => exact ⟨[], pos, rfl, fun _ h => absurd h List.not_mem_nil⟩
  | case2 pos c rest front following kind hkind ih =>
      obtain ⟨tokens, last, heq, hne⟩ := ih
      refine ⟨⟨kind, pos⟩ :: tokens, last, congrArg (_ :: ·) heq, ?_⟩
      intro token htoken
      rcases List.mem_cons.mp htoken with rfl | hmem
      · rintro rfl
        exact lexeme_token?_ne_eof c rest hkind
      · exact hne token hmem
  | case3 pos c rest front following hnone ih => exact ih

/-- A comment takes the whole rest of its line. -/
theorem lexeme_comment {comment : Text} (h : CodePoint.newline ∉ comment) :
    lexeme '#' comment = ⟨none, comment.length⟩ := by
  have hkeep : ∀ c ∈ comment, decide (c ≠ CodePoint.newline) = true := by
    intro c hc
    have hne : c ≠ CodePoint.newline := by
      intro heq
      exact h (heq ▸ hc)
    simpa using hne
  have hall : (comment ++ []).takeWhile (· ≠ CodePoint.newline) =
      comment ++ List.takeWhile (· ≠ CodePoint.newline) [] :=
    List.takeWhile_append_of_pos hkeep
  rw [List.takeWhile_nil, List.append_nil] at hall
  have hlexeme : lexeme '#' comment =
      ⟨none, (comment.takeWhile (· ≠ CodePoint.newline)).length⟩ := rfl
  rw [hlexeme, hall]

end VibeScript
