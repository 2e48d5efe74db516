import VibeScript.Proofs.Token.Joining

/-!
How tokens are spelled.

`Spelled` says which stretch of a source a token of each kind stands for, with what follows
it.  The token of every lexeme is spelled by the characters of the lexeme, and a lexeme without
a token is a piece of the gap between two tokens (`lexeme_describes`).
-/

namespace VibeScript

/-- The inside of a string, and the value that it stands for.  A backslash takes the next
character along, so that a quote inside stands behind a backslash. -/
inductive StringBody : Text → Text → Prop
  | nil : StringBody [] []
  | plain {c : CodePoint} {body value : Text} (hslash : c ≠ CodePoint.backslash)
      (hquote : c ≠ CodePoint.quote) (h : StringBody body value) :
      StringBody (c :: body) (c :: value)
  | escaped {c : CodePoint} {body value : Text} (h : StringBody body value) :
      StringBody (CodePoint.backslash :: c :: body) (unescape c :: value)

/-- Some quote in the text ends a string that is open in front of it. -/
def ClosesString (rest : Text) : Prop :=
  ∃ body value after, StringBody body value ∧ rest = body ++ CodePoint.quote :: after

/-- A character that may stand between tokens. -/
def CodePoint.IsSpacing (c : CodePoint) : Prop :=
  c = CodePoint.space ∨ c = CodePoint.tab ∨ c = CodePoint.carriageReturn

/-- A character that starts neither a token nor a gap. -/
structure CodePoint.IsStray (c : CodePoint) : Prop where
  not_newline : c ≠ CodePoint.newline
  not_spacing : ¬ c.IsSpacing
  not_comment : c ≠ '#'
  not_quote : c ≠ CodePoint.quote
  not_start : c.isIdentifierStart = false
  not_digit : c.isDigit = false
  not_opener : Delimiter.ofOpener? c = none
  not_closer : Delimiter.ofCloser? c = none
  not_operator : c ∉ oneCharOperators

/-- How a token is spelled in front of the rest of its source.  An `@` is out of place unless
a name follows it. -/
inductive Spelled : TokenKind → Text → Text → Prop
  | ident (name after : Text) : Spelled (.ident name) name after
  | keyword (word : Keyword) (after : Text) : Spelled (.keyword word) word.spelling after
  | int (spelling after : Text) :
      Spelled (.int (spelling.filter fun c : CodePoint => c ≠ '_')) spelling after
  | float (spelling after : Text) :
      Spelled (.float (spelling.filter fun c : CodePoint => c ≠ '_')) spelling after
  | string {body value : Text} (h : StringBody body value) (after : Text) :
      Spelled (.string value) (CodePoint.quote :: body ++ [CodePoint.quote]) after
  | symbol (name after : Text) : Spelled (.symbol name) (CodePoint.colon :: name) after
  | instanceVar (name after : Text) : Spelled (.instanceVar name) ('@' :: name) after
  | classVar (name after : Text) : Spelled (.classVar name) ('@' :: '@' :: name) after
  | opening (d : Delimiter) (after : Text) : Spelled (.opening d) [d.opener] after
  | closing (d : Delimiter) (after : Text) : Spelled (.closing d) [d.closer] after
  | op (spelling after : Text) : Spelled (.op spelling) spelling after
  | newline (after : Text) : Spelled .newline [CodePoint.newline] after
  | unterminated {rest : Text} (h : ¬ ClosesString rest) :
      Spelled (.illegal .unterminatedString) (CodePoint.quote :: rest) []
  | unexpected {c : CodePoint} (after : Text) (h : c = '@' ∨ c.IsStray) :
      Spelled (.illegal (.unexpectedCharacter c)) [c] after

/-- What stands between two tokens in front of the second one, or of the end: spacing, and
maybe a comment, which goes up to the end of its line. -/
inductive Gap : Text → Text → Prop
  | nil (after : Text) : Gap [] after
  | spacing {c : CodePoint} {gap after : Text} (hc : c.IsSpacing) (h : Gap gap after) :
      Gap (c :: gap) after
  | comment {comment after : Text} (hline : CodePoint.newline ∉ comment)
      (hafter : ∀ c ∈ after.head?, c = CodePoint.newline) : Gap ('#' :: comment) after

theorem take_length_takeWhile (p : CodePoint → Bool) (rest : Text) :
    rest.take (rest.takeWhile p).length = rest.takeWhile p :=
  (List.prefix_iff_eq_take.mp (List.takeWhile_prefix p)).symm

theorem drop_length_takeWhile (p : CodePoint → Bool) (rest : Text) :
    rest.drop (rest.takeWhile p).length = rest.dropWhile p := by
  induction rest with
  | nil => rfl
  | cons c rest ih => by_cases hc : p c = true <;> simp [hc, ih]

/-! Strings. -/

/-- A string is read up to the quote that ends it. -/
theorem scanString?_of_stringBody {body value : Text} (h : StringBody body value)
    (after : Text) :
    scanString? (body ++ CodePoint.quote :: after) = some (value, body.length + 1) := by
  induction h with
  | nil => cases after <;> rfl
  | @plain c body value hslash hquote _ ih =>
      obtain ⟨d, more, hmore⟩ : ∃ d more, body ++ CodePoint.quote :: after = d :: more := by
        cases body <;> exact ⟨_, _, rfl⟩
      rw [hmore] at ih
      rw [List.cons_append, hmore, scanString?, if_neg hslash, if_neg hquote, ih]
      rfl
  | escaped _ ih =>
      rw [List.cons_append, List.cons_append, scanString?, if_pos rfl, ih]
      rfl

theorem exists_stringBody_of_scanString? {rest value : Text} {length : Nat}
    (h : scanString? rest = some (value, length)) :
    ∃ body, StringBody body value ∧ rest.take length = body ++ [CodePoint.quote] := by
  fun_induction scanString? rest generalizing value length with
  | case1 => cases h
  | case2 =>
      cases h
      exact ⟨[], .nil, rfl⟩
  | case3 => cases h
  | case4 d rest ih =>
      obtain ⟨⟨inner, taken⟩, hinner, hpair⟩ := Option.map_eq_some_iff.mp h
      cases hpair
      obtain ⟨body, hbody, htake⟩ := ih hinner
      exact ⟨_, .escaped hbody, congrArg (_ :: _ :: ·) htake⟩
  | case5 =>
      cases h
      exact ⟨[], .nil, rfl⟩
  | case6 c d rest hslash hquote ih =>
      obtain ⟨⟨inner, taken⟩, hinner, hpair⟩ := Option.map_eq_some_iff.mp h
      cases hpair
      obtain ⟨body, hbody, htake⟩ := ih hinner
      exact ⟨_, .plain hslash hquote hbody, congrArg (_ :: ·) htake⟩

/-- What a lexeme says of the characters that it takes: they spell its token, or they belong
to a gap if it has none. -/
structure Lexeme.Describes (front : Lexeme) (c : CodePoint) (rest : Text) : Prop where
  spelled : ∀ kind, front.token? = some kind →
    Spelled kind (c :: rest.take front.extra) (rest.drop front.extra)
  gap : front.token? = none → (c.IsSpacing ∧ front.extra = 0) ∨
    (c = '#' ∧ front.extra = (rest.takeWhile (· ≠ CodePoint.newline)).length)

theorem Lexeme.describes_of_spelled {c : CodePoint} {rest : Text} {kind : TokenKind}
    {extra : Nat} (h : Spelled kind (c :: rest.take extra) (rest.drop extra)) :
    Lexeme.Describes ⟨some kind, extra⟩ c rest where
  spelled := by
    rintro _ ⟨⟩
    exact h
  gap := nofun

theorem stringLexeme_describes (rest : Text) :
    (stringLexeme rest).Describes CodePoint.quote rest := by
  unfold stringLexeme
  split
  case h_1 value length hscan =>
    obtain ⟨body, hbody, htake⟩ := exists_stringBody_of_scanString? hscan
    apply Lexeme.describes_of_spelled
    rw [htake]
    exact .string hbody _
  case h_2 hscan =>
    apply Lexeme.describes_of_spelled
    rw [List.take_length, List.drop_length]
    refine .unterminated ?_
    rintro ⟨body, value, after, hbody, rfl⟩
    rw [scanString?_of_stringBody hbody] at hscan
    cases hscan

theorem variableLexeme_describes (rest : Text) : (variableLexeme rest).Describes '@' rest := by
  have hat : Spelled (.illegal (.unexpectedCharacter '@')) ['@'] rest :=
    .unexpected rest (.inl rfl)
  by_cases hdoubled : rest.head? = some (CodePoint.ofChar '@')
  · obtain ⟨more, rfl⟩ := List.head?_eq_some_iff.mp hdoubled
    simp only [variableLexeme, Option.pure_def, Option.bind_eq_bind, Option.bind_some,
      List.head?_cons, ↓reduceIte, List.tail_cons]
    split
    · exact Lexeme.describes_of_spelled hat
    · apply Lexeme.describes_of_spelled
      rw [List.take_succ_cons, take_length_takeWhile]
      exact .classVar _ _
  · simp only [variableLexeme, Option.pure_def, Option.bind_eq_bind, Option.bind_some,
      hdoubled, ↓reduceIte]
    split
    · exact Lexeme.describes_of_spelled hat
    · apply Lexeme.describes_of_spelled
      rw [take_length_takeWhile]
      exact .instanceVar _ _

theorem wordLexeme_describes (c : CodePoint) (rest : Text) :
    (wordLexeme c rest).Describes c rest := by
  simp only [wordLexeme]
  split
  case h_1 word hword =>
    apply Lexeme.describes_of_spelled
    rw [← Keyword.spelling_of_ofText? hword]
    exact .keyword word _
  case h_2 => exact Lexeme.describes_of_spelled (.ident _ _)

theorem numberLexeme_describes (c : CodePoint) (rest : Text) :
    (numberLexeme c rest).Describes c rest := by
  simp only [numberLexeme]
  split
  · exact Lexeme.describes_of_spelled (.float _ _)
  · exact Lexeme.describes_of_spelled (.int _ _)

theorem Delimiter.opener_of_ofOpener? {c : CodePoint} {d : Delimiter}
    (h : ofOpener? c = some d) : d.opener = c := by
  simpa using List.find?_some h

theorem Delimiter.closer_of_ofCloser? {c : CodePoint} {d : Delimiter}
    (h : ofCloser? c = some d) : d.closer = c := by
  simpa using List.find?_some h

theorem operatorLexeme_describes {c : CodePoint} (rest : Text)
    (hstray : Delimiter.ofOpener? c = none → Delimiter.ofCloser? c = none →
      c ∉ oneCharOperators → c.IsStray) : (operatorLexeme c rest).Describes c rest := by
  unfold operatorLexeme
  split
  case isTrue => exact Lexeme.describes_of_spelled (.op _ _)
  split
  case h_1 d hopener =>
    rw [← Delimiter.opener_of_ofOpener? hopener]
    exact Lexeme.describes_of_spelled (.opening d _)
  case h_2 hopener =>
    split
    case h_1 d hcloser =>
      rw [← Delimiter.closer_of_ofCloser? hcloser]
      exact Lexeme.describes_of_spelled (.closing d _)
    case h_2 hcloser =>
      split
      case isTrue => exact Lexeme.describes_of_spelled (.op _ _)
      case isFalse hsingle =>
        exact Lexeme.describes_of_spelled (.unexpected _ (.inr (hstray hopener hcloser hsingle)))

/-- Every lexeme describes the characters that it takes. -/
theorem lexeme_describes (c : CodePoint) (rest : Text) :
    (lexeme c rest).Describes c rest := by
  unfold lexeme
  split
  case isTrue hnewline =>
    rw [hnewline]
    exact Lexeme.describes_of_spelled (.newline _)
  split
  case isTrue hspacing => exact ⟨nofun, fun _ => .inl ⟨hspacing, rfl⟩⟩
  split
  case isTrue hcomment => exact ⟨nofun, fun _ => .inr ⟨hcomment, rfl⟩⟩
  split
  case isTrue hquote =>
    rw [hquote]
    exact stringLexeme_describes rest
  split
  case isTrue hat =>
    rw [hat]
    exact variableLexeme_describes rest
  split
  case isTrue hsymbol =>
    apply Lexeme.describes_of_spelled
    rw [hsymbol.1, take_length_takeWhile]
    exact .symbol _ _
  split
  case isTrue => exact wordLexeme_describes c rest
  split
  case isTrue => exact numberLexeme_describes c rest
  case isFalse hnewline hspacing hcomment hquote _ _ hstart hdigit =>
    refine operatorLexeme_describes rest fun hopener hcloser hsingle => ?_
    exact ⟨hnewline, hspacing, hcomment, hquote, by simpa using hstart, by simpa using hdigit,
      hopener, hcloser, hsingle⟩

end VibeScript
