import VibeScript.Proofs.Token.Spelling

/-!
The tokens of a text whose lines end with a carriage return and a line feed.

Where every carriage return stands in front of a line feed, a source and the source without
its carriage returns are cut into lexemes at the same places
(`lexeme_withoutReturns`).  The carriage returns themselves are skipped between tokens and
in comments, and inside a string they belong to its value.  So the tokens differ in the
values of strings and in the columns of line ends only (`outline_tokensFrom_withoutReturns`).
-/

namespace VibeScript

namespace Text

/-- Every carriage return is directly followed by a line feed. -/
def ReturnsPaired : Text → Prop
  | [] => True
  | c :: rest =>
      (c = CodePoint.carriageReturn → rest.head? = some CodePoint.newline) ∧ ReturnsPaired rest

instance decidableReturnsPaired : (t : Text) → Decidable t.ReturnsPaired
  | [] => .isTrue trivial
  | c :: rest =>
      have := decidableReturnsPaired rest
      inferInstanceAs (Decidable ((c = CodePoint.carriageReturn → _) ∧ ReturnsPaired rest))

/-- The text with a line feed for every carriage return with a line feed behind it. -/
def replaceCrLf : Text → Text
  | [] => []
  | c :: rest =>
      if c = CodePoint.carriageReturn ∧ rest.head? = some CodePoint.newline then
        replaceCrLf rest
      else c :: replaceCrLf rest

/-- The text without its carriage returns. -/
def withoutReturns (t : Text) : Text := t.filter (· ≠ CodePoint.carriageReturn)

@[simp] theorem withoutReturns_nil : withoutReturns [] = [] := rfl

@[simp] theorem withoutReturns_return_cons (t : Text) :
    withoutReturns (CodePoint.carriageReturn :: t) = withoutReturns t :=
  List.filter_cons_of_neg (by simp)

theorem withoutReturns_cons {c : CodePoint} (hc : c ≠ CodePoint.carriageReturn) (t : Text) :
    withoutReturns (c :: t) = c :: withoutReturns t :=
  List.filter_cons_of_pos (by simpa using hc)

@[simp] theorem withoutReturns_append (s t : Text) :
    withoutReturns (s ++ t) = withoutReturns s ++ withoutReturns t :=
  List.filter_append ..

theorem withoutReturns_eq_self {t : Text} (h : CodePoint.carriageReturn ∉ t) :
    withoutReturns t = t := by
  apply List.filter_eq_self.mpr
  intro c hc
  simpa using fun heq : c = CodePoint.carriageReturn => h (heq ▸ hc)

theorem ReturnsPaired.of_append {s t : Text} (h : ReturnsPaired (s ++ t)) : t.ReturnsPaired := by
  induction s with
  | nil => exact h
  | cons c s ih => exact ih h.2

theorem ReturnsPaired.drop {t : Text} (h : t.ReturnsPaired) (count : Nat) :
    ReturnsPaired (t.drop count) := by
  rw [← List.take_append_drop count t] at h
  exact h.of_append

theorem ReturnsPaired.exists_newline {rest : Text}
    (h : ReturnsPaired (CodePoint.carriageReturn :: rest)) :
    ∃ more, rest = CodePoint.newline :: more :=
  List.head?_eq_some_iff.mp (h.1 rfl)

/-- Where every carriage return has its line feed, replacing both drops the carriage
returns. -/
theorem replaceCrLf_eq_withoutReturns {t : Text} (h : t.ReturnsPaired) :
    t.replaceCrLf = t.withoutReturns := by
  induction t with
  | nil => rfl
  | cons c rest ih =>
      by_cases hc : c = CodePoint.carriageReturn
      · rw [replaceCrLf, if_pos ⟨hc, h.1 hc⟩, ih h.2, hc, withoutReturns_return_cons]
      · rw [replaceCrLf, if_neg (fun hboth => hc hboth.1), ih h.2, withoutReturns_cons hc]

theorem withLineFeeds_eq_withoutReturns {t : Text} (h : t.ReturnsPaired) :
    t.withLineFeeds = t.withoutReturns := by
  induction t with
  | nil => rfl
  | cons c rest ih =>
      by_cases hc : c = CodePoint.carriageReturn
      · rw [withLineFeeds, if_pos hc, if_pos (h.1 hc), ih h.2, hc, withoutReturns_return_cons]
      · rw [withLineFeeds, if_neg hc, ih h.2, withoutReturns_cons hc]

/-- How long that many characters are without the carriage returns among them. -/
def bareLength (t : Text) (length : Nat) : Nat := (withoutReturns (t.take length)).length

theorem bareLength_return_cons (t : Text) (length : Nat) :
    bareLength (CodePoint.carriageReturn :: t) (length + 1) = bareLength t length := by
  rw [bareLength, List.take_succ_cons, withoutReturns_return_cons, bareLength]

theorem bareLength_cons {c : CodePoint} (hc : c ≠ CodePoint.carriageReturn) (t : Text)
    (length : Nat) : bareLength (c :: t) (length + 1) = bareLength t length + 1 := by
  rw [bareLength, List.take_succ_cons, withoutReturns_cons hc, List.length_cons, bareLength]

theorem take_bareLength (t : Text) (length : Nat) :
    t.withoutReturns.take (bareLength t length) = withoutReturns (t.take length) := by
  have hsplit := withoutReturns_append (t.take length) (t.drop length)
  rw [List.take_append_drop] at hsplit
  rw [hsplit, bareLength, List.take_left]

theorem drop_bareLength (t : Text) (length : Nat) :
    t.withoutReturns.drop (bareLength t length) = withoutReturns (t.drop length) := by
  have hsplit := withoutReturns_append (t.take length) (t.drop length)
  rw [List.take_append_drop] at hsplit
  rw [hsplit, bareLength, List.drop_left]

/-- A carriage return does not end a line on its own. -/
theorem takeWhile_withoutReturns (t : Text) :
    t.withoutReturns.takeWhile (· ≠ CodePoint.newline) =
      withoutReturns (t.takeWhile (· ≠ CodePoint.newline)) := by
  induction t with
  | nil => rfl
  | cons c rest ih =>
      by_cases hc : c = CodePoint.carriageReturn
      · subst hc
        rw [withoutReturns_return_cons, ih, List.takeWhile_cons_of_pos (by decide),
          withoutReturns_return_cons]
      · rw [withoutReturns_cons hc, List.takeWhile_cons, List.takeWhile_cons, ih]
        split
        · rw [withoutReturns_cons hc]
        · rfl

end Text

open Text

/-! Positions in a source and in the source without its carriage returns. -/

/-- Two positions in front of a rest that agree up to a carriage return: their columns may
differ where the line ends. -/
structure Position.Agrees (rest : Text) (pos bare : Position) : Prop where
  line : bare.line = pos.line
  column : rest.head? = some CodePoint.newline ∨ bare.column = pos.column

namespace Position.Agrees

variable {pos bare : Position}

/-- In front of the end of a line the columns may be one apart, behind it they agree again. -/
theorem advanceBy {front rest : Text} (h : pos.Agrees (front ++ rest) bare)
    (hpaired : ReturnsPaired (front ++ rest)) :
    (pos.advanceBy front).Agrees rest (bare.advanceBy front.withoutReturns) := by
  induction front generalizing pos bare with
  | nil => exact h
  | cons c front ih =>
      by_cases hreturn : c = CodePoint.carriageReturn
      · subst hreturn
        rw [withoutReturns_return_cons]
        apply ih _ hpaired.2
        exact ⟨h.line, .inl (hpaired.1 rfl)⟩
      rw [withoutReturns_cons hreturn]
      apply ih _ hpaired.2
      by_cases hnewline : c = CodePoint.newline
      · subst hnewline
        exact ⟨congrArg (· + 1) h.line, .inr rfl⟩
      · have hcolumn : bare.column = pos.column := by
          refine h.column.resolve_left fun hhead => hnewline ?_
          exact Option.some.inj hhead
        simp only [advance, hnewline, ↓reduceIte]
        exact ⟨h.line, .inr (congrArg (· + 1) hcolumn)⟩

theorem eq_of_head_ne {rest : Text} (h : pos.Agrees rest bare)
    (hhead : rest.head? ≠ some CodePoint.newline) : bare = pos := by
  have hcolumn := h.column.resolve_left hhead
  cases pos
  cases bare
  cases h.line
  cases hcolumn
  rfl

end Position.Agrees

/-! Strings. -/

/-- How many characters a string has behind its opening quote. -/
def stringLength? (rest : Text) : Option Nat := (scanString? rest).map Prod.snd

theorem stringLength?_quote_cons (rest : Text) :
    stringLength? (CodePoint.quote :: rest) = some 1 := by
  cases rest <;> rfl

theorem stringLength?_escape (c : CodePoint) (rest : Text) :
    stringLength? (CodePoint.backslash :: c :: rest) = (stringLength? rest).map (· + 2) := by
  rw [stringLength?, scanString?, if_pos rfl, stringLength?, Option.map_map, Option.map_map]
  rfl

theorem stringLength?_plain {c : CodePoint} (hslash : c ≠ CodePoint.backslash)
    (hquote : c ≠ CodePoint.quote) (rest : Text) :
    stringLength? (c :: rest) = (stringLength? rest).map (· + 1) := by
  cases rest with
  | nil => simp [stringLength?, scanString?, hquote]
  | cons d rest =>
      rw [stringLength?, scanString?, if_neg hslash, if_neg hquote, stringLength?,
        Option.map_map, Option.map_map]
      rfl

/-- A string ends at the same quote without the carriage returns.  Behind a backslash the
escape takes the line feed instead of the carriage return, and the string goes on behind
both in either case. -/
theorem stringLength?_withoutReturns {rest : Text} (h : rest.ReturnsPaired) :
    stringLength? rest.withoutReturns = (stringLength? rest).map (bareLength rest) := by
  have hslash : CodePoint.backslash ≠ CodePoint.carriageReturn := by decide
  induction rest using scanString?.induct with
  | case1 => rfl
  | case2 => rfl
  | case3 c hquote =>
      have hreturn : c ≠ CodePoint.carriageReturn := fun hc => nomatch h.1 hc
      have hnone : stringLength? [c] = none := by simp [stringLength?, scanString?, hquote]
      rw [withoutReturns_cons hreturn, withoutReturns_nil, hnone, Option.map_none]
  | case4 d rest ih =>
      rw [withoutReturns_cons hslash, stringLength?_escape, Option.map_map]
      by_cases hreturn : d = CodePoint.carriageReturn
      · subst hreturn
        obtain ⟨more, rfl⟩ := h.2.exists_newline
        have hnewline : CodePoint.newline ≠ CodePoint.carriageReturn := by decide
        have hplain (tail : Text) : stringLength? (CodePoint.newline :: tail) =
            (stringLength? tail).map (· + 1) := stringLength?_plain (by decide) (by decide) tail
        have hlonger := congrArg (Option.map (· + 1)) (ih h.2.2)
        rw [withoutReturns_cons hnewline, hplain, Option.map_map, Option.map_map] at hlonger
        rw [withoutReturns_return_cons, withoutReturns_cons hnewline, stringLength?_escape]
        refine hlonger.trans (Option.map_congr fun length _ => ?_)
        exact ((bareLength_cons hslash _ _).trans
          (congrArg (· + 1) (bareLength_return_cons _ _))).symm
      · rw [withoutReturns_cons hreturn, stringLength?_escape, ih h.2.2, Option.map_map]
        refine Option.map_congr fun length _ => ?_
        exact ((bareLength_cons hslash _ _).trans
          (congrArg (· + 1) (bareLength_cons hreturn _ _))).symm
  | case5 d rest =>
      have hquote : CodePoint.quote ≠ CodePoint.carriageReturn := by decide
      rw [withoutReturns_cons hquote, stringLength?_quote_cons, stringLength?_quote_cons]
      rfl
  | case6 c d rest hescape hquote ih =>
      rw [stringLength?_plain hescape hquote, Option.map_map]
      by_cases hreturn : c = CodePoint.carriageReturn
      · subst hreturn
        rw [withoutReturns_return_cons, ih h.2]
        exact Option.map_congr fun length _ => (bareLength_return_cons _ _).symm
      · rw [withoutReturns_cons hreturn, stringLength?_plain hescape hquote, ih h.2,
          Option.map_map]
        exact Option.map_congr fun length _ => (bareLength_cons hreturn _ _).symm

/-! Lexemes. -/

/-- What the check sees of a kind of token: not what a string holds. -/
def TokenKind.outline : TokenKind → TokenKind
  | .string _ => .string []
  | kind => kind

/-- The front of a rest and its front without carriage returns, the same but for the value
of a string. -/
structure Lexeme.SameWithout (front bare : Lexeme) (rest : Text) : Prop where
  token : bare.token?.map TokenKind.outline = front.token?.map TokenKind.outline
  extra : bare.extra = rest.bareLength front.extra

/-- A lexeme that has no carriage return in it. -/
theorem Lexeme.SameWithout.of_not_mem {front : Lexeme} {rest : Text}
    (hextra : front.extra ≤ rest.length)
    (h : CodePoint.carriageReturn ∉ rest.take front.extra) :
    front.SameWithout front rest where
  token := rfl
  extra := by
    rw [bareLength, withoutReturns_eq_self h, List.length_take, Nat.min_eq_left hextra]

theorem stringLexeme_withoutReturns {rest : Text} (h : rest.ReturnsPaired) :
    (stringLexeme rest).SameWithout (stringLexeme rest.withoutReturns) rest := by
  have hlength := stringLength?_withoutReturns h
  rw [stringLength?, stringLength?] at hlength
  unfold stringLexeme
  cases hscan : scanString? rest with
  | none =>
      rw [hscan] at hlength
      rw [Option.map_eq_none_iff.mp hlength]
      exact ⟨rfl, by rw [bareLength, List.take_length]⟩
  | some found =>
      rw [hscan] at hlength
      obtain ⟨⟨value, length⟩, hbare, hpair⟩ := Option.map_eq_some_iff.mp hlength
      rw [hbare]
      exact ⟨rfl, hpair⟩

theorem commentLexeme_withoutReturns (rest : Text) :
    (lexeme '#' rest).SameWithout (lexeme '#' rest.withoutReturns) rest where
  token := rfl
  extra := by
    have hextra (more : Text) : (lexeme '#' more).extra =
        (more.takeWhile (· ≠ CodePoint.newline)).length := rfl
    rw [hextra, hextra, bareLength, take_length_takeWhile, takeWhile_withoutReturns]

theorem Spelled.head?_of_unterminated {spelling after : Text}
    (h : Spelled (.illegal .unterminatedString) spelling after) :
    spelling.head? = some CodePoint.quote := by
  cases h
  rfl

/-- Apart from strings and comments no lexeme goes past a carriage return, and whether a
carriage return or a line feed follows makes no difference. -/
theorem lexeme_withoutReturns_of_ne {c : CodePoint} {rest : Text} (hcomment : c ≠ '#')
    (hquote : c ≠ CodePoint.quote) (h : rest.ReturnsPaired) :
    (lexeme c rest).SameWithout (lexeme c rest.withoutReturns) rest := by
  by_cases hmem : CodePoint.carriageReturn ∈ rest
  · obtain ⟨front, after, rfl, hfront⟩ := List.eq_append_cons_of_mem hmem
    obtain ⟨more, rfl⟩ := h.of_append.exists_newline
    have hlegal : (lexeme c front).token? ≠ some (.illegal .unterminatedString) := by
      intro htoken
      have hhead := ((lexeme_describes c front).spelled _ htoken).head?_of_unterminated
      exact hquote (Option.some.inj hhead)
    have hreturn : CodePoint.carriageReturn.IsSeparator := .inr (.inr rfl)
    have hraw : lexeme c (front ++ CodePoint.carriageReturn :: CodePoint.newline :: more) =
        lexeme c front :=
      lexeme_append_separator hreturn (fun heq => absurd heq hcomment) hlegal _
    have hbare : lexeme c (withoutReturns
        (front ++ CodePoint.carriageReturn :: CodePoint.newline :: more)) = lexeme c front := by
      rw [withoutReturns_append, withoutReturns_return_cons, withoutReturns_cons (by decide),
        withoutReturns_eq_self hfront]
      exact lexeme_append_separator (.inl rfl) (fun heq => absurd heq hcomment) hlegal _
    have hextra := lexeme_extra_le c front
    rw [hraw, hbare]
    apply Lexeme.SameWithout.of_not_mem
    · rw [List.length_append]
      exact Nat.le_add_right_of_le hextra
    · rw [List.take_append_of_le_length hextra]
      exact fun hin => hfront (List.mem_of_mem_take hin)
  · rw [withoutReturns_eq_self hmem]
    apply Lexeme.SameWithout.of_not_mem (lexeme_extra_le c rest)
    exact fun hin => hmem (List.mem_of_mem_take hin)

/-- A source is cut at the same places with and without its carriage returns. -/
theorem lexeme_withoutReturns (c : CodePoint) {rest : Text} (h : rest.ReturnsPaired) :
    (lexeme c rest).SameWithout (lexeme c rest.withoutReturns) rest := by
  by_cases hcomment : c = '#'
  · rw [hcomment]
    exact commentLexeme_withoutReturns rest
  by_cases hquote : c = CodePoint.quote
  · subst hquote
    exact stringLexeme_withoutReturns h
  · exact lexeme_withoutReturns_of_ne hcomment hquote h

/-! Tokens. -/

/-- What the check sees of a token: not what a string holds, nor where on its line a line end
stands. -/
def Token.outline (token : Token) : Token :=
  ⟨token.kind.outline, if token.kind = .newline then ⟨token.pos.line, 0⟩ else token.pos⟩

theorem TokenKind.outline_eq_newline_iff {kind : TokenKind} :
    kind.outline = .newline ↔ kind = .newline := by
  cases kind <;> simp [outline]

theorem Token.outline_eq {kind kind' : TokenKind} {pos pos' : Position}
    (hkind : kind'.outline = kind.outline) (hline : pos'.line = pos.line)
    (hpos : kind ≠ .newline → pos' = pos) :
    Token.outline ⟨kind', pos'⟩ = Token.outline ⟨kind, pos⟩ := by
  by_cases hnewline : kind = .newline
  · have hnewline' : kind' = .newline := by
      rw [← TokenKind.outline_eq_newline_iff, hkind, TokenKind.outline_eq_newline_iff]
      exact hnewline
    simp only [outline, hnewline, hnewline', ↓reduceIte, hline]
  · have hnewline' : kind' ≠ .newline := by
      rw [Ne, ← TokenKind.outline_eq_newline_iff, hkind, TokenKind.outline_eq_newline_iff]
      exact hnewline
    simp only [outline, hkind, hnewline, hnewline', ↓reduceIte, hpos hnewline]

/-- Without its carriage returns a source has the same tokens, as far as the check sees
them. -/
theorem outline_tokensFrom_withoutReturns {pos bare : Position} {source : Text}
    (hpaired : source.ReturnsPaired) (hagrees : pos.Agrees source bare) :
    (tokensFrom bare source.withoutReturns).map Token.outline =
      (tokensFrom pos source).map Token.outline := by
  induction pos, source using lexemeInduction generalizing bare with
  | nil pos => rw [withoutReturns_nil, hagrees.eq_of_head_ne nofun]
  | cons pos c rest ih =>
      have hrest : c :: rest = (c :: rest.take (lexeme c rest).extra) ++
          rest.drop (lexeme c rest).extra := by
        rw [List.cons_append, List.take_append_drop]
      have hbehind : (pos.advanceBy (c :: rest.take (lexeme c rest).extra)).Agrees
          (rest.drop (lexeme c rest).extra)
          (bare.advanceBy (withoutReturns (c :: rest.take (lexeme c rest).extra))) := by
        apply Position.Agrees.advanceBy
        · rwa [← hrest]
        · rwa [← hrest]
      have hlater := ih (hpaired.2.drop _) hbehind
      by_cases hreturn : c = CodePoint.carriageReturn
      · subst hreturn
        have hlexeme : lexeme CodePoint.carriageReturn rest = ⟨none, 0⟩ := rfl
        rw [hlexeme] at hlater
        rw [tokensFrom_cons, hlexeme, withoutReturns_return_cons]
        exact hlater
      · have hsame := lexeme_withoutReturns c hpaired.2
        rw [withoutReturns_cons hreturn] at hlater ⊢
        rw [tokensFrom_cons, tokensFrom_cons, hsame.extra, take_bareLength, drop_bareLength,
          List.map_append, List.map_append, hlater]
        refine congrArg (· ++ _) ?_
        have htoken := hsame.token
        cases hfront : (lexeme c rest).token? with
        | none =>
            rw [hfront] at htoken
            rw [Option.map_eq_none_iff.mp htoken]
            rfl
        | some kind =>
            rw [hfront] at htoken
            obtain ⟨kind', hkind', houtline⟩ := Option.map_eq_some_iff.mp htoken
            have hpos : kind ≠ .newline → bare = pos := by
              intro hkind
              apply hagrees.eq_of_head_ne
              rintro ⟨⟩
              exact hkind (Option.some.inj hfront).symm
            rw [hkind']
            exact congrArg (fun token => [token]) (Token.outline_eq houtline hagrees.line hpos)

end VibeScript
