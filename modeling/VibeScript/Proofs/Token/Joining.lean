import VibeScript.Proofs.Text.Lines
import VibeScript.Proofs.Token.Lexemes

/-!
The tokens of two texts with a separator between them.

No lexeme but an unterminated string looks behind a separator (`lexeme_append_separator`),
so the tokens of `s ++ separator :: t` are those of `s`, its end mark left out, and those of
the rest (`tokensFrom_append_separator`).  The tokens of the rest start at a later position,
and where they start changes nothing else about them (`tokensFrom_move`).
-/

namespace VibeScript

/-! Lexemes stay inside their source. -/

theorem length_takeWhile_le (p : CodePoint → Bool) (rest : Text) :
    (rest.takeWhile p).length ≤ rest.length :=
  (List.takeWhile_prefix p).length_le

theorem scanString?_length_le {rest value : Text} {length : Nat}
    (h : scanString? rest = some (value, length)) : length ≤ rest.length := by
  fun_induction scanString? rest generalizing value length with
  | case1 => cases h
  | case2 => cases h; exact Nat.le.refl
  | case3 c hc => cases h
  | case4 d rest ih =>
      obtain ⟨⟨inner, taken⟩, hinner, hpair⟩ := Option.map_eq_some_iff.mp h
      cases hpair
      have := ih hinner
      simp only [List.length_cons]
      omega
  | case5 => cases h; simp
  | case6 c d rest hslash hquote ih =>
      obtain ⟨⟨inner, taken⟩, hinner, hpair⟩ := Option.map_eq_some_iff.mp h
      cases hpair
      exact Nat.succ_le_succ (ih hinner)

theorem scanNumber_length_le (hasPoint : Bool) (rest : Text) :
    (scanNumber hasPoint rest).1 ≤ rest.length := by
  fun_induction scanNumber hasPoint rest with
  | case1 => exact Nat.le.refl
  | case2 hasPoint c rest h length point hrest ih =>
      rw [hrest] at ih
      exact Nat.succ_le_succ ih
  | case3 hasPoint c rest h hpoint length point hrest ih =>
      rw [hrest] at ih
      exact Nat.succ_le_succ ih
  | case4 => exact Nat.zero_le _

theorem lt_length_of_takesSuffix {rest : Text} {body : Nat}
    (h : takesSuffix (rest.drop body) = true) : body < rest.length := by
  rcases Nat.lt_or_ge body rest.length with hlt | hle
  · exact hlt
  · rw [List.drop_eq_nil_of_le hle] at h
    cases h

theorem length_of_mem_twoCharOperators {spelling : Text} (h : spelling ∈ twoCharOperators) :
    spelling.length = 2 := by
  revert spelling
  decide

/-- A lexeme takes no more than there is. -/
theorem lexeme_extra_le (c : CodePoint) (rest : Text) : (lexeme c rest).extra ≤ rest.length := by
  have hstring : (stringLexeme rest).extra ≤ rest.length := by
    unfold stringLexeme
    split
    · next hscan => exact scanString?_length_le hscan
    · exact Nat.le.refl
  have hvariable : (variableLexeme rest).extra ≤ rest.length := by
    cases rest with
    | nil => exact Nat.le.refl
    | cons d more =>
        simp only [variableLexeme, List.tail_cons]
        repeat' split
        · exact Nat.zero_le _
        · exact Nat.succ_le_succ (length_takeWhile_le _ more)
        · exact Nat.zero_le _
        · exact length_takeWhile_le _ (d :: more)
  have hword : (wordLexeme c rest).extra ≤ rest.length := by
    have hextra : (wordLexeme c rest).extra =
        let body := (rest.takeWhile (·.isIdentifierChar)).length
        if takesSuffix (rest.drop body) then body + 1 else body := by
      simp only [wordLexeme]
      split <;> rfl
    rw [hextra]
    dsimp only
    split
    · next hsuffix => exact lt_length_of_takesSuffix hsuffix
    · exact length_takeWhile_le _ rest
  have hoperator : (operatorLexeme c rest).extra ≤ rest.length := by
    unfold operatorLexeme
    split
    · next hdouble =>
        cases rest with
        | nil => exact absurd (length_of_mem_twoCharOperators hdouble) (by simp)
        | cons d more => exact Nat.succ_le_succ (Nat.zero_le _)
    repeat' split
    all_goals exact Nat.zero_le _
  unfold lexeme
  repeat' split
  all_goals first
    | assumption
    | exact Nat.zero_le _
    | exact length_takeWhile_le _ rest
    | exact scanNumber_length_le false rest

theorem tokensFrom_cons (pos : Position) (c : CodePoint) (rest : Text) :
    tokensFrom pos (c :: rest) = ((lexeme c rest).token?.map (⟨·, pos⟩)).toList ++
      tokensFrom (pos.advanceBy (c :: rest.take (lexeme c rest).extra))
        (rest.drop (lexeme c rest).extra) := by
  rw [tokensFrom]
  cases (lexeme c rest).token? <;> rfl

/-- Induction along the lexemes of a source, whether they give a token or not. -/
@[elab_as_elim]
theorem lexemeInduction {motive : Position → Text → Prop} (nil : ∀ pos, motive pos [])
    (cons : ∀ pos c rest, motive (pos.advanceBy (c :: rest.take (lexeme c rest).extra))
      (rest.drop (lexeme c rest).extra) → motive pos (c :: rest)) (pos : Position)
    (source : Text) : motive pos source :=
  tokensFrom.induct motive nil (fun pos c rest _ _ => cons pos c rest)
    (fun pos c rest _ => cons pos c rest) pos source

/-- A string that ends does not look behind its end. -/
theorem scanString?_append {rest value : Text} {length : Nat}
    (h : scanString? rest = some (value, length)) (more : Text) :
    scanString? (rest ++ more) = some (value, length) := by
  have hslash : CodePoint.quote ≠ CodePoint.backslash := by decide
  fun_induction scanString? rest generalizing value length with
  | case1 => cases h
  | case2 =>
      cases h
      cases more with
      | nil => rfl
      | cons d more => simp [scanString?, hslash]
  | case3 c hc => cases h
  | case4 d rest ih =>
      obtain ⟨⟨inner, taken⟩, hinner, hpair⟩ := Option.map_eq_some_iff.mp h
      cases hpair
      simp [scanString?, ih hinner]
  | case5 =>
      cases h
      simp [scanString?, hslash]
  | case6 c d rest hescape hquote ih =>
      obtain ⟨⟨inner, taken⟩, hinner, hpair⟩ := Option.map_eq_some_iff.mp h
      cases hpair
      have hmore := ih hinner
      rw [List.cons_append] at hmore
      simp [scanString?, hescape, hquote, hmore]

/-- A character that ends every lexeme in front of it, strings and comments apart. -/
def CodePoint.IsSeparator (c : CodePoint) : Prop :=
  c = CodePoint.newline ∨ c = CodePoint.space ∨ c = CodePoint.carriageReturn

section Separators

theorem takeWhile_append_cons_of_neg {p : CodePoint → Bool} {c : CodePoint} (h : p c = false)
    (rest more : Text) : (rest ++ c :: more).takeWhile p = rest.takeWhile p := by
  induction rest with
  | nil => rw [List.nil_append, List.takeWhile_cons_of_neg (by simp [h]), List.takeWhile_nil]
  | cons d rest ih => rw [List.cons_append, List.takeWhile_cons, List.takeWhile_cons, ih]

variable {separator : CodePoint} (hseparator : separator.IsSeparator)
include hseparator

theorem isIdentifierChar_separator : separator.isIdentifierChar = false := by
  rcases hseparator with rfl | rfl | rfl <;> decide

theorem takesSuffix_append_separator (rest more : Text) :
    takesSuffix (rest ++ separator :: more) = takesSuffix rest := by
  rcases rest with _ | ⟨c, _ | ⟨d, rest⟩⟩
  · rcases hseparator with rfl | rfl | rfl <;> rfl
  · rcases hseparator with rfl | rfl | rfl <;> rfl
  · rfl

theorem startsWithDigit_append_separator (rest more : Text) :
    startsWithDigit (rest ++ separator :: more) = startsWithDigit rest := by
  cases rest with
  | nil =>
      have hdigit : separator.isDigit = false := by
        rcases hseparator with rfl | rfl | rfl <;> decide
      exact hdigit
  | cons c rest => rfl

theorem scanNumber_append_separator (hasPoint : Bool) (rest more : Text) :
    scanNumber hasPoint (rest ++ separator :: more) = scanNumber hasPoint rest := by
  induction rest generalizing hasPoint with
  | nil =>
      have hdigit : separator.isDigit = false := by
        rcases hseparator with rfl | rfl | rfl <;> decide
      have hunderscore : separator ≠ '_' := by
        rcases hseparator with rfl | rfl | rfl <;> decide
      have hpoint : separator ≠ '.' := by
        rcases hseparator with rfl | rfl | rfl <;> decide
      simp [scanNumber, hdigit, hunderscore, hpoint]
  | cons c rest ih =>
      simp only [List.cons_append, scanNumber, ih, startsWithDigit_append_separator hseparator]

theorem variableLexeme_append_separator (rest more : Text) :
    variableLexeme (rest ++ separator :: more) = variableLexeme rest := by
  have hchar := isIdentifierChar_separator hseparator
  cases rest with
  | nil =>
      have hmark : separator ≠ '@' := by
        rcases hseparator with rfl | rfl | rfl <;> decide
      simp [variableLexeme, hmark, hchar]
  | cons c rest =>
      have htail := takeWhile_append_cons_of_neg hchar rest more
      have hall := takeWhile_append_cons_of_neg hchar (c :: rest) more
      rw [List.cons_append] at hall
      by_cases hdoubled : c = '@'
      · simp [variableLexeme, hdoubled, htail]
      · simp [variableLexeme, hdoubled, hall]

theorem wordLexeme_append_separator (c : CodePoint) (rest more : Text) :
    wordLexeme c (rest ++ separator :: more) = wordLexeme c rest := by
  have hbody := length_takeWhile_le (·.isIdentifierChar) rest
  have hextra : (if takesSuffix (rest.drop (rest.takeWhile (·.isIdentifierChar)).length) then
      (rest.takeWhile (·.isIdentifierChar)).length + 1
      else (rest.takeWhile (·.isIdentifierChar)).length) ≤ rest.length := by
    split
    · next hsuffix => exact lt_length_of_takesSuffix hsuffix
    · exact hbody
  simp only [wordLexeme, takeWhile_append_cons_of_neg (isIdentifierChar_separator hseparator),
    List.drop_append_of_le_length hbody, takesSuffix_append_separator hseparator,
    List.take_append_of_le_length hextra]

theorem operatorLexeme_append_separator (c : CodePoint) (rest more : Text) :
    operatorLexeme c (rest ++ separator :: more) = operatorLexeme c rest := by
  cases rest with
  | nil =>
      have hlast : ∀ spelling ∈ twoCharOperators, ¬ [separator] <:+ spelling := by
        rcases hseparator with rfl | rfl | rfl <;> decide
      have hpair : [c, separator] ∉ twoCharOperators := fun h => hlast _ h ⟨[c], rfl⟩
      have hsingle : [c] ∉ twoCharOperators := fun h => by
        cases length_of_mem_twoCharOperators h
      simp [operatorLexeme, hpair, hsingle]
  | cons d rest => rfl

/-- A lexeme does not look behind a separator.  A comment goes on behind a space, and an
unterminated string goes on in any case. -/
theorem lexeme_append_separator {c : CodePoint} {rest : Text}
    (hcomment : c = '#' → separator = CodePoint.newline)
    (hstring : (lexeme c rest).token? ≠ some (.illegal .unterminatedString)) (more : Text) :
    lexeme c (rest ++ separator :: more) = lexeme c rest := by
  have hchar := isIdentifierChar_separator hseparator
  have hstart : ((rest ++ separator :: more).head?.any (·.isIdentifierStart)) =
      (rest.head?.any (·.isIdentifierStart)) := by
    cases rest with
    | nil =>
        have hseparatorStart : separator.isIdentifierStart = false := by
          rcases hseparator with rfl | rfl | rfl <;> decide
        simp [hseparatorStart]
    | cons d rest => rfl
  have hsymbol := takeWhile_append_cons_of_neg hchar rest more
  unfold lexeme at hstring ⊢
  rw [hstart, hsymbol, variableLexeme_append_separator hseparator,
    wordLexeme_append_separator hseparator, operatorLexeme_append_separator hseparator]
  split
  · rfl
  split
  · rfl
  split
  · next hc =>
    obtain rfl := hcomment hc
    rw [takeWhile_append_cons_of_neg (by simp)]
  split
  · next hnewline hblank hhash hquote =>
    rw [if_neg hnewline, if_neg hblank, if_neg hhash, if_pos hquote] at hstring
    unfold stringLexeme at hstring ⊢
    split at hstring
    · next value length hscan => 
      rw [scanString?_append hscan]
    · exact absurd rfl hstring
  split
  · rfl
  split
  · rfl
  split
  · rfl
  split
  · rw [numberLexeme, numberLexeme, scanNumber_append_separator hseparator]
    simp only [List.take_append_of_le_length (scanNumber_length_le false rest)]
  · rfl

/-- The tokens in front of a separator are those of the text in front of it. -/
theorem tokensFrom_append_separator {pos : Position} {source : Text} {tokens : List Token}
    {last : Position} (htokens : tokensFrom pos source = tokens ++ [⟨.eof, last⟩])
    (hcomment : CodePoint.ofChar '#' ∈ source → separator = CodePoint.newline)
    (hstring : ∀ token ∈ tokens, token.kind ≠ .illegal .unterminatedString) (more : Text) :
    tokensFrom pos (source ++ separator :: more) =
      tokens ++ tokensFrom (pos.advanceBy source) (separator :: more) := by
  induction pos, source using lexemeInduction generalizing tokens last with
  | nil pos =>
      rw [tokensFrom, List.singleton_eq_append_iff] at htokens
      obtain ⟨rfl, _⟩ | ⟨_, hnil⟩ := htokens
      · rfl
      · cases hnil
  | cons pos c rest ih =>
      obtain ⟨later, mark, hlater, _⟩ := exists_concat_eof
        (pos.advanceBy (c :: rest.take (lexeme c rest).extra))
        (rest.drop (lexeme c rest).extra)
      rw [tokensFrom_cons, hlater, ← List.append_assoc] at htokens
      obtain ⟨rfl, _⟩ := List.append_inj' htokens rfl
      have hextra := lexeme_extra_le c rest
      have hlegal : (lexeme c rest).token? ≠ some (.illegal .unterminatedString) := by
        intro hkind
        refine hstring ⟨_, pos⟩ ?_ rfl
        rw [hkind]
        exact List.mem_cons_self
      have hadvance : (pos.advanceBy (c :: rest.take (lexeme c rest).extra)).advanceBy
          (rest.drop (lexeme c rest).extra) = pos.advanceBy (c :: rest) := by
        rw [← Position.advanceBy_append, List.cons_append, List.take_append_drop]
      rw [List.cons_append, tokensFrom_cons, lexeme_append_separator hseparator _ hlegal,
        List.take_append_of_le_length hextra, List.drop_append_of_le_length hextra,
        ih hlater, hadvance, List.append_assoc]
      · intro hmem
        exact hcomment (List.mem_cons_of_mem c (List.mem_of_mem_drop hmem))
      · intro token htoken
        exact hstring token (List.mem_append_right _ htoken)
      · rintro rfl
        exact hcomment List.mem_cons_self

end Separators

/-- A token at another position. -/
def Token.move (f : Position → Position) (token : Token) : Token := ⟨token.kind, f token.pos⟩

theorem Position.move_advanceBy {f : Position → Position} {t : Text}
    (hf : ∀ c ∈ t, ∀ pos, f (pos.advance c) = (f pos).advance c) (pos : Position) :
    f (pos.advanceBy t) = (f pos).advanceBy t := by
  induction t generalizing pos with
  | nil => rfl
  | cons c t ih =>
      have hrest : ∀ d ∈ t, ∀ pos, f (pos.advance d) = (f pos).advance d :=
        fun d hd => hf d (List.mem_cons_of_mem c hd)
      rw [advanceBy_cons, ih hrest, hf c List.mem_cons_self, advanceBy_cons]

/-- Where a source starts decides on the positions of its tokens and on nothing else. -/
theorem tokensFrom_move {f : Position → Position} {source : Text}
    (hf : ∀ c ∈ source, ∀ pos, f (pos.advance c) = (f pos).advance c) (pos : Position) :
    tokensFrom (f pos) source = (tokensFrom pos source).map (·.move f) := by
  induction pos, source using lexemeInduction with
  | nil pos => rw [tokensFrom, tokensFrom, List.map_singleton, Token.move]
  | cons pos c rest ih =>
      have hfront : ∀ d ∈ c :: rest.take (lexeme c rest).extra, ∀ pos,
          f (pos.advance d) = (f pos).advance d := by
        intro d hd
        have hprefix := List.take_prefix (lexeme c rest).extra rest
        exact hf d (List.cons_subset_cons c hprefix.subset hd)
      have hlater : ∀ d ∈ rest.drop (lexeme c rest).extra, ∀ pos,
          f (pos.advance d) = (f pos).advance d :=
        fun d hd => hf d (List.mem_cons_of_mem c (List.mem_of_mem_drop hd))
      rw [tokensFrom_cons, tokensFrom_cons, ← Position.move_advanceBy hfront, ih hlater,
        List.map_append]
      cases (lexeme c rest).token? <;> rfl

end VibeScript
