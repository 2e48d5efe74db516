import VibeScript.Proofs.Token.Spelling

/-!
Tokenizing a text line by line.

Behind a line feed the tokens are those of the rest alone, that many lines further down
(`tokensFrom_newline_cons`), and in front of it they are those of the text there, unless a string is
open at its end: `tokenize_append_newline_iff`.
-/

namespace VibeScript

/-- The position that many lines further down. -/
def Position.down (count : Nat) (pos : Position) : Position := ⟨pos.line + count, pos.column⟩

theorem Position.down_advance (count : Nat) (c : CodePoint) (pos : Position) :
    (pos.advance c).down count = (pos.down count).advance c := by
  by_cases hc : c = CodePoint.newline
  · simp only [advance, hc, ↓reduceIte, down]
    congr 1
    exact Nat.add_right_comm pos.line 1 count
  · simp only [advance, hc, ↓reduceIte, down]

/-- The tokens behind a line feed are those of the rest alone, further down. -/
theorem tokensFrom_newline_cons (before rest : Text) :
    tokensFrom (Position.start.advanceBy before) (CodePoint.newline :: rest) =
      ⟨.newline, Position.start.advanceBy before⟩ ::
        (tokenize rest).map (·.move (Position.down (before.count CodePoint.newline + 1))) := by
  have hstart : (Position.start.advanceBy before).advance CodePoint.newline =
      Position.start.down (before.count CodePoint.newline + 1) := by
    simp only [Position.advance, ↓reduceIte, Position.line_advanceBy]
    rfl
  have hdown : ∀ c ∈ rest, ∀ pos : Position, _ :=
    fun c _ pos => Position.down_advance (before.count CodePoint.newline + 1) c pos
  have hlexeme : lexeme CodePoint.newline rest = ⟨some .newline, 0⟩ := rfl
  rw [tokensFrom_cons, hlexeme, List.take_zero, List.drop_zero, Position.advanceBy_cons,
    Position.advanceBy_nil, hstart, tokensFrom_move hdown]
  rfl

/-- The mark of the end stands at the end. -/
theorem pos_of_eof_mem {pos last : Position} {source : Text}
    (hmem : ⟨.eof, last⟩ ∈ tokensFrom pos source) : last = pos.advanceBy source := by
  obtain ⟨before, after, hlexed, hpos, hlexeme⟩ := exists_lexed_of_mem_tokensFrom hmem
  rcases hlexeme with ⟨_, rfl⟩ | ⟨c, rest, _, hkind⟩
  · rw [← hlexed.append_eq, List.append_nil]
    exact hpos
  · exact absurd hkind (lexeme_token?_ne_eof c rest)

/-- A string that is never closed takes all that is left. -/
theorem drop_lexeme_of_unterminated {c : CodePoint} {rest : Text}
    (h : (lexeme c rest).token? = some (.illegal .unterminatedString)) :
    rest.drop (lexeme c rest).extra = [] := by
  have hspelled := (lexeme_describes c rest).spelled _ h
  generalize rest.drop (lexeme c rest).extra = after at hspelled
  cases hspelled
  rfl

/-- Behind a string that is never closed there is nothing but the end. -/
theorem eq_eof_of_unterminated {pos place : Position} {source : Text} {before after : List Token}
    (htokens : tokensFrom pos source =
      before ++ ⟨.illegal .unterminatedString, place⟩ :: after) :
    ∃ last, after = [⟨.eof, last⟩] := by
  induction pos, source using lexemeInduction generalizing before with
  | nil pos =>
      rw [tokensFrom, List.singleton_eq_append_iff] at htokens
      obtain ⟨_, hmark⟩ | ⟨_, hnil⟩ := htokens
      · cases hmark
      · cases hnil
  | cons pos c rest ih =>
      rw [tokensFrom_cons] at htokens
      cases hkind : (lexeme c rest).token? with
      | none =>
          rw [hkind] at htokens
          exact ih htokens
      | some kind =>
          rw [hkind] at htokens
          cases before with
          | nil =>
              obtain ⟨hfirst, hafter⟩ := List.cons.inj htokens
              cases hfirst
              rw [drop_lexeme_of_unterminated hkind, tokensFrom] at hafter
              exact ⟨_, hafter.symm⟩
          | cons first before => exact ih (List.cons.inj htokens).2

/-- In front of the token of a line feed every string is closed. -/
theorem closed_of_newline {source : Text} {place : Position} {before after : List Token}
    (htokens : tokenize source = before ++ ⟨.newline, place⟩ :: after) :
    ∀ token ∈ before, token.kind ≠ .illegal .unterminatedString := by
  rintro ⟨kind, opened⟩ hmem rfl
  obtain ⟨earlier, later, rfl⟩ := List.append_of_mem hmem
  rw [List.append_assoc, List.cons_append] at htokens
  obtain ⟨last, hlast⟩ := eq_eof_of_unterminated htokens
  have hnewline : ⟨.newline, place⟩ ∈ later ++ ⟨.newline, place⟩ :: after :=
    List.mem_append_right later List.mem_cons_self
  rw [hlast] at hnewline
  cases List.mem_singleton.mp hnewline

/-- Where every string is closed, the first text is tokenized as if it ended at the line feed. -/
theorem tokenize_append_newline_of_closed {front : Text} {tokens : List Token} {last : Position}
    (htokens : tokenize front = tokens ++ [⟨.eof, last⟩])
    (hclosed : ∀ token ∈ tokens, token.kind ≠ .illegal .unterminatedString) (back : Text) :
    tokenize (front ++ CodePoint.newline :: back) =
      tokens ++ ⟨.newline, Position.start.advanceBy front⟩ ::
        (tokenize back).map (·.move (Position.down (front.count CodePoint.newline + 1))) := by
  rw [← tokensFrom_newline_cons]
  exact tokensFrom_append_separator (.inl rfl) htokens (fun _ => rfl) hclosed back

/-- The tokens of two texts with a line feed between them are those of the first text without its
mark of the end, the line feed at the position of that mark, and those of the second text, further
down by the lines in front of them.  This is so exactly if no string is left open in the first
text. -/
theorem tokenize_append_newline_iff (front back : Text) :
    ∃ tokens, tokenize front = tokens ++ [⟨.eof, Position.start.advanceBy front⟩] ∧
      (∀ token ∈ tokens, token.kind ≠ .eof) ∧
      ((∀ token ∈ tokenize front, token.kind ≠ .illegal .unterminatedString) ↔
        tokenize (front ++ CodePoint.newline :: back) =
          tokens ++ ⟨.newline, Position.start.advanceBy front⟩ ::
            (tokenize back).map fun token => ⟨token.kind,
              ⟨token.pos.line + (front.count CodePoint.newline + 1), token.pos.column⟩⟩) := by
  obtain ⟨tokens, last, htokens, heof⟩ := exists_concat_eof Position.start front
  have hlast : last = Position.start.advanceBy front := by
    apply pos_of_eof_mem
    rw [htokens]
    exact List.mem_append_right tokens List.mem_cons_self
  subst hlast
  refine ⟨tokens, htokens, heof, ?_, ?_⟩
  · intro hclosed
    apply tokenize_append_newline_of_closed htokens
    intro token hmem
    apply hclosed
    rw [tokenize, htokens]
    exact List.mem_append_left _ hmem
  · intro hjoined token hmem
    rw [tokenize, htokens] at hmem
    rcases List.mem_append.mp hmem with hmem | hmem
    · exact closed_of_newline hjoined token hmem
    · rw [List.mem_singleton.mp hmem]
      exact nofun

end VibeScript
