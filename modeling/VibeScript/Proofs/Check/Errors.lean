import VibeScript.Check
import VibeScript.Proofs.Text.Numeral
import VibeScript.Proofs.Token.Places

/-!
What is reported about a source: every error stands at a token, and its message is a
single line that says something.
-/

namespace VibeScript

/-- An error stands at the token that shows it. -/
theorem exists_token_of_mem_errors {prev : Option Token} {stack : List Frame}
    {tokens : List Token} {e : SyntaxError}
    (he : e ∈ (checkFrom prev stack tokens).errors) :
    ∃ token ∈ tokens, e.pos = token.pos ∧
      ∃ prev stack, e.fault ∈ (checkToken prev stack token).2 := by
  induction tokens generalizing prev stack with
  | nil => simp [checkFrom] at he
  | cons token rest ih =>
      simp only [checkFrom, List.mem_append, List.mem_map] at he
      rcases he with ⟨fault, hfault, rfl⟩ | hlater
      · exact ⟨token, List.mem_cons_self, rfl, prev, stack, hfault⟩
      · obtain ⟨later, hmem, hshown⟩ := ih hlater
        exact ⟨later, List.mem_cons_of_mem token hmem, hshown⟩

/-- A token shows a fault if it is illegal, which is the fault then, or if it closes something. -/
theorem fault_cases {prev : Option Token} {stack : List Frame} {token : Token}
    {fault : SyntaxFault} (hfault : fault ∈ (checkToken prev stack token).2) :
    (∃ problem, token.kind = .illegal problem ∧ fault = .illegal problem) ∨
      (token.kind = .keyword .endWord ∨ (∃ d, token.kind = .closing d) ∨ token.kind = .eof) ∧
        ∀ problem, fault ≠ .illegal problem := by
  unfold checkToken at hfault
  split at hfault
  · next problem hkind => exact Or.inl ⟨problem, hkind, List.mem_singleton.mp hfault⟩
  · next hkind =>
      refine Or.inr ⟨Or.inl hkind, ?_⟩
      unfold closeBlock at hfault
      split at hfault
      · simp [List.mem_singleton.mp hfault]
      · split at hfault
        · cases hfault
        · simp [List.mem_singleton.mp hfault]
  · split at hfault <;> cases hfault
  · cases hfault
  · next d hkind =>
      refine Or.inr ⟨Or.inr (Or.inl ⟨d, hkind⟩), ?_⟩
      simp only [closeDelimiter] at hfault
      split at hfault
      · simp [List.mem_singleton.mp hfault]
      · split at hfault
        · cases hfault
        · simp [List.mem_singleton.mp hfault]
  · next hkind =>
      refine Or.inr ⟨Or.inr (Or.inr hkind), ?_⟩
      obtain ⟨frame, _, rfl⟩ := List.mem_map.mp hfault
      simp
  · cases hfault

/-- The token of a lexeme that shows a fault does not start with a line feed. -/
theorem ne_newline_of_fault {prev : Option Token} {stack : List Frame} {token : Token}
    {fault : SyntaxFault} {c : CodePoint} {rest : Text}
    (hlexeme : (lexeme c rest).token? = some token.kind)
    (hfault : fault ∈ (checkToken prev stack token).2) : c ≠ CodePoint.newline := by
  rintro rfl
  have hkind : TokenKind.newline = token.kind := Option.some.inj hlexeme
  rcases fault_cases hfault with ⟨_, h, _⟩ | ⟨h | ⟨_, h⟩ | h, _⟩
  all_goals
    rw [← hkind] at h
    cases h

theorem ne_nil_of_mem_errors {source : Text} {e : SyntaxError}
    (he : e ∈ (check source).errors) : source ≠ [] := by
  rintro rfl
  have hnone : (check []).errors = [] := by decide +kernel
  rw [hnone] at he
  cases he

theorem pos_liesIn_of_mem_errors {source : Text} {e : SyntaxError}
    (he : e ∈ (check source).errors) : e.pos.LiesIn source := by
  obtain ⟨token, htoken, hpos, _⟩ := exists_token_of_mem_errors he
  exact hpos ▸ pos_liesIn_of_mem_tokenize htoken

theorem newline_not_mem_hexadecimal (width n : Nat) :
    CodePoint.newline ∉ hexadecimal width n := by
  induction width generalizing n with
  | zero => exact List.not_mem_nil
  | succ width ih =>
      have hdigit : ∀ d < 16, hexChar d ≠ CodePoint.newline := by decide
      rw [hexadecimal, List.mem_append, List.mem_singleton, not_or]
      exact ⟨ih (n / 16), Ne.symm (hdigit _ (Nat.mod_lt n (by decide)))⟩

theorem newline_not_mem_escape {t : Text} (ht : CodePoint.newline ∉ t) :
    CodePoint.newline ∉ CodePoint.backslash :: t := by
  rw [List.mem_cons, not_or]
  exact ⟨by decide, ht⟩

theorem newline_not_mem_hexEscape {d : CodePoint} (hd : CodePoint.newline ≠ d)
    (width n : Nat) : CodePoint.newline ∉ CodePoint.backslash :: d :: hexadecimal width n := by
  apply newline_not_mem_escape
  rw [List.mem_cons, not_or]
  exact ⟨hd, newline_not_mem_hexadecimal width n⟩

/-- A line feed is written as an escape, so no quoted character breaks the line. -/
theorem newline_not_mem_quotedChar {mark : CodePoint} (hmark : CodePoint.newline ≠ mark)
    (c : CodePoint) : CodePoint.newline ∉ quotedChar mark c := by
  unfold quotedChar
  split
  case isTrue hself =>
    apply newline_not_mem_escape
    rw [List.mem_singleton]
    rintro rfl
    rcases hself with rfl | hself
    · exact hmark rfl
    · exact absurd hself (by decide)
  split
  · decide
  split
  · decide
  case isFalse hnewline =>
    split
    · decide
    split
    · rw [List.mem_singleton]
      exact Ne.symm hnewline
    split
    · exact newline_not_mem_hexEscape (by decide) 2 c.val
    split
    · exact newline_not_mem_hexEscape (by decide) 4 c.val
    · exact newline_not_mem_hexEscape (by decide) 8 c.val

/-- Quoted text stays on one line, whatever it holds. -/
theorem newline_not_mem_quoted (t : Text) : CodePoint.newline ∉ t.quoted := by
  have hmark : CodePoint.newline ≠ enclosingMark t := by
    unfold enclosingMark
    split <;> decide
  simp only [Text.quoted, List.cons_append, List.mem_cons, List.mem_append, List.mem_flatMap,
    List.not_mem_nil, or_false, not_or, not_exists, not_and]
  exact ⟨hmark, fun c _ => newline_not_mem_quotedChar hmark c, hmark⟩

theorem Keyword.newline_not_mem_spelling (word : Keyword) :
    CodePoint.newline ∉ word.spelling := by
  cases word <;> decide

theorem Opener.newline_not_mem_spelling (opener : Opener) :
    CodePoint.newline ∉ opener.spelling := by
  cases opener with
  | block word => exact word.newline_not_mem_spelling
  | delimiter d => cases d <;> decide

theorem Closer.newline_not_mem_spelling (closer : Closer) :
    CodePoint.newline ∉ closer.spelling := by
  rcases closer with _ | d
  · decide
  · cases d <;> decide

/-- A message is a single line. -/
theorem SyntaxFault.newline_not_mem_message (fault : SyntaxFault) :
    CodePoint.newline ∉ fault.message := by
  cases fault with
  | illegal problem =>
      cases problem with
      | unterminatedString => decide
      | unexpectedCharacter c =>
          have hquoted := newline_not_mem_quoted [c]
          simp only [message, LexicalProblem.message, List.mem_append, not_or]
          exact ⟨by decide, hquoted⟩
  | unexpected got =>
      have hgot := got.newline_not_mem_spelling
      simp only [message, List.mem_append, not_or]
      exact ⟨⟨by decide, hgot⟩, by decide⟩
  | mismatched expected got =>
      have hexpected := expected.newline_not_mem_spelling
      have hgot := got.newline_not_mem_spelling
      simp only [message, List.mem_append, not_or]
      exact ⟨⟨⟨⟨by decide, hexpected⟩, by decide⟩, hgot⟩, by decide⟩
  | unclosed frame =>
      have hcloser := frame.opener.closer.newline_not_mem_spelling
      have hopener := frame.opener.newline_not_mem_spelling
      have hline : CodePoint.newline ∉ decimal frame.line := not_mem_decimal (by decide) _
      simp only [message, List.mem_append, not_or]
      exact ⟨⟨⟨⟨⟨⟨by decide, hcloser⟩, by decide⟩, hopener⟩, by decide⟩, hline⟩, by decide⟩

theorem SyntaxFault.message_ne_nil (fault : SyntaxFault) : fault.message ≠ [] := by
  rcases fault with (_ | c) | got | ⟨expected, got⟩ | frame <;>
    simp [message, LexicalProblem.message, text]

end VibeScript
