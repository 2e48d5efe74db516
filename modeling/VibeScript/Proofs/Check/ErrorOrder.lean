import VibeScript.Proofs.Check.Blocks
import VibeScript.Proofs.Check.Errors
import VibeScript.Proofs.Token.Order

/-!
The order of the errors of a source.

The tokens of a source stand one behind the other, and each but the mark of the end shows one
fault at most (`length_faults_le_one`).  So the errors at the position of a token are those that
it shows (`errors_filter_of_ordered`), and they come in the order of the source.  The mark of the
end shows one fault for every frame that is left open, and such a frame was opened by a token
that the error names (`errors_in_source_order`).
-/

namespace VibeScript

section Steps

variable {prev : Option Token} {stack : List Frame} {token : Token}

theorem length_faults_closeBlock_le (stack : List Frame) : (closeBlock stack).2.length ≤ 1 := by
  unfold closeBlock
  split
  · exact Nat.le.refl
  · split
    · exact Nat.zero_le 1
    · exact Nat.le.refl

theorem length_faults_closeDelimiter_le (d : Delimiter) (stack : List Frame) :
    (closeDelimiter d stack).2.length ≤ 1 := by
  simp only [closeDelimiter]
  split
  · exact Nat.le.refl
  · split
    · exact Nat.zero_le 1
    · exact Nat.le.refl

/-- Only at the end of the source there is more than one fault to show. -/
theorem length_faults_le_one (heof : token.kind ≠ .eof) :
    (checkToken prev stack token).2.length ≤ 1 := by
  rcases token with ⟨kind, pos⟩
  cases kind with
  | keyword word =>
      by_cases hend : word = .endWord
      · subst hend
        exact length_faults_closeBlock_le stack
      · rw [checkToken_keyword hend]
        split <;> exact Nat.zero_le 1
  | closing d => exact length_faults_closeDelimiter_le d stack
  | illegal problem => exact Nat.le.refl
  | eof => exact absurd rfl heof
  | _ => exact Nat.zero_le 1

/-- A frame that is open behind a token was open in front of it, or the token opened it. -/
theorem opens_of_mem_checkToken {frame : Frame} (hmem : frame ∈ (checkToken prev stack token).1) :
    frame ∈ stack ∨ Opens stack.head? prev token frame.opener ∧ token.pos.line = frame.line := by
  rcases token with ⟨kind, pos⟩
  cases kind with
  | keyword word =>
      by_cases hend : word = .endWord
      · subst hend
        refine .inl ?_
        change frame ∈ (closeBlock stack).1 at hmem
        rcases exists_innermost_block stack with hnone | ⟨inner, block, below, rfl, hinner, hblock⟩
        · rw [closeBlock_of_no_block hnone] at hmem
          cases hmem
        · rw [closeBlock_append hinner hblock] at hmem
          exact List.mem_append_right _ (List.mem_cons_of_mem block hmem)
      · rw [checkToken_keyword hend] at hmem
        split at hmem
        case isTrue hopens =>
          rcases List.mem_cons.mp hmem with rfl | hmem
          · exact .inr ⟨opensFrame_iff.mp hopens, rfl⟩
          · exact .inl hmem
        case isFalse => exact .inl hmem
  | opening d =>
      rcases List.mem_cons.mp hmem with rfl | hmem
      · exact .inr ⟨.bracket d pos, rfl⟩
      · exact .inl hmem
  | closing d =>
      obtain ⟨removed, hstack, _⟩ := exists_removed_of_closeDelimiter d stack
      rw [hstack]
      exact .inl (List.mem_append_right _ hmem)
  | eof => cases hmem
  | _ => exact .inl hmem

end Steps

section Runs

variable {prev : Option Token} {stack : List Frame} {tokens : List Token}

/-- A frame that is open behind some tokens was open in front of them, or one of them opened
it. -/
theorem exists_opening_of_mem_stackAfter {frame : Frame}
    (hmem : frame ∈ stackAfter prev stack tokens) :
    frame ∈ stack ∨ ∃ before opening after, tokens = before ++ opening :: after ∧
      Opens (stackAfter prev stack before).head? (before.getLast?.or prev) opening frame.opener ∧
      opening.pos.line = frame.line := by
  induction tokens generalizing prev stack with
  | nil => exact .inl hmem
  | cons token rest ih =>
      rcases ih hmem with hhere | ⟨before, opening, after, rfl, hopens, hline⟩
      · apply (opens_of_mem_checkToken hhere).imp_right
        rintro ⟨hopens, hline⟩
        exact ⟨[], token, rest, rfl, hopens, hline⟩
      · refine .inr ⟨token :: before, opening, after, rfl, ?_, hline⟩
        rw [stackAfter_cons, List.getLast?_cons]
        cases hlast : before.getLast? <;> simpa [hlast] using hopens

/-- The errors of tokens that stand one behind the other come in that order, as long as the
end is not reached. -/
theorem errors_ordered (hordered : tokens.Pairwise (·.pos.Before ·.pos))
    (heof : ∀ token ∈ tokens, token.kind ≠ .eof) :
    (checkFrom prev stack tokens).errors.Pairwise (·.pos.Before ·.pos) := by
  induction tokens generalizing prev stack with
  | nil => exact .nil
  | cons token rest ih =>
      obtain ⟨hfirst, hrest⟩ := List.pairwise_cons.mp hordered
      have hfaults : (checkToken prev stack token).2.length ≤ 1 :=
        length_faults_le_one (heof token List.mem_cons_self)
      rw [checkFrom]
      apply List.pairwise_append.mpr
      refine ⟨?_, ih hrest fun later hmem => heof later (List.mem_cons_of_mem token hmem), ?_⟩
      · apply List.pairwise_map.mpr
        rcases hlist : (checkToken prev stack token).2 with _ | ⟨fault, _ | ⟨next, more⟩⟩
        · exact .nil
        · exact List.pairwise_singleton _ _
        · rw [hlist] at hfaults
          simp at hfaults
      · intro e he later hlater
        obtain ⟨fault, _, rfl⟩ := List.mem_map.mp he
        obtain ⟨other, hmem, hpos, _⟩ := exists_token_of_mem_errors hlater
        rw [hpos]
        exact hfirst other hmem

/-- The errors of a token stand behind those of the tokens in front of it. -/
theorem errors_checkFrom_append_cons (prev : Option Token) (stack : List Frame)
    (before : List Token) (token : Token) (after : List Token) :
    (checkFrom prev stack (before ++ token :: after)).errors =
      (checkFrom prev stack before).errors ++
        ((checkToken (before.getLast?.or prev) (stackAfter prev stack before) token).2.map
            (⟨·, token.pos⟩) ++
          (checkFrom (some token)
            (checkToken (before.getLast?.or prev) (stackAfter prev stack before) token).1
            after).errors) := by
  rw [errors_checkFrom_append, checkFrom]

/-- At the end the errors of the frames that are left open come behind all others. -/
theorem errors_checkFrom_concat_eof (last : Position) :
    (checkFrom prev stack (tokens ++ [⟨.eof, last⟩])).errors =
      (checkFrom prev stack tokens).errors ++
        (stackAfter prev stack tokens).map (⟨.unclosed ·, last⟩) := by
  rw [errors_checkFrom_append_cons]
  simp [checkToken, checkFrom]

/-- At a position where no token stands there is no error. -/
theorem errors_filter_eq_nil {pos : Position} (h : ∀ token ∈ tokens, token.pos ≠ pos) :
    (checkFrom prev stack tokens).errors.filter (·.pos = pos) = [] := by
  apply List.filter_eq_nil_iff.mpr
  intro e he
  obtain ⟨token, hmem, hpos, _⟩ := exists_token_of_mem_errors he
  simpa [hpos] using h token hmem

/-- Where tokens stand one behind the other, the errors at the position of a token are those
that it shows. -/
theorem errors_filter_of_ordered {before after : List Token} {token : Token}
    (hordered : (before ++ token :: after).Pairwise (·.pos.Before ·.pos)) :
    (checkFrom prev stack (before ++ token :: after)).errors.filter (·.pos = token.pos) =
      (checkToken (before.getLast?.or prev) (stackAfter prev stack before) token).2.map
        (⟨·, token.pos⟩) := by
  obtain ⟨_, htail, hacross⟩ := List.pairwise_append.mp hordered
  obtain ⟨hbehind, _⟩ := List.pairwise_cons.mp htail
  have hbefore : ∀ other ∈ before, other.pos ≠ token.pos := fun other hmem =>
    (hacross other hmem token List.mem_cons_self).ne
  have hafter : ∀ other ∈ after, other.pos ≠ token.pos := fun other hmem =>
    (hbehind other hmem).ne.symm
  have hhere (faults : List SyntaxFault) :
      (faults.map (SyntaxError.mk · token.pos)).filter (·.pos = token.pos) =
        faults.map (⟨·, token.pos⟩) := by
    apply List.filter_eq_self.mpr
    intro e he
    obtain ⟨fault, _, rfl⟩ := List.mem_map.mp he
    simp
  rw [errors_checkFrom_append_cons, List.filter_append, List.filter_append,
    errors_filter_eq_nil hbefore, hhere, errors_filter_eq_nil hafter, List.nil_append,
    List.append_nil]

end Runs

/-! What an error at the end says about a frame that is left open. -/

/-- The token that opens a frame is spelled like the opener of the frame. -/
theorem Opens.value_eq {inner : Option Frame} {prev : Option Token} {token : Token}
    {opener : Opener} (h : Opens inner prev token opener) :
    token.kind.value = opener.spelling := by
  cases h <;> rfl

theorem Closes.value_eq {opener : Opener} {token : Token} (h : Closes opener token) :
    token.kind.value = opener.closer.spelling := by
  cases h <;> rfl

theorem exists_closes (opener : Opener) : ∃ closing, Closes opener closing := by
  cases opener with
  | block word => exact ⟨_, .block word Position.start⟩
  | delimiter d => exact ⟨_, .bracket d Position.start⟩

/-- The error of a frame that is left open spells the tokens that open and close the frame. -/
theorem message_unclosed {inner : Option Frame} {prev : Option Token} {frame : Frame}
    {opening closing : Token} (hopens : Opens inner prev opening frame.opener)
    (hline : opening.pos.line = frame.line) (hcloses : Closes frame.opener closing) :
    (SyntaxFault.unclosed frame).message =
      "expected '" ++ closing.kind.value ++ "' to close '" ++ opening.kind.value ++
        "' from line " ++ decimal opening.pos.line ++ ", got end of input" := by
  rw [SyntaxFault.message, hopens.value_eq, hcloses.value_eq, hline]

/-- The errors of a source come in its order.  Each stands at a token: in front of the end at
most one at every token, and exactly one at an illegal token, which says what is wrong with it;
at the end one for each frame that is left open, the innermost first, which names the token that
opened the frame, its line and the token that would close it. -/
theorem errors_in_source_order (source : Text) :
    ∃ tokens last, tokenize source = tokens ++ [⟨.eof, last⟩] ∧
      (∀ token ∈ tokens, token.kind ≠ .eof) ∧
      let errors := (check source).errors
      let left := stackAfter none [] tokens
      (∃ shown, errors = shown ++ left.map (⟨.unclosed ·, last⟩) ∧
        shown.Pairwise (·.pos.Before ·.pos) ∧
        ∀ e ∈ shown, e.pos.Before last ∧ ∃ token ∈ tokens, e.pos = token.pos) ∧
      errors.filter (·.pos = last) = left.map (⟨.unclosed ·, last⟩) ∧
      (∀ before token after, tokens = before ++ token :: after →
        errors.filter (·.pos = token.pos) =
            (checkToken before.getLast? (stackAfter none [] before) token).2.map
              (⟨·, token.pos⟩) ∧
          (errors.filter (·.pos = token.pos)).length ≤ 1 ∧
          ∀ problem, token.kind = .illegal problem →
            ∃ e, errors.filter (·.pos = token.pos) = [e] ∧ e.fault.message = token.kind.value) ∧
      ∀ frame ∈ left, ∃ before opening after closing, tokens = before ++ opening :: after ∧
        Opens (stackAfter none [] before).head? before.getLast? opening frame.opener ∧
        opening.pos.line = frame.line ∧ Closes frame.opener closing ∧
        (SyntaxFault.unclosed frame).message =
          "expected '" ++ closing.kind.value ++ "' to close '" ++ opening.kind.value ++
            "' from line " ++ decimal opening.pos.line ++ ", got end of input" := by
  obtain ⟨tokens, last, htokens, heof⟩ := exists_concat_eof Position.start source
  have hordered := tokenize_ordered source
  rw [tokenize, htokens] at hordered
  obtain ⟨hfront, _, hlast⟩ := List.pairwise_append.mp hordered
  refine ⟨tokens, last, htokens, heof, ?_, ?_, ?_, ?_⟩
  · refine ⟨(checkFrom none [] tokens).errors, ?_, errors_ordered hfront heof, ?_⟩
    · rw [check, tokenize, htokens, errors_checkFrom_concat_eof]
    · intro e he
      obtain ⟨token, hmem, hpos, _⟩ := exists_token_of_mem_errors he
      refine ⟨?_, token, hmem, hpos⟩
      rw [hpos]
      exact hlast token hmem _ List.mem_cons_self
  · have hend : (checkFrom none [] (tokens ++ [⟨.eof, last⟩])).errors.filter (·.pos = last) = _ :=
      errors_filter_of_ordered hordered
    rw [check, tokenize, htokens, hend, checkToken, List.map_map]
    rfl
  · rintro before token after rfl
    have hfaults : (check source).errors.filter (·.pos = token.pos) =
        (checkToken before.getLast? (stackAfter none [] before) token).2.map
          (⟨·, token.pos⟩) := by
      rw [List.append_assoc, List.cons_append] at hordered htokens
      rw [check, tokenize, htokens, errors_filter_of_ordered hordered, Option.or_none]
    refine ⟨hfaults, ?_, ?_⟩
    · rw [hfaults, List.length_map]
      exact length_faults_le_one (heof token (List.mem_append_right _ List.mem_cons_self))
    · intro problem hkind
      refine ⟨⟨.illegal problem, token.pos⟩, ?_, ?_⟩
      · rw [hfaults, checkToken, hkind]
        rfl
      · rw [hkind]
        rfl
  · intro frame hmem
    rcases exists_opening_of_mem_stackAfter hmem with hnone |
      ⟨before, opening, after, hsplit, hopens, hline⟩
    · cases hnone
    obtain ⟨closing, hcloses⟩ := exists_closes frame.opener
    rw [Option.or_none] at hopens
    exact ⟨before, opening, after, closing, hsplit, hopens, hline, hcloses,
      message_unclosed hopens hline hcloses⟩

end VibeScript
