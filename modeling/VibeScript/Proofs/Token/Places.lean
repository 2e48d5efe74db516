import VibeScript.Proofs.Text.Lines
import VibeScript.Proofs.Token.Lexemes

/-!
Every token stands at a place of its source.
-/

namespace VibeScript

/-- A token stands where the characters in front of it lead. -/
theorem exists_prefix_of_mem_tokensFrom {pos : Position} {source : Text} {token : Token}
    (htoken : token ∈ tokensFrom pos source) :
    ∃ before after, source = before ++ after ∧ token.pos = pos.advanceBy before := by
  obtain ⟨before, after, hlexed, hpos, _⟩ := exists_lexed_of_mem_tokensFrom htoken
  exact ⟨before, after, hlexed.append_eq.symm, hpos⟩

/-- On one line all tokens have the line that it starts on. -/
theorem line_of_mem_tokensFrom {pos : Position} {source : Text} {token : Token}
    (hnewline : CodePoint.newline ∉ source) (htoken : token ∈ tokensFrom pos source) :
    token.pos.line = pos.line := by
  obtain ⟨before, after, rfl, hpos⟩ := exists_prefix_of_mem_tokensFrom htoken
  have hbefore : CodePoint.newline ∉ before := fun hmem =>
    hnewline (List.mem_append_left after hmem)
  rw [hpos, Position.advanceBy_of_newline_not_mem pos hbefore]

theorem pos_liesIn_of_mem_tokenize {source : Text} {token : Token}
    (htoken : token ∈ tokenize source) : token.pos.LiesIn source :=
  exists_prefix_of_mem_tokensFrom htoken

end VibeScript
