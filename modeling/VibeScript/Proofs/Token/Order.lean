import VibeScript.Proofs.Token.Joining

/-!
The order of the tokens of a source.

Every character moves the position forward, and every lexeme takes one at least.  So the
positions of the tokens go strictly up, to the mark of the end (`tokensFrom_ordered`).
-/

namespace VibeScript

namespace Position

/-- A position in front of another: on an earlier line, or in an earlier column of the same
one. -/
def Before (first second : Position) : Prop :=
  first.line < second.line ∨ first.line = second.line ∧ first.column < second.column

instance (first second : Position) : Decidable (first.Before second) :=
  inferInstanceAs (Decidable (_ ∨ _))

theorem not_before_self (pos : Position) : ¬ pos.Before pos := by
  unfold Before
  omega

theorem Before.ne {first second : Position} (h : first.Before second) : first ≠ second := by
  rintro rfl
  exact first.not_before_self h

theorem Before.trans {first second third : Position} (h : first.Before second)
    (hnext : second.Before third) : first.Before third := by
  unfold Before at *
  omega

theorem before_advance (pos : Position) (c : CodePoint) : pos.Before (pos.advance c) := by
  by_cases hc : c = CodePoint.newline
  · simp [Before, advance, hc]
  · simp [Before, advance, hc]

theorem before_advanceBy_cons (pos : Position) (c : CodePoint) (t : Text) :
    pos.Before (pos.advanceBy (c :: t)) := by
  induction t generalizing pos c with
  | nil => exact before_advance pos c
  | cons d rest ih => exact (before_advance pos c).trans (ih (pos.advance c) d)

end Position

/-- The tokens from a position on: they stand there or behind it, each behind the one in front
of it. -/
theorem tokensFrom_ordered (pos : Position) (source : Text) :
    (tokensFrom pos source).Pairwise (·.pos.Before ·.pos) ∧
      ∀ token ∈ tokensFrom pos source, token.pos = pos ∨ pos.Before token.pos := by
  induction pos, source using lexemeInduction with
  | nil pos => simp [tokensFrom]
  | cons pos c rest ih =>
      obtain ⟨hordered, hbehind⟩ := ih
      have hlater : ∀ token ∈ tokensFrom
          (pos.advanceBy (c :: rest.take (lexeme c rest).extra))
          (rest.drop (lexeme c rest).extra), pos.Before token.pos := by
        intro token hmem
        have hstep := Position.before_advanceBy_cons pos c (rest.take (lexeme c rest).extra)
        rcases hbehind token hmem with heq | hbefore
        · rw [heq]
          exact hstep
        · exact hstep.trans hbefore
      rw [tokensFrom_cons]
      cases (lexeme c rest).token? with
      | none => exact ⟨hordered, fun token hmem => .inr (hlater token hmem)⟩
      | some kind =>
          constructor
          · exact List.pairwise_cons.mpr ⟨hlater, hordered⟩
          · intro token hmem
            rcases List.mem_cons.mp hmem with rfl | hmem
            · exact .inl rfl
            · exact .inr (hlater token hmem)

theorem tokenize_ordered (source : Text) :
    (tokenize source).Pairwise (·.pos.Before ·.pos) :=
  (tokensFrom_ordered Position.start source).1

end VibeScript
