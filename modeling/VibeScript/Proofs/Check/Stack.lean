import VibeScript.Proofs.Check.Acceptance
import VibeScript.Proofs.Token.Joining

/-!
The frames that are open behind some tokens, and what they make of the rest.

A check of tokens that follow others goes on with the stack that these leave
(`errors_checkFrom_append`).  Two more things are told from the tokens in front: whether a
statement starts behind them (`checkFrom_congr_prev`), and the lines of the open frames,
which move along with the tokens (`errors_checkFrom_move`).
-/

namespace VibeScript

/-- The frames that are open behind some tokens, the innermost one first. -/
def stackAfter (prev : Option Token) (stack : List Frame) : List Token → List Frame
  | [] => stack
  | token :: rest => stackAfter (some token) (checkToken prev stack token).1 rest

@[simp] theorem stackAfter_nil (prev : Option Token) (stack : List Frame) :
    stackAfter prev stack [] = stack := rfl

@[simp] theorem stackAfter_cons (prev : Option Token) (stack : List Frame) (token : Token)
    (rest : List Token) : stackAfter prev stack (token :: rest) =
      stackAfter (some token) (checkToken prev stack token).1 rest := rfl

section Runs

variable {prev : Option Token} {stack : List Frame} {tokens : List Token}

theorem errors_checkFrom_append (prev : Option Token) (stack : List Frame)
    (before after : List Token) :
    (checkFrom prev stack (before ++ after)).errors = (checkFrom prev stack before).errors ++
      (checkFrom (before.getLast?.or prev) (stackAfter prev stack before) after).errors := by
  induction before generalizing prev stack with
  | nil => rfl
  | cons token before ih =>
      rw [List.cons_append, checkFrom, checkFrom, stackAfter_cons, List.getLast?_cons]
      simp only [ih, List.append_assoc]
      cases before.getLast? <;> rfl

theorem stackAfter_append (prev : Option Token) (stack : List Frame)
    (before after : List Token) :
    stackAfter prev stack (before ++ after) =
      stackAfter (before.getLast?.or prev) (stackAfter prev stack before) after := by
  induction before generalizing prev stack with
  | nil => rfl
  | cons token before ih =>
      rw [List.cons_append, stackAfter_cons, stackAfter_cons, List.getLast?_cons, ih]
      cases before.getLast? <;> rfl

/-- An error is shown by a token, which the check meets with the frames that are open there. -/
theorem exists_split_of_mem_errors {e : SyntaxError}
    (he : e ∈ (checkFrom prev stack tokens).errors) :
    ∃ before token after, tokens = before ++ token :: after ∧ e.pos = token.pos ∧
      e.fault ∈ (checkToken (before.getLast?.or prev) (stackAfter prev stack before) token).2 := by
  induction tokens generalizing prev stack with
  | nil => cases he
  | cons token rest ih =>
      simp only [checkFrom, List.mem_append, List.mem_map] at he
      rcases he with ⟨fault, hfault, rfl⟩ | hlater
      · exact ⟨[], token, rest, rfl, rfl, hfault⟩
      · obtain ⟨before, later, after, rfl, hpos, hshown⟩ := ih hlater
        refine ⟨token :: before, later, after, rfl, hpos, ?_⟩
        rw [stackAfter_cons, List.getLast?_cons]
        cases hlast : before.getLast? <;> simpa [hlast] using hshown

/-- Without an error up to the end, no frame is left open there. -/
theorem stackAfter_of_errors_concat_eof {last : Position}
    (h : (checkFrom prev stack (tokens ++ [⟨.eof, last⟩])).errors = []) :
    (checkFrom prev stack tokens).errors = [] ∧ stackAfter prev stack tokens = [] := by
  rw [errors_checkFrom_append, List.append_eq_nil_iff, errors_checkFrom_cons_iff] at h
  exact ⟨h.1, List.map_eq_nil_iff.mp h.2.1⟩

/-- An illegal token is an error wherever it stands. -/
theorem legal_of_errors_eq_nil (h : (checkFrom prev stack tokens).errors = []) :
    ∀ token ∈ tokens, ∀ problem, token.kind ≠ .illegal problem := by
  induction tokens generalizing prev stack with
  | nil => exact fun _ hmem => absurd hmem List.not_mem_nil
  | cons token rest ih =>
      obtain ⟨hfault, hrest⟩ := errors_checkFrom_cons_iff.mp h
      intro later hmem problem hkind
      rcases List.mem_cons.mp hmem with rfl | hmem
      · rw [checkToken, hkind] at hfault
        cases hfault
      · exact ih hrest later hmem problem hkind

/-- Of the token in front only this matters: whether a statement starts behind it. -/
theorem checkToken_congr_prev {prev' : Option Token}
    (h : startsStatement prev = startsStatement prev') (stack : List Frame) (token : Token) :
    checkToken prev stack token = checkToken prev' stack token := by
  have hopens (word : Keyword) (line : Nat) :
      opensFrame word prev stack line = opensFrame word prev' stack line := by
    rw [opensFrame, opensFrame, h]
  rcases token with ⟨kind, pos⟩
  cases kind with
  | keyword word => cases word <;> simp only [checkToken, hopens]
  | _ => rfl

theorem checkFrom_congr_prev {prev' : Option Token}
    (h : startsStatement prev = startsStatement prev') (stack : List Frame)
    (tokens : List Token) : checkFrom prev stack tokens = checkFrom prev' stack tokens := by
  cases tokens with
  | nil => rfl
  | cons token rest => rw [checkFrom, checkFrom, checkToken_congr_prev h]

theorem stackAfter_congr_prev {prev' : Option Token}
    (h : startsStatement prev = startsStatement prev') (stack : List Frame)
    (tokens : List Token) : stackAfter prev stack tokens = stackAfter prev' stack tokens := by
  cases tokens with
  | nil => rfl
  | cons token rest => rw [stackAfter_cons, stackAfter_cons, checkToken_congr_prev h]

end Runs

/-! What a token does to the stack where it shows no fault. -/

/-- A token that shows no fault opens a frame, closes the innermost one, or does nothing. -/
inductive Step (prev : Option Token) (token : Token) : List Frame → List Frame → Prop
  | opens {stack : List Frame} {opener : Opener} (h : Opens stack.head? prev token opener) :
      Step prev token stack (⟨opener, token.pos.line⟩ :: stack)
  | closes {frame : Frame} {outer : List Frame} (h : Closes frame.opener token) :
      Step prev token (frame :: outer) outer
  | plain {stack : List Frame} (h : Plain stack.head? prev token) : Step prev token stack stack

section Steps

variable {prev : Option Token} {stack stack' : List Frame} {token : Token}

theorem checkToken_eq_iff_step (heof : token.kind ≠ .eof) :
    checkToken prev stack token = (stack', []) ↔ Step prev token stack stack' := by
  constructor
  · intro h
    by_cases hopens : ∃ opener, Opens stack.head? prev token opener
    · obtain ⟨opener, hopens⟩ := hopens
      rw [checkToken_of_opens hopens] at h
      cases h
      exact .opens hopens
    by_cases hcloses : ∃ opener, Closes opener token
    · obtain ⟨opener, hcloses⟩ := hcloses
      obtain ⟨frame, outer, rfl, hframe⟩ := exists_closes_of_no_fault hcloses (congrArg Prod.snd h)
      rw [checkToken_of_closes hframe] at h
      cases h
      exact .closes hframe
    have hlegal : ∀ problem, token.kind ≠ .illegal problem := by
      intro problem hkind
      rw [checkToken, hkind] at h
      cases h
    have hplain : Plain stack.head? prev token :=
      ⟨hlegal, not_exists.mp hopens, not_exists.mp hcloses⟩
    rw [checkToken_of_plain hplain heof] at h
    cases h
    exact .plain hplain
  · intro h
    cases h with
    | opens hopens => exact checkToken_of_opens hopens
    | closes hcloses => exact checkToken_of_closes hcloses
    | plain hplain => exact checkToken_of_plain hplain heof

theorem Step.unique {other : List Frame} (heof : token.kind ≠ .eof)
    (h : Step prev token stack stack') (hother : Step prev token stack other) :
    other = stack' := by
  have heq := (checkToken_eq_iff_step heof).mpr h
  rw [(checkToken_eq_iff_step heof).mpr hother] at heq
  exact congrArg Prod.fst heq

theorem errors_cons_iff_step {rest : List Token} (heof : token.kind ≠ .eof) :
    (checkFrom prev stack (token :: rest)).errors = [] ↔ ∃ stack', Step prev token stack stack' ∧
      (checkFrom (some token) stack' rest).errors = [] := by
  rw [errors_checkFrom_cons_iff]
  constructor
  · rintro ⟨hfault, hrest⟩
    exact ⟨_, (checkToken_eq_iff_step heof).mp (Prod.ext rfl hfault), hrest⟩
  · rintro ⟨stack', hstep, hrest⟩
    rw [(checkToken_eq_iff_step heof).mpr hstep]
    exact ⟨rfl, hrest⟩

theorem Step.stackAfter_cons {rest : List Token} (heof : token.kind ≠ .eof)
    (h : Step prev token stack stack') :
    stackAfter prev stack (token :: rest) = stackAfter (some token) stack' rest := by
  rw [VibeScript.stackAfter_cons, (checkToken_eq_iff_step heof).mpr h]

/-- Of the stack only the innermost frame matters. -/
theorem step_cons_append_iff {top : Frame} {inner outer : List Frame} :
    Step prev token (top :: inner ++ outer) stack' ↔
      ∃ left, stack' = left ++ outer ∧ Step prev token (top :: inner) left := by
  constructor
  · intro h
    cases h with
    | opens hopens => exact ⟨_ :: top :: inner, rfl, .opens hopens⟩
    | closes hcloses => exact ⟨inner, rfl, .closes hcloses⟩
    | plain hplain => exact ⟨top :: inner, rfl, .plain hplain⟩
  · rintro ⟨left, rfl, h⟩
    cases h with
    | opens hopens => exact .opens hopens
    | closes hcloses => exact .closes hcloses
    | plain hplain => exact .plain hplain

end Steps

/-! Moving a source moves the lines of its frames and errors. -/

def Frame.move (g : Nat → Nat) (frame : Frame) : Frame := ⟨frame.opener, g frame.line⟩

def SyntaxFault.move (g : Nat → Nat) : SyntaxFault → SyntaxFault
  | .unclosed frame => .unclosed (frame.move g)
  | fault => fault

def SyntaxError.move (f : Position → Position) (g : Nat → Nat) (e : SyntaxError) : SyntaxError :=
  ⟨e.fault.move g, f e.pos⟩

section Moves

variable {f : Position → Position} {g : Nat → Nat}

theorem startsStatement_move (f : Position → Position) (prev : Option Token) :
    startsStatement (prev.map (·.move f)) = startsStatement prev := by
  cases prev <;> rfl

theorem insideLoopOnLine_move (hg : g.Injective) (line : Nat) (stack : List Frame) :
    insideLoopOnLine (g line) (stack.map (·.move g)) = insideLoopOnLine line stack := by
  rcases stack with _ | ⟨⟨word | d, opened⟩, outer⟩
  · rfl
  · have hline : (g opened == g line) = (opened == line) := by
      rw [Bool.eq_iff_iff, beq_iff_eq, beq_iff_eq, hg.eq_iff]
    simp [insideLoopOnLine, Frame.move, hline]
  · rfl

theorem closeBlock_move (g : Nat → Nat) (stack : List Frame) :
    closeBlock (stack.map (Frame.move g)) = Prod.map (List.map (Frame.move g))
      (List.map (SyntaxFault.move g)) (closeBlock stack) := by
  have hblock : (fun frame : Frame => !frame.isBlock) ∘ Frame.move g =
      fun frame => !frame.isBlock := rfl
  rcases stack with _ | ⟨⟨word | d, line⟩, below⟩
  · rfl
  · rfl
  · have hbelow : ((below.map (Frame.move g)).dropWhile (!·.isBlock)).tail =
        ((below.dropWhile (!·.isBlock)).tail).map (Frame.move g) := by
      rw [List.dropWhile_map, hblock, List.map_tail]
    exact Prod.ext hbelow rfl

theorem closeDelimiter_move (g : Nat → Nat) (d : Delimiter) (stack : List Frame) :
    closeDelimiter d (stack.map (Frame.move g)) = Prod.map (List.map (Frame.move g))
      (List.map (SyntaxFault.move g)) (closeDelimiter d stack) := by
  have hblock : (fun frame : Frame => !frame.isBlock) ∘ Frame.move g =
      fun frame => !frame.isBlock := rfl
  have hkind : (fun frame : Frame => decide (frame.opener ≠ .delimiter d)) ∘ Frame.move g =
      fun frame => decide (frame.opener ≠ .delimiter d) := rfl
  simp only [closeDelimiter, List.takeWhile_map, hblock, hkind, List.length_map]
  split
  · rfl
  · cases (stack.takeWhile (!·.isBlock)).takeWhile (·.opener ≠ .delimiter d) with
    | nil => simp
    | cons top inner => simp [SyntaxFault.move, Frame.move]

/-- A token and the frames around it, moved together. -/
theorem checkToken_move (hline : ∀ pos, (f pos).line = g pos.line) (hg : g.Injective)
    (prev : Option Token) (stack : List Frame) (token : Token) :
    checkToken (prev.map (·.move f)) (stack.map (Frame.move g)) (token.move f) =
      Prod.map (List.map (Frame.move g)) (List.map (SyntaxFault.move g))
        (checkToken prev stack token) := by
  rcases token with ⟨kind, pos⟩
  cases kind with
  | keyword word =>
      have hopens : opensFrame word (prev.map (·.move f)) (stack.map (Frame.move g)) (f pos).line =
          opensFrame word prev stack pos.line := by
        rw [opensFrame, opensFrame, hline, insideLoopOnLine_move hg, startsStatement_move]
      by_cases hend : word = .endWord
      · subst hend
        exact closeBlock_move g stack
      · rw [Token.move, checkToken_keyword hend, checkToken_keyword hend, hopens]
        split
        · simp [Frame.move, hline]
        · rfl
  | opening d => simp [Token.move, checkToken, Frame.move, hline]
  | closing d => exact closeDelimiter_move g d stack
  | eof => simp [Token.move, checkToken, SyntaxFault.move]
  | illegal problem => rfl
  | _ => rfl

theorem stackAfter_move (hline : ∀ pos, (f pos).line = g pos.line) (hg : g.Injective)
    (prev : Option Token) (stack : List Frame) (tokens : List Token) :
    stackAfter (prev.map (·.move f)) (stack.map (Frame.move g)) (tokens.map (·.move f)) =
      (stackAfter prev stack tokens).map (Frame.move g) := by
  induction tokens generalizing prev stack with
  | nil => rfl
  | cons token rest ih =>
      rw [List.map_cons, stackAfter_cons, checkToken_move hline hg]
      exact ih (some token) _

theorem errors_checkFrom_move (hline : ∀ pos, (f pos).line = g pos.line) (hg : g.Injective)
    (prev : Option Token) (stack : List Frame) (tokens : List Token) :
    (checkFrom (prev.map (·.move f)) (stack.map (Frame.move g)) (tokens.map (·.move f))).errors =
      (checkFrom prev stack tokens).errors.map (SyntaxError.move f g) := by
  induction tokens generalizing prev stack with
  | nil => rfl
  | cons token rest ih =>
      have hrest := ih (some token) (checkToken prev stack token).1
      simp only [List.map_cons, checkFrom, checkToken_move hline hg, Prod.map, List.map_append,
        List.map_map]
      exact congrArg _ hrest

end Moves

end VibeScript
