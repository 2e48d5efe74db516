import VibeScript.Proofs.Check.Definitions
import VibeScript.Proofs.Check.Stack
import VibeScript.Proofs.Token.Composition

/-!
The findings of a text that is put behind another one.

A check that has closed every frame is back where a check starts.  The name of a definition
is the only thing that a check looks ahead for, and a definition opens a frame, so what
closes the frame stands between the name that is looked for and the end of the tokens
(`definitions_checkFrom_append`).  The text behind is therefore checked as it is alone, only
further down (`check_append_newline`).
-/

namespace VibeScript

/-! The look-ahead of a definition does not cross a place where no frame is open. -/

theorem definedName?_append {rest : List Token} (h : ∃ token ∈ rest, token.kind ≠ .newline)
    (more : List Token) : definedName? (rest ++ more) = definedName? rest := by
  obtain ⟨token, hmem, hkind⟩ := h
  induction rest with
  | nil => cases hmem
  | cons first rest ih =>
      rw [List.cons_append]
      by_cases hfirst : first.kind = .newline
      · have hlater : token ∈ rest :=
          List.mem_of_ne_of_mem (fun heq => hkind (heq ▸ hfirst)) hmem
        rw [definedName?_cons_of_newline hfirst, definedName?_cons_of_newline hfirst, ih hlater]
      · rw [definedName?_cons_of_ne hfirst, definedName?_cons_of_ne hfirst]

/-- What closes a frame is not a line end. -/
theorem exists_ne_newline {prev : Option Token} {stack : List Frame} {tokens : List Token}
    (hopen : stack ≠ []) (hclosed : stackAfter prev stack tokens = []) :
    ∃ token ∈ tokens, token.kind ≠ .newline := by
  induction tokens generalizing prev with
  | nil => exact absurd hclosed hopen
  | cons token rest ih =>
      by_cases hkind : token.kind = .newline
      · have hsame : (checkToken prev stack token).1 = stack := by
          rw [checkToken, hkind]
        rw [stackAfter_cons, hsame] at hclosed
        obtain ⟨later, hmem, hlater⟩ := ih hclosed
        exact ⟨later, List.mem_cons_of_mem token hmem, hlater⟩
      · exact ⟨token, List.mem_cons_self, hkind⟩

/-- A definition outside all frames opens one. -/
theorem stack_ne_nil_of_declares? {prev : Option Token} {token : Token}
    (h : token.kind.declares? ≠ none) : (checkToken prev [] token).1 ≠ [] := by
  rcases token with ⟨kind, pos⟩
  cases kind with
  | keyword word =>
      cases word with
      | defWord => exact List.cons_ne_nil _ _
      | classWord => exact List.cons_ne_nil _ _
      | _ => exact absurd rfl h
  | _ => exact absurd rfl h

/-- The name of a definition outside all frames stands in front of the place where no frame
is open any more. -/
theorem definition?_append {prev : Option Token} {stack : List Frame} {token : Token}
    {rest : List Token} (hclosed : stackAfter prev stack (token :: rest) = [])
    (more : List Token) :
    definition? stack token (rest ++ more) = definition? stack token rest := by
  cases stack with
  | cons frame stack => rfl
  | nil =>
      rw [definition?_nil_stack, definition?_nil_stack]
      by_cases hdeclares : token.kind.declares? = none
      · rw [hdeclares, Option.bind_none, Option.bind_none]
      · have hopen : (checkToken prev [] token).1 ≠ [] := stack_ne_nil_of_declares? hdeclares
        rw [definedName?_append (exists_ne_newline hopen hclosed)]

theorem definitions_checkFrom_append {prev : Option Token} {stack : List Frame}
    {before : List Token} (hclosed : stackAfter prev stack before = []) (after : List Token) :
    (checkFrom prev stack (before ++ after)).definitions =
      (checkFrom prev stack before).definitions ++
        (checkFrom (before.getLast?.or prev) [] after).definitions := by
  induction before generalizing prev stack with
  | nil =>
      rw [stackAfter_nil] at hclosed
      subst hclosed
      rfl
  | cons token before ih =>
      have hlater := ih hclosed
      rw [List.cons_append, checkFrom, checkFrom, List.getLast?_cons]
      simp only [definition?_append hclosed, hlater, List.append_assoc]
      cases before.getLast? <;> rfl

/-! Moving a source moves its definitions. -/

def Definition.move (f : Position → Position) (definition : Definition) : Definition :=
  ⟨definition.kind, definition.name, f definition.pos⟩

def Findings.move (f : Position → Position) (g : Nat → Nat) (findings : Findings) : Findings :=
  ⟨findings.errors.map (SyntaxError.move f g), findings.definitions.map (Definition.move f)⟩

theorem definition?_move (f : Position → Position) (g : Nat → Nat) (stack : List Frame)
    (token : Token) (rest : List Token) :
    definition? (stack.map (Frame.move g)) (token.move f) (rest.map (·.move f)) =
      (definition? stack token rest).map (Definition.move f) := by
  cases stack with
  | cons frame stack => rfl
  | nil =>
      have hname : definedName? (rest.map (·.move f)) = definedName? rest :=
        definedName?_map (f := Token.move f) (fun _ => rfl) (fun _ => Iff.rfl) rest
      have hkind : (token.move f).kind = token.kind := rfl
      rw [List.map_nil, definition?_nil_stack, definition?_nil_stack, hname, hkind]
      cases token.kind.declares? with
      | none => rfl
      | some kind =>
          rw [Option.bind_some, Option.bind_some, Option.map_map]
          rfl

/-- Where tokens stand decides on the places of what is found in them and on nothing else. -/
theorem checkFrom_move {f : Position → Position} {g : Nat → Nat}
    (hline : ∀ pos, (f pos).line = g pos.line) (hg : g.Injective) (prev : Option Token)
    (stack : List Frame) (tokens : List Token) :
    checkFrom (prev.map (·.move f)) (stack.map (Frame.move g)) (tokens.map (·.move f)) =
      (checkFrom prev stack tokens).move f g := by
  have hdefinitions : (checkFrom (prev.map (·.move f)) (stack.map (Frame.move g))
      (tokens.map (·.move f))).definitions =
        (checkFrom prev stack tokens).definitions.map (Definition.move f) := by
    induction tokens generalizing prev stack with
    | nil => rfl
    | cons token rest ih =>
        have hrest := ih (some token) (checkToken prev stack token).1
        simp only [List.map_cons, checkFrom, checkToken_move hline hg, Prod.map,
          definition?_move, List.map_append, Option.toList_map]
        exact congrArg _ hrest
  have herrors := errors_checkFrom_move hline hg prev stack tokens
  rw [Findings.move, ← herrors, ← hdefinitions]

/-- What is found in a source that stands that many lines further down: the lines of errors
and definitions move, and so do the lines of frames that errors name. -/
def Findings.down (count : Nat) : Findings → Findings :=
  Findings.move (Position.down count) (· + count)

/-- Behind a line feed a check with no frame open is where it starts. -/
theorem checkFrom_newline_cons_down (prev : Option Token) (place : Position) (count : Nat)
    (tokens : List Token) :
    checkFrom prev [] (⟨.newline, place⟩ :: tokens.map (·.move (Position.down count))) =
      (checkFrom none [] tokens).down count := by
  have hline : ∀ pos : Position, (pos.down count).line = pos.line + count := fun _ => rfl
  have hinjective : (· + count : Nat → Nat).Injective := fun _ _ => Nat.add_right_cancel
  have hneutral : startsStatement (some ⟨.newline, place⟩) = startsStatement none := rfl
  calc checkFrom prev [] (⟨.newline, place⟩ :: tokens.map (·.move (Position.down count)))
      = checkFrom (some ⟨.newline, place⟩) [] (tokens.map (·.move (Position.down count))) := rfl
    _ = checkFrom none [] (tokens.map (·.move (Position.down count))) :=
        checkFrom_congr_prev hneutral [] _
    _ = (checkFrom none [] tokens).down count := checkFrom_move hline hinjective none [] tokens

/-- What is found in a source behind one that is accepted: nothing of what stands in front
changes, and the source behind is checked as it is alone, that many lines further down. -/
theorem check_append_newline {before : Text} (haccepts : (check before).errors = [])
    (source : Text) :
    check (before ++ CodePoint.newline :: source) =
      ⟨((check source).down (before.count CodePoint.newline + 1)).errors,
        (check before).definitions ++
          ((check source).down (before.count CodePoint.newline + 1)).definitions⟩ := by
  obtain ⟨tokens, last, htokens, _⟩ := exists_concat_eof Position.start before
  obtain ⟨herrors, hclosed⟩ : (checkFrom none [] tokens).errors = [] ∧
      stackAfter none [] tokens = [] := by
    rw [check, tokenize, htokens] at haccepts
    exact stackAfter_of_errors_concat_eof haccepts
  have hjoined : tokenize (before ++ CodePoint.newline :: source) = tokens ++
      ⟨.newline, Position.start.advanceBy before⟩ ::
        (tokenize source).map (·.move (Position.down (before.count CodePoint.newline + 1))) := by
    rw [← tokensFrom_newline_cons]
    exact tokensFrom_append_separator (.inl rfl) htokens (fun _ => rfl)
      (fun token hmem => legal_of_errors_eq_nil herrors token hmem _) source
  have hbefore : (check before).definitions = (checkFrom none [] tokens).definitions := by
    rw [check, tokenize, htokens, definitions_checkFrom_append hclosed]
    exact List.append_nil _
  have hsplit (findings : Findings) : findings = ⟨findings.errors, findings.definitions⟩ := rfl
  rw [hsplit (check _), check, hjoined, errors_checkFrom_append,
    definitions_checkFrom_append hclosed, herrors, hclosed, checkFrom_newline_cons_down,
    hbefore, List.nil_append, ← check]

/-- A definition and an open bracket behind an accepted definition: the line of the bracket
moves in the message as well. -/
theorem check_append_newline_open :
    (check "def f\nend").errors = [] ∧
      check ("def f\nend" ++ CodePoint.newline :: text "end class B\n(") =
        ⟨[⟨.unexpected .blockEnd, ⟨3, 1⟩⟩, ⟨.unclosed ⟨.delimiter .paren, 4⟩, ⟨4, 2⟩⟩,
            ⟨.unclosed ⟨.block .classWord, 3⟩, ⟨4, 2⟩⟩],
          [⟨.function, "f", ⟨1, 1⟩⟩, ⟨.«class», "B", ⟨3, 5⟩⟩]⟩ := by
  have haccepts : (check "def f\nend").errors = [] := by decide +kernel
  refine ⟨haccepts, (check_append_newline haccepts _).trans ?_⟩
  decide +kernel

end VibeScript
