import VibeScript.Proofs.Check.Stack
import VibeScript.Proofs.Token.Places

/-!
Loops on one line.

A loop takes the `do` on its line for its own, and so it takes every further `do` that
stands directly inside it: such a `do` opens nothing, and its `end` closes the loop
(`Displaced`).  A body that is accepted alone is accepted in a loop on one line exactly if it
has no such `do` (`oneLineLoop_accepts_iff`).
-/

namespace VibeScript

section Roles

variable {inner inner' : Option Frame} {prev : Option Token} {token : Token}

/-- The innermost frame matters to a `do` only, and only if it is a loop on the same line. -/
theorem Opens.congr_inner {opener : Opener} (h : Opens inner prev token opener)
    (hdo : token.kind = .keyword .doWord → ¬ LoopOnLine token.pos.line inner') :
    Opens inner' prev token opener := by
  cases h with
  | bracket d pos => exact .bracket d pos
  | always pos hword => exact .always pos hword
  | doBlock pos _ => exact .doBlock pos (hdo rfl)
  | statement pos hword hstart => exact .statement pos hword hstart

theorem Plain.congr_inner (h : Plain inner prev token)
    (hdo : token.kind = .keyword .doWord → ¬ LoopOnLine token.pos.line inner) :
    Plain inner' prev token where
  legal := h.legal
  opens_nothing := fun opener hopens => h.opens_nothing opener (hopens.congr_inner hdo)
  closes_nothing := h.closes_nothing

/-- A loop takes a `do` on its line. -/
theorem plain_do {pos : Position} (h : LoopOnLine pos.line inner) :
    Plain inner prev ⟨.keyword .doWord, pos⟩ where
  legal := nofun
  opens_nothing := by
    intro opener hopens
    cases hopens with
    | always _ hword => exact absurd hword (by decide)
    | doBlock _ hloop => exact hloop h
    | statement _ hword _ => exact absurd hword (by decide)
  closes_nothing := nofun

theorem not_loopOnLine_none (line : Nat) : ¬ LoopOnLine line none := by
  rintro ⟨word, _, hnone⟩
  cases hnone

theorem not_loopOnLine_do (line opened : Nat) :
    ¬ LoopOnLine line (some ⟨.block .doWord, opened⟩) := by
  rintro ⟨word, hword, hsome⟩
  cases hsome
  exact absurd hword (by decide)

theorem not_loopOnLine_replicate_do (line opened count : Nat) :
    ¬ LoopOnLine line (List.replicate count ⟨.block .doWord, opened⟩ : List Frame).head? := by
  cases count with
  | zero => exact not_loopOnLine_none line
  | succ count => exact not_loopOnLine_do line opened

end Roles

/-- The stacks of the same tokens alone and inside a loop that has taken `do`s of theirs.
Alone, these are open below the frames `inner`; in the loop nothing is open for them, and the
`end` of the innermost has closed the loop or is still to close it. -/
inductive Displaced (loop : Frame) : List Frame → List Frame → Prop
  | taken (inner : List Frame) (count : Nat) :
      Displaced loop (inner ++ List.replicate (count + 1) ⟨.block .doWord, loop.line⟩)
        (inner ++ [loop])
  | ended (inner : List Frame) (count : Nat) :
      Displaced loop (inner ++ List.replicate count ⟨.block .doWord, loop.line⟩) inner

section Bodies

variable {loop : Frame}

/-- Up to its first `do` outside all blocks a body is read in a loop as it is alone. -/
theorem Step.inLoop {prev : Option Token} {token : Token} {alone alone' : List Frame}
    (h : Step prev token alone alone')
    (hdo : token.kind = .keyword .doWord → alone ≠ []) :
    Step prev token (alone ++ [loop]) (alone' ++ [loop]) := by
  cases alone with
  | cons top inner => exact step_cons_append_iff.mpr ⟨alone', rfl, h⟩
  | nil =>
      have hother : token.kind ≠ .keyword .doWord := fun hkind => hdo hkind rfl
      cases h with
      | opens hopens => exact .opens (hopens.congr_inner fun hkind => absurd hkind hother)
      | plain hplain => exact .plain (hplain.congr_inner fun hkind => absurd hkind hother)

theorem step_do_alone {prev : Option Token} {token : Token} {stack stack' : List Frame}
    (hkind : token.kind = .keyword .doWord)
    (hinner : ¬ LoopOnLine token.pos.line stack.head?) (h : Step prev token stack stack') :
    stack' = ⟨.block .doWord, token.pos.line⟩ :: stack := by
  rcases token with ⟨kind, pos⟩
  subst hkind
  have heof : TokenKind.keyword .doWord ≠ .eof := nofun
  exact Step.unique heof (.opens (.doBlock pos hinner)) h

/-- Once the loop is closed, nothing is left in it to be closed by another `end`. -/
theorem Displaced.step_ended {prev : Option Token} {token : Token} {alone' inLoop' : List Frame}
    (heof : token.kind ≠ .eof) (count : Nat)
    (halone : Step prev token (List.replicate count ⟨.block .doWord, loop.line⟩) alone')
    (hinLoop : Step prev token [] inLoop') : Displaced loop alone' inLoop' := by
  have hinner := not_loopOnLine_replicate_do token.pos.line loop.line count
  generalize hstack : List.replicate count (⟨.block .doWord, loop.line⟩ : Frame) = stack
    at halone hinner
  cases hinLoop with
  | @opens _ opener hopens =>
      have hsame : Step prev token stack (⟨opener, token.pos.line⟩ :: stack) :=
        .opens (hopens.congr_inner fun _ => hinner)
      rw [Step.unique heof hsame halone, ← hstack]
      exact .ended [_] count
  | plain hplain =>
      have hsame : Step prev token stack stack := .plain (hplain.congr_inner fun _ =>
        not_loopOnLine_none token.pos.line)
      rw [Step.unique heof hsame halone, ← hstack]
      exact .ended [] count

variable (hloop : LoopOnLine loop.line (some loop))
include hloop

/-- The `do` of a block outside all others is taken by the loop. -/
theorem step_do_inLoop {prev : Option Token} {token : Token} {inLoop : List Frame}
    (hkind : token.kind = .keyword .doWord) (hline : token.pos.line = loop.line)
    (h : Step prev token [loop] inLoop) : inLoop = [loop] := by
  rcases token with ⟨kind, pos⟩
  subst hkind
  have heof : TokenKind.keyword .doWord ≠ .eof := nofun
  have hplain : Plain (some loop) prev ⟨.keyword .doWord, pos⟩ := plain_do (hline ▸ hloop)
  have hstep : Step prev ⟨.keyword .doWord, pos⟩ [loop] [loop] := .plain hplain
  exact Step.unique heof hstep h

/-- The `end` of a block that the loop has taken closes the loop. -/
theorem closes_loop {token : Token} (h : Closes (.block .doWord) token) :
    Closes loop.opener token := by
  obtain ⟨word, _, heq⟩ := hloop
  cases h with
  | block _ pos =>
      rw [Option.some.inj heq]
      exact .block word pos

/-- As long as the loop is open, it takes every `do` that stands directly inside it. -/
theorem Displaced.step_taken {prev : Option Token} {token : Token} {alone' inLoop' : List Frame}
    (heof : token.kind ≠ .eof) (hline : token.pos.line = loop.line) (count : Nat)
    (halone : Step prev token (List.replicate (count + 1) ⟨.block .doWord, loop.line⟩) alone')
    (hinLoop : Step prev token [loop] inLoop') : Displaced loop alone' inLoop' := by
  have hinner := not_loopOnLine_replicate_do token.pos.line loop.line (count + 1)
  by_cases hdo : token.kind = .keyword .doWord
  · rw [step_do_alone hdo hinner halone, step_do_inLoop hloop hdo hline hinLoop, hline]
    exact .taken [] (count + 1)
  rw [List.replicate_succ] at halone
  cases halone with
  | @opens _ opener hopens =>
      have hsame : Step prev token [loop] [⟨opener, token.pos.line⟩, loop] :=
        .opens (hopens.congr_inner fun hkind => absurd hkind hdo)
      rw [Step.unique heof hsame hinLoop]
      exact .taken [_] count
  | closes hcloses =>
      have hend : Step prev token [loop] [] := .closes (closes_loop hloop hcloses)
      rw [Step.unique heof hend hinLoop]
      exact .ended [] count
  | plain hplain =>
      have hsame : Step prev token [loop] [loop] :=
        .plain (hplain.congr_inner fun hkind => absurd hkind hdo)
      rw [Step.unique heof hsame hinLoop]
      exact .taken [] count

/-- Whatever a body goes on with, its blocks stay displaced. -/
theorem Displaced.step {prev : Option Token} {token : Token}
    {alone alone' inLoop inLoop' : List Frame} (h : Displaced loop alone inLoop)
    (heof : token.kind ≠ .eof) (hline : token.pos.line = loop.line)
    (halone : Step prev token alone alone') (hinLoop : Step prev token inLoop inLoop') :
    Displaced loop alone' inLoop' := by
  rcases h with ⟨_ | ⟨top, inner⟩, count⟩ | ⟨_ | ⟨top, inner⟩, count⟩
  · exact Displaced.step_taken hloop heof hline count halone hinLoop
  · obtain ⟨left, rfl, hleft⟩ := step_cons_append_iff.mp halone
    have hboth : Step prev token (top :: inner ++ [loop]) (left ++ [loop]) :=
      step_cons_append_iff.mpr ⟨left, rfl, hleft⟩
    rw [Step.unique heof hboth hinLoop]
    exact .taken left count
  · exact Displaced.step_ended heof count halone hinLoop
  · obtain ⟨left, rfl, hleft⟩ := step_cons_append_iff.mp halone
    rw [Step.unique heof hleft hinLoop]
    exact .ended left count

end Bodies

/-- One of the tokens is a `do` that stands where no frame is open. -/
def HasOuterDo (prev : Option Token) (stack : List Frame) (tokens : List Token) : Prop :=
  ∃ before token after, tokens = before ++ token :: after ∧ token.kind = .keyword .doWord ∧
    stackAfter prev stack before = []

section OuterDo

variable {prev : Option Token} {stack : List Frame} {tokens : List Token}

theorem hasOuterDo_cons_iff {token : Token} {rest : List Token} :
    HasOuterDo prev stack (token :: rest) ↔ (token.kind = .keyword .doWord ∧ stack = []) ∨
      HasOuterDo (some token) (checkToken prev stack token).1 rest := by
  constructor
  · rintro ⟨before, found, after, hsplit, hkind, hopen⟩
    rcases List.cons_eq_append_iff.mp hsplit with ⟨rfl, heq⟩ | ⟨before, rfl, rfl⟩
    · cases heq
      exact .inl ⟨hkind, hopen⟩
    · exact .inr ⟨before, found, after, rfl, hkind, hopen⟩
  · rintro (⟨hkind, rfl⟩ | ⟨before, found, after, rfl, hkind, hopen⟩)
    · exact ⟨[], token, rest, rfl, hkind, rfl⟩
    · exact ⟨token :: before, found, after, rfl, hkind, hopen⟩

theorem not_hasOuterDo_nil : ¬ HasOuterDo prev stack [] := by
  rintro ⟨before, token, after, hnil, _⟩
  cases before <;> cases hnil

theorem hasOuterDo_concat_eof_iff {last : Position} :
    HasOuterDo prev stack (tokens ++ [⟨.eof, last⟩]) ↔ HasOuterDo prev stack tokens := by
  induction tokens generalizing prev stack with
  | nil => simp [hasOuterDo_cons_iff, not_hasOuterDo_nil]
  | cons token rest ih => rw [List.cons_append, hasOuterDo_cons_iff, hasOuterDo_cons_iff, ih]

theorem hasOuterDo_move_iff {f : Position → Position} {g : Nat → Nat}
    (hline : ∀ pos, (f pos).line = g pos.line) (hg : g.Injective) :
    HasOuterDo (prev.map (·.move f)) (stack.map (Frame.move g)) (tokens.map (·.move f)) ↔
      HasOuterDo prev stack tokens := by
  induction tokens generalizing prev stack with
  | nil => simp [not_hasOuterDo_nil]
  | cons token rest ih =>
      rw [List.map_cons, hasOuterDo_cons_iff, hasOuterDo_cons_iff, checkToken_move hline hg,
        List.map_eq_nil_iff]
      exact or_congr Iff.rfl (@ih (some token) (checkToken prev stack token).1)

end OuterDo

section Runs

variable {loop : Frame} {prev : Option Token} {alone inLoop : List Frame} {tokens : List Token}

/-- A body without a `do` outside all blocks is read in a loop as it is alone. -/
theorem errors_inLoop (heof : ∀ token ∈ tokens, token.kind ≠ .eof)
    (halone : (checkFrom prev alone tokens).errors = [])
    (hdo : ¬ HasOuterDo prev alone tokens) :
    (checkFrom prev (alone ++ [loop]) tokens).errors = [] ∧
      stackAfter prev (alone ++ [loop]) tokens = stackAfter prev alone tokens ++ [loop] := by
  induction tokens generalizing prev alone with
  | nil => exact ⟨rfl, rfl⟩
  | cons token rest ih =>
      have hkind := heof token List.mem_cons_self
      obtain ⟨alone', hstep, hrest⟩ := (errors_cons_iff_step hkind).mp halone
      rw [hasOuterDo_cons_iff, (checkToken_eq_iff_step hkind).mpr hstep, not_or] at hdo
      have hboth : Step prev token (alone ++ [loop]) (alone' ++ [loop]) :=
        hstep.inLoop (not_and.mp hdo.1)
      have hlater := ih (fun later hmem => heof later (List.mem_cons_of_mem token hmem)) hrest hdo.2
      refine ⟨(errors_cons_iff_step hkind).mpr ⟨_, hboth, hlater.1⟩, ?_⟩
      rw [hboth.stackAfter_cons hkind, hstep.stackAfter_cons hkind, hlater.2]

variable (hloop : LoopOnLine loop.line (some loop))
include hloop

theorem Displaced.run (heof : ∀ token ∈ tokens, token.kind ≠ .eof)
    (hline : ∀ token ∈ tokens, token.pos.line = loop.line) (h : Displaced loop alone inLoop)
    (halone : (checkFrom prev alone tokens).errors = [])
    (hinLoop : (checkFrom prev inLoop tokens).errors = []) :
    Displaced loop (stackAfter prev alone tokens) (stackAfter prev inLoop tokens) := by
  induction tokens generalizing prev alone inLoop with
  | nil => exact h
  | cons token rest ih =>
      have hkind := heof token List.mem_cons_self
      obtain ⟨alone', hstep, hrest⟩ := (errors_cons_iff_step hkind).mp halone
      obtain ⟨inLoop', hstep', hrest'⟩ := (errors_cons_iff_step hkind).mp hinLoop
      rw [hstep.stackAfter_cons hkind, hstep'.stackAfter_cons hkind]
      exact ih (fun later hmem => heof later (List.mem_cons_of_mem token hmem))
        (fun later hmem => hline later (List.mem_cons_of_mem token hmem))
        (h.step hloop hkind (hline token List.mem_cons_self) hstep hstep') hrest hrest'

/-- Behind a `do` outside all blocks the blocks of a body are displaced. -/
theorem displaced_of_do (heof : ∀ token ∈ tokens, token.kind ≠ .eof)
    (hline : ∀ token ∈ tokens, token.pos.line = loop.line)
    (halone : (checkFrom prev alone tokens).errors = [])
    (hinLoop : (checkFrom prev (alone ++ [loop]) tokens).errors = [])
    (hdo : HasOuterDo prev alone tokens) :
    Displaced loop (stackAfter prev alone tokens) (stackAfter prev (alone ++ [loop]) tokens) := by
  induction tokens generalizing prev alone with
  | nil => exact absurd hdo not_hasOuterDo_nil
  | cons token rest ih =>
      have hkind := heof token List.mem_cons_self
      have heof' : ∀ later ∈ rest, later.kind ≠ .eof :=
        fun later hmem => heof later (List.mem_cons_of_mem token hmem)
      have hline' : ∀ later ∈ rest, later.pos.line = loop.line :=
        fun later hmem => hline later (List.mem_cons_of_mem token hmem)
      obtain ⟨alone', hstep, hrest⟩ := (errors_cons_iff_step hkind).mp halone
      obtain ⟨inLoop', hstep', hrest'⟩ := (errors_cons_iff_step hkind).mp hinLoop
      rw [hstep.stackAfter_cons hkind, hstep'.stackAfter_cons hkind]
      by_cases hhere : token.kind = .keyword .doWord ∧ alone = []
      · obtain ⟨hword, rfl⟩ := hhere
        have hposition := hline token List.mem_cons_self
        have houtside : ¬ LoopOnLine token.pos.line ([] : List Frame).head? :=
          not_loopOnLine_none token.pos.line
        have hdisplaced : Displaced loop alone' inLoop' := by
          rw [step_do_alone hword houtside hstep, step_do_inLoop hloop hword hposition hstep',
            hposition]
          exact .taken [] 0
        exact hdisplaced.run hloop heof' hline' hrest hrest'
      · have hboth : Step prev token (alone ++ [loop]) (alone' ++ [loop]) :=
          hstep.inLoop fun hword hnil => hhere ⟨hword, hnil⟩
        obtain rfl := Step.unique hkind hboth hstep'
        rw [hasOuterDo_cons_iff, (checkToken_eq_iff_step hkind).mpr hstep] at hdo
        exact ih heof' hline' hrest hrest' (hdo.resolve_left hhere)

end Runs

/-- A loop on one line, with its body behind the loop's `do`. -/
def oneLineLoop (head body : Text) : Text := head ++ " " ++ body ++ " end"

def loopHeads : List Text := ["while x do", "until x do", "for i in xs do"]

/-- A loop opens one frame, and statements start behind its `do`. -/
theorem loopHead_tokens {head : Text} (h : head ∈ loopHeads) :
    ∃ tokens last word, tokenize head = tokens ++ [⟨.eof, last⟩] ∧
      (checkFrom none [] tokens).errors = [] ∧ stackAfter none [] tokens = [⟨.block word, 1⟩] ∧
      word ∈ [Keyword.forWord, .whileWord, .untilWord] ∧
      startsStatement tokens.getLast? = true := by
  simp only [loopHeads, List.mem_cons, List.not_mem_nil, or_false] at h
  rcases h with rfl | rfl | rfl
  · refine ⟨(tokenize "while x do").dropLast, ⟨1, 11⟩, .whileWord, ?_⟩
    decide +kernel
  · refine ⟨(tokenize "until x do").dropLast, ⟨1, 11⟩, .untilWord, ?_⟩
    decide +kernel
  · refine ⟨(tokenize "for i in xs do").dropLast, ⟨1, 15⟩, .forWord, ?_⟩
    decide +kernel

theorem loopHead_oneLine :
    ∀ head ∈ loopHeads, CodePoint.newline ∉ head ∧ CodePoint.ofChar '#' ∉ head := by
  decide

/-- The position that many characters further on the line. -/
def Position.shift (count : Nat) (pos : Position) : Position := ⟨pos.line, pos.column + count⟩

theorem Position.shift_advance (count : Nat) {c : CodePoint} (hc : c ≠ CodePoint.newline)
    (pos : Position) : (pos.advance c).shift count = (pos.shift count).advance c := by
  simp only [advance, hc, ↓reduceIte, shift]
  congr 1
  omega

theorem tokensFrom_space (pos : Position) (rest : Text) :
    tokensFrom pos (CodePoint.space :: rest) = tokensFrom (pos.shift 1) rest := by
  rw [tokensFrom_cons]
  rfl

/-- Behind a body the `end` of the loop comes last. -/
theorem exists_tokensFrom_end (pos : Position) :
    ∃ place last, tokensFrom pos " end" = [⟨.keyword .endWord, place⟩, ⟨.eof, last⟩] := by
  have hlexeme : lexeme 'e' "nd" = ⟨some (.keyword .endWord), 2⟩ := rfl
  refine ⟨pos.shift 1, (pos.shift 1).advanceBy "end", ?_⟩
  change tokensFrom pos (CodePoint.space :: 'e' :: text "nd") = _
  rw [tokensFrom_space, tokensFrom_cons, hlexeme]
  change _ :: tokensFrom _ [] = _
  rw [tokensFrom]
  rfl

/-- The tokens of a loop are those of its head, those of its body further on the line, and its
`end`. -/
theorem exists_tokenize_oneLineLoop {head body : Text} {opening inside : List Token}
    {openingEnd insideEnd : Position} (hopening : tokenize head = opening ++ [⟨.eof, openingEnd⟩])
    (hinside : tokenize body = inside ++ [⟨.eof, insideEnd⟩])
    (hhead : CodePoint.newline ∉ head ∧ CodePoint.ofChar '#' ∉ head)
    (hbody : CodePoint.newline ∉ body ∧ CodePoint.ofChar '#' ∉ body)
    (hopeningLegal : ∀ token ∈ opening, token.kind ≠ .illegal .unterminatedString)
    (hinsideLegal : ∀ token ∈ inside, token.kind ≠ .illegal .unterminatedString) :
    ∃ place last, tokenize (oneLineLoop head body) =
      opening ++ (inside.map (·.move (Position.shift (head.length + 1))) ++
        [⟨.keyword .endWord, place⟩, ⟨.eof, last⟩]) := by
  have hspace : CodePoint.space.IsSeparator := .inr (.inl rfl)
  have hshift : ∀ c ∈ body, ∀ pos : Position, (pos.advance c).shift (head.length + 1) =
      (pos.shift (head.length + 1)).advance c := by
    intro c hc
    refine Position.shift_advance _ ?_
    rintro rfl
    exact hbody.1 hc
  have hstart : (Position.start.advanceBy head).shift 1 =
      Position.start.shift (head.length + 1) := by
    rw [Position.advanceBy_of_newline_not_mem _ hhead.1]
    simp only [Position.shift]
    congr 1
  have hmoved : tokensFrom (Position.start.shift (head.length + 1)) body =
      inside.map (·.move (Position.shift (head.length + 1))) ++
        [⟨.eof, insideEnd.shift (head.length + 1)⟩] := by
    rw [tokensFrom_move hshift, ← tokenize, hinside, List.map_append, List.map_singleton,
      Token.move]
  have hmovedLegal : ∀ token ∈ inside.map (·.move (Position.shift (head.length + 1))),
      token.kind ≠ .illegal .unterminatedString := by
    intro token hmem
    obtain ⟨original, horiginal, rfl⟩ := List.mem_map.mp hmem
    exact hinsideLegal original horiginal
  obtain ⟨place, last, hend⟩ := exists_tokensFrom_end
    ((Position.start.shift (head.length + 1)).advanceBy body)
  refine ⟨place, last, ?_⟩
  have hsplit : oneLineLoop head body =
      head ++ CodePoint.space :: (body ++ CodePoint.space :: "end") := by
    rw [oneLineLoop, List.append_assoc, List.append_assoc]
    rfl
  rw [hsplit, tokenize, tokensFrom_append_separator hspace hopening
    (fun hmem => absurd hmem hhead.2) hopeningLegal, tokensFrom_space, hstart,
    tokensFrom_append_separator hspace hmoved (fun hmem => absurd hmem hbody.2) hmovedLegal]
  exact congrArg _ (congrArg _ hend)

/-- Where one `end` is left, exactly one block may be open. -/
theorem errors_end_iff {prev : Option Token} {stack : List Frame} {place last : Position} :
    (checkFrom prev stack [⟨.keyword .endWord, place⟩, ⟨.eof, last⟩]).errors = [] ↔
      ∃ frame, stack = [frame] ∧ frame.isBlock = true := by
  rw [errors_checkFrom_cons_iff, errors_checkFrom_cons_iff]
  constructor
  · rintro ⟨hend, hlast, _⟩
    obtain ⟨frame, outer, rfl, hcloses⟩ := exists_closes_of_no_fault (.block .endWord place) hend
    rw [checkToken_of_closes hcloses] at hlast
    obtain rfl : outer = [] := List.map_eq_nil_iff.mp hlast
    refine ⟨frame, rfl, ?_⟩
    rw [Frame.isBlock]
    cases hopener : frame.opener with
    | block word => rfl
    | delimiter d =>
        rw [hopener] at hcloses
        cases hcloses
  · rintro ⟨⟨opener, line⟩, rfl, hblock⟩
    cases opener with
    | block word => exact ⟨rfl, rfl, rfl⟩
    | delimiter d => cases hblock

/-- With all blocks of the body closed, the loop is closed as well. -/
theorem Displaced.eq_nil {loop : Frame} {alone inLoop : List Frame}
    (h : Displaced loop alone inLoop) (halone : alone = []) : inLoop = [] := by
  cases h with
  | taken inner count => simp at halone
  | ended inner count => exact (List.append_eq_nil_iff.mp halone).1

/-- The tokens of a body that is accepted alone, between the head of a loop and its `end`. -/
theorem loop_accepts_iff {loop : Frame} {prev : Option Token} {inside : List Token}
    {place last : Position} (hloop : LoopOnLine loop.line (some loop))
    (hstarts : startsStatement prev = true) (heof : ∀ token ∈ inside, token.kind ≠ .eof)
    (hline : ∀ token ∈ inside, token.pos.line = loop.line)
    (haccepts : (checkFrom none [] inside).errors = []) (hclosed : stackAfter none [] inside = []) :
    (checkFrom prev [loop] (inside ++ [⟨.keyword .endWord, place⟩, ⟨.eof, last⟩])).errors = [] ↔
      ¬ HasOuterDo none [] inside := by
  have hblock : loop.isBlock = true := by
    obtain ⟨word, _, heq⟩ := hloop
    rw [Option.some.inj heq]
    rfl
  have hprev : startsStatement prev = startsStatement none := hstarts
  rw [errors_checkFrom_append, List.append_eq_nil_iff, errors_end_iff,
    checkFrom_congr_prev hprev, stackAfter_congr_prev hprev]
  constructor
  · rintro ⟨hinLoop, frame, hframe, _⟩ hdo
    have hdisplaced := displaced_of_do hloop heof hline haccepts hinLoop hdo
    have hnone : stackAfter none [loop] inside = [] := hdisplaced.eq_nil hclosed
    rw [hnone] at hframe
    cases hframe
  · intro hdo
    have hsame : (checkFrom none [loop] inside).errors = [] ∧
        stackAfter none [loop] inside = stackAfter none [] inside ++ [loop] :=
      errors_inLoop heof haccepts hdo
    refine ⟨hsame.1, loop, ?_, hblock⟩
    rw [hsame.2, hclosed, List.nil_append]

/-- A body that is accepted alone is accepted in a loop on one line exactly if every `do` in it
stands inside a block or bracket of the body. -/
theorem oneLineLoop_accepts_iff {head body : Text} (hhead : head ∈ loopHeads)
    (hnewline : CodePoint.newline ∉ body) (hcomment : CodePoint.ofChar '#' ∉ body)
    (haccepts : (check body).errors = []) :
    (check (oneLineLoop head body)).errors = [] ↔ ¬ HasOuterDo none [] (tokenize body) := by
  obtain ⟨opening, openingEnd, word, hopening, hopeningErrors, hopen, hword, hstarts⟩ :=
    loopHead_tokens hhead
  obtain ⟨inside, insideEnd, hinside, heof⟩ := exists_concat_eof Position.start body
  obtain ⟨hinsideErrors, hclosed⟩ : (checkFrom none [] inside).errors = [] ∧
      stackAfter none [] inside = [] := by
    rw [check, tokenize, hinside] at haccepts
    exact stackAfter_of_errors_concat_eof haccepts
  have hheadOneLine := loopHead_oneLine head hhead
  -- the body stands further on the line, and that changes no line
  have hshift : ∀ pos : Position, (pos.shift (head.length + 1)).line = id pos.line := fun _ => rfl
  have hmovedErrors := errors_checkFrom_move hshift Function.injective_id none [] inside
  have hmovedStack := stackAfter_move hshift Function.injective_id none [] inside
  have hmovedDo := @hasOuterDo_move_iff none [] inside _ _ hshift Function.injective_id
  rw [hinsideErrors, List.map_nil] at hmovedErrors
  rw [hclosed, List.map_nil] at hmovedStack
  obtain ⟨place, last, htokens⟩ := exists_tokenize_oneLineLoop hopening hinside hheadOneLine
    ⟨hnewline, hcomment⟩ (fun token hmem => legal_of_errors_eq_nil hopeningErrors token hmem _)
    (fun token hmem => legal_of_errors_eq_nil hinsideErrors token hmem _)
  have hloop : LoopOnLine 1 (some ⟨.block word, 1⟩) := ⟨word, hword, rfl⟩
  rw [check, htokens, errors_checkFrom_append, hopeningErrors, List.nil_append, hopen,
    Option.or_none, loop_accepts_iff hloop hstarts _ _ hmovedErrors hmovedStack]
  · rw [tokenize, hinside, hasOuterDo_concat_eof_iff]
    exact not_congr hmovedDo
  · intro token hmem
    obtain ⟨original, horiginal, rfl⟩ := List.mem_map.mp hmem
    exact heof original horiginal
  · intro token hmem
    obtain ⟨original, horiginal, rfl⟩ := List.mem_map.mp hmem
    have hplace : original ∈ tokensFrom Position.start body := by
      rw [hinside]
      exact List.mem_append_left _ horiginal
    exact line_of_mem_tokensFrom hnewline hplace

/-- A block may open with a `do` inside an `if` of the body. -/
theorem oneLineLoop_accepts_nested_do :
    (CodePoint.newline ∉ text "if y; xs.each do |z| p(z) end end" ∧
      CodePoint.ofChar '#' ∉ text "if y; xs.each do |z| p(z) end end" ∧
      (check "if y; xs.each do |z| p(z) end end").errors = []) ∧
    ((check (oneLineLoop "while x do" "if y; xs.each do |z| p(z) end end")).errors = [] ↔
      ¬ HasOuterDo none [] (tokenize "if y; xs.each do |z| p(z) end end")) := by
  have hnewline : CodePoint.newline ∉ text "if y; xs.each do |z| p(z) end end" := by decide
  have hcomment : CodePoint.ofChar '#' ∉ text "if y; xs.each do |z| p(z) end end" := by decide
  have haccepts : (check "if y; xs.each do |z| p(z) end end").errors = [] := by decide +kernel
  have hhead : text "while x do" ∈ loopHeads := List.mem_cons_self
  exact ⟨⟨hnewline, hcomment, haccepts⟩,
    oneLineLoop_accepts_iff hhead hnewline hcomment haccepts⟩

/-- The `do` of a block directly inside a loop is lost to the loop, and the loop's `end` with
it. -/
theorem oneLineLoop_rejects_outer_do :
    (CodePoint.newline ∉ text "do end" ∧ CodePoint.ofChar '#' ∉ text "do end" ∧
      (check "do end").errors = []) ∧
    (check (oneLineLoop "while x do" "do end")).errors =
      [⟨.unexpected .blockEnd, ⟨1, 19⟩⟩] := by
  decide +kernel

end VibeScript
