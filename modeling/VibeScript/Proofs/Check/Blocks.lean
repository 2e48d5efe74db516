import Mathlib.Data.List.TakeWhile
import VibeScript.Proofs.Check.Stack

/-!
The blocks among the open frames.

Whatever is wrong with the brackets of a source, its blocks are those of a machine that knows
no brackets: it opens a block with every token that opened one, and ends the innermost block
with every `end` (`blocks_stackAfter`).  A closing bracket takes brackets of the innermost block
only (`exists_removed_of_closeDelimiter`), and an `end` leaves what is below that block
(`closeBlock_append`), or nothing at all if there is none (`closeBlock_of_no_block`).
-/

namespace VibeScript

/-- The blocks of a stack, the innermost one first. -/
def blocks (stack : List Frame) : List Frame := stack.filter (·.isBlock)

/-- Whether a new block is on top of what was on the stack before. -/
def hasOpenedBlock (before : List Frame) : List Frame → Bool
  | [] => false
  | frame :: below => frame.isBlock && below = before

/-- The tokens of a run that opened a block, and the `end`s. -/
def blockTokens (prev : Option Token) (stack : List Frame) : List Token → List Token
  | [] => []
  | token :: rest =>
      let stack' := (checkToken prev stack token).1
      let later := blockTokens (some token) stack' rest
      if token.kind = .keyword .endWord ∨ hasOpenedBlock stack stack' then token :: later else later

/-- The blocks that are open behind a token that opens or ends one. -/
def blockStep (blocks : List Frame) (token : Token) : List Frame :=
  match token.kind with
  | .keyword .endWord => blocks.tail
  | .keyword word => ⟨.block word, token.pos.line⟩ :: blocks
  | _ => blocks

section Openings

variable {before after : List Frame}

theorem length_of_hasOpenedBlock (h : hasOpenedBlock before after = true) :
    after.length = before.length + 1 := by
  cases after with
  | nil => cases h
  | cons frame below =>
      simp only [hasOpenedBlock, Bool.and_eq_true, decide_eq_true_eq] at h
      rw [h.2, List.length_cons]

/-- A stack that does not grow has no new block. -/
theorem hasOpenedBlock_of_length_le (h : after.length ≤ before.length) :
    hasOpenedBlock before after = false := by
  apply Bool.eq_false_iff.mpr
  intro hopened
  have hlength := length_of_hasOpenedBlock hopened
  omega

end Openings

/-! What is left of a stack behind a token that closes. -/

section Closings

variable {inner below stack : List Frame} {block : Frame}

/-- An `end` closes the innermost block and what is open inside it. -/
theorem closeBlock_append (hinner : ∀ frame ∈ inner, frame.isBlock = false)
    (hblock : block.isBlock = true) : (closeBlock (inner ++ block :: below)).1 = below := by
  cases inner with
  | nil => simp [closeBlock, hblock]
  | cons top inner =>
      have htop : top.isBlock = false := hinner top List.mem_cons_self
      have hrest : ∀ frame ∈ inner, (!frame.isBlock) = true := by
        intro frame hmem
        simp [hinner frame (List.mem_cons_of_mem top hmem)]
      simp [closeBlock, htop, List.dropWhile_append_of_pos hrest, hblock]

/-- Without a block an `end` gives up all that is open. -/
theorem closeBlock_of_no_block (h : ∀ frame ∈ stack, frame.isBlock = false) :
    (closeBlock stack).1 = [] := by
  cases stack with
  | nil => rfl
  | cons top below =>
      have htop : top.isBlock = false := h top List.mem_cons_self
      have hrest : below.dropWhile (!·.isBlock) = [] := by
        apply List.dropWhile_eq_nil_iff.mpr
        intro frame hmem
        simp [h frame (List.mem_cons_of_mem top hmem)]
      simp [closeBlock, htop, hrest]

/-- A stack has no block, or it has an innermost one. -/
theorem exists_innermost_block (stack : List Frame) :
    (∀ frame ∈ stack, frame.isBlock = false) ∨ ∃ inner block below,
      stack = inner ++ block :: below ∧ (∀ frame ∈ inner, frame.isBlock = false) ∧
        block.isBlock = true := by
  induction stack with
  | nil => exact .inl fun _ hmem => absurd hmem List.not_mem_nil
  | cons top rest ih =>
      by_cases htop : top.isBlock = true
      · exact .inr ⟨[], top, rest, rfl, fun _ hmem => absurd hmem List.not_mem_nil, htop⟩
      have hdelimiter : top.isBlock = false := Bool.eq_false_iff.mpr htop
      rcases ih with hnone | ⟨inner, block, below, rfl, hinner, hblock⟩
      · exact .inl (List.forall_mem_cons.mpr ⟨hdelimiter, hnone⟩)
      · exact .inr ⟨top :: inner, block, below, rfl,
          List.forall_mem_cons.mpr ⟨hdelimiter, hinner⟩, hblock⟩

theorem blocks_append (inner below : List Frame) :
    blocks (inner ++ below) = blocks inner ++ blocks below := List.filter_append ..

theorem blocks_eq_nil (h : ∀ frame ∈ stack, frame.isBlock = false) : blocks stack = [] := by
  apply List.filter_eq_nil_iff.mpr
  intro frame hmem
  simp [h frame hmem]

theorem blocks_closeBlock (stack : List Frame) :
    blocks (closeBlock stack).1 = (blocks stack).tail := by
  rcases exists_innermost_block stack with hnone | ⟨inner, block, below, rfl, hinner, hblock⟩
  · rw [closeBlock_of_no_block hnone, blocks_eq_nil hnone]
    rfl
  · have hcons : blocks (block :: below) = block :: blocks below :=
      List.filter_cons_of_pos hblock
    rw [closeBlock_append hinner hblock, blocks_append, blocks_eq_nil hinner, List.nil_append,
      hcons, List.tail_cons]

/-- A closing bracket takes only what is open inside the innermost block. -/
theorem exists_removed_of_closeDelimiter (d : Delimiter) (stack : List Frame) :
    ∃ removed, stack = removed ++ (closeDelimiter d stack).1 ∧
      ∀ frame ∈ removed, frame.isBlock = false := by
  by_cases hnone : ((stack.takeWhile (!·.isBlock)).takeWhile (·.opener ≠ .delimiter d)).length =
      (stack.takeWhile (!·.isBlock)).length
  · have hkept : (closeDelimiter d stack).1 = stack := by
      simp only [closeDelimiter, if_pos hnone]
    exact ⟨[], by rw [hkept, List.nil_append], fun _ hmem => absurd hmem List.not_mem_nil⟩
  have hbelow : (closeDelimiter d stack).1 = stack.drop
      (((stack.takeWhile (!·.isBlock)).takeWhile (·.opener ≠ .delimiter d)).length + 1) := by
    simp only [closeDelimiter, if_neg hnone]
    split <;> rfl
  have hreachable : stack.takeWhile (!·.isBlock) <+: stack := List.takeWhile_prefix _
  have hlength := (List.takeWhile_prefix (l := stack.takeWhile (!·.isBlock))
    (·.opener ≠ .delimiter d)).length_le
  generalize ((stack.takeWhile (!·.isBlock)).takeWhile (·.opener ≠ .delimiter d)).length = count
    at hnone hbelow hlength
  refine ⟨stack.take (count + 1), by rw [hbelow, List.take_append_drop], ?_⟩
  intro frame hmem
  have htaken : stack.take (count + 1) <+: stack.takeWhile (!·.isBlock) := by
    apply List.prefix_of_prefix_length_le (List.take_prefix _ _) hreachable
    have hle := List.length_take_le (count + 1) stack
    omega
  have hreached := List.all_eq_true.mp List.all_takeWhile frame (htaken.subset hmem)
  simpa using hreached

theorem blocks_closeDelimiter (d : Delimiter) (stack : List Frame) :
    blocks (closeDelimiter d stack).1 = blocks stack := by
  obtain ⟨removed, hstack, hremoved⟩ := exists_removed_of_closeDelimiter d stack
  have hsplit : blocks stack = blocks removed ++ blocks (closeDelimiter d stack).1 := by
    rw [← blocks_append, ← hstack]
  rw [hsplit, blocks_eq_nil hremoved, List.nil_append]

theorem length_closeDelimiter_le (d : Delimiter) (stack : List Frame) :
    (closeDelimiter d stack).1.length ≤ stack.length := by
  obtain ⟨removed, hstack, _⟩ := exists_removed_of_closeDelimiter d stack
  have hlength := congrArg List.length hstack
  rw [List.length_append] at hlength
  omega

end Closings

/-- One token: the blocks change with it if it is an `end` or has opened one, and stay as they
are otherwise. -/
theorem blocks_checkToken (prev : Option Token) (stack : List Frame) {token : Token}
    (heof : token.kind ≠ .eof) :
    blocks (checkToken prev stack token).1 =
      if token.kind = .keyword .endWord ∨ hasOpenedBlock stack (checkToken prev stack token).1
        then blockStep (blocks stack) token
      else blocks stack := by
  have hkept : hasOpenedBlock stack stack = false := hasOpenedBlock_of_length_le Nat.le.refl
  have hother {kind : TokenKind} {stack' : List Frame} (hend : kind ≠ .keyword .endWord)
      (hopened : hasOpenedBlock stack stack' = false) :
      ¬ (kind = .keyword .endWord ∨ hasOpenedBlock stack stack' = true) := by
    rw [hopened]
    simpa using hend
  rcases token with ⟨kind, pos⟩
  cases kind with
  | keyword word =>
      by_cases hend : word = .endWord
      · subst hend
        rw [if_pos (.inl rfl)]
        exact blocks_closeBlock stack
      rw [checkToken_keyword hend]
      split
      case isTrue hopens =>
        have hopened : hasOpenedBlock stack (⟨.block word, pos.line⟩ :: stack) = true := by
          simp [hasOpenedBlock, Frame.isBlock, Opener.isBlock]
        rw [if_pos (.inr hopened)]
        cases word <;> first | rfl | exact absurd rfl hend
      case isFalse =>
        symm
        apply if_neg
        apply hother _ hkept
        intro heq
        exact hend (TokenKind.keyword.inj heq)
  | opening d =>
      -- the frame of a bracket is new, but it is no block
      have hopened : hasOpenedBlock stack (⟨.delimiter d, pos.line⟩ :: stack) = false := rfl
      symm
      apply if_neg
      exact hother (by simp) hopened
  | closing d =>
      have hopened := hasOpenedBlock_of_length_le (length_closeDelimiter_le d stack)
      apply (blocks_closeDelimiter d stack).trans
      symm
      apply if_neg
      exact hother (by simp) hopened
  | eof => exact absurd rfl heof
  | _ =>
      symm
      apply if_neg
      exact hother (by simp) hkept

/-- A run of tokens: its blocks are those of the tokens that opened and ended one. -/
theorem blocks_stackAfter {prev : Option Token} {stack : List Frame} {tokens : List Token}
    (heof : ∀ token ∈ tokens, token.kind ≠ .eof) :
    blocks (stackAfter prev stack tokens) =
      (blockTokens prev stack tokens).foldl blockStep (blocks stack) := by
  induction tokens generalizing prev stack with
  | nil => rfl
  | cons token rest ih =>
      have hstep := blocks_checkToken prev stack (heof token List.mem_cons_self)
      rw [stackAfter_cons, ih fun later hmem => heof later (List.mem_cons_of_mem token hmem),
        hstep, blockTokens]
      split <;> rfl

/-- In front of a token of a source there is no mark of its end. -/
theorem kind_ne_eof_of_append_cons {source : Text} {before after : List Token} {token : Token}
    (h : tokenize source = before ++ token :: after) :
    ∀ earlier ∈ before, earlier.kind ≠ .eof := by
  obtain ⟨tokens, last, htokens, heof⟩ := exists_concat_eof Position.start source
  have hfront : tokens = before ++ (token :: after).dropLast := by
    rw [← List.dropLast_append_of_ne_nil (List.cons_ne_nil token after), ← h, tokenize, htokens,
      List.dropLast_concat]
  intro earlier hmem
  apply heof
  rw [hfront]
  exact List.mem_append_left _ hmem

/-- In front of every token of a source, its end included, the open blocks are those of the
tokens that opened and ended one, whatever brackets stand between them.  A closing bracket takes
no more than brackets that were opened behind the innermost block, and an `end` leaves what is
below that block, or nothing if there is none.  Behind the mark of the end nothing is open. -/
theorem blocks_undisturbed {source : Text} {before after : List Token} {token : Token}
    (h : tokenize source = before ++ token :: after) :
    let stack := stackAfter none [] before
    let stack' := stackAfter none [] (before ++ [token])
    blocks stack = (blockTokens none [] before).foldl blockStep [] ∧
    (∀ d, token.kind = .closing d →
      ∃ removed, stack = removed ++ stack' ∧ ∀ frame ∈ removed, frame.isBlock = false) ∧
    (token.kind = .keyword .endWord →
      (∀ inner block below, stack = inner ++ block :: below →
        (∀ frame ∈ inner, frame.isBlock = false) → block.isBlock = true → stack' = below) ∧
      ((∀ frame ∈ stack, frame.isBlock = false) → stack' = [])) ∧
    (token.kind = .eof → stack' = []) := by
  intro stack stack'
  have hstep : stack' = (checkToken (before.getLast?.or none) stack token).1 :=
    stackAfter_append none [] before [token]
  refine ⟨blocks_stackAfter (kind_ne_eof_of_append_cons h), ?_, ?_, ?_⟩
  · intro d hkind
    have hclose : stack' = (closeDelimiter d stack).1 := by
      rw [hstep, checkToken, hkind]
    rw [hclose]
    exact exists_removed_of_closeDelimiter d stack
  · intro hkind
    have hclose : stack' = (closeBlock stack).1 := by
      rw [hstep, checkToken, hkind]
    rw [hclose]
    constructor
    · intro inner block below hstack hinner hblock
      rw [hstack]
      exact closeBlock_append hinner hblock
    · exact closeBlock_of_no_block
  · intro hkind
    rw [hstep, checkToken, hkind]

/-- A block between brackets, one of which is closed by the wrong kind. -/
theorem blocks_undisturbed_mixed :
    let before := (tokenize "( def f [ ) end").take 5
    let ending : Token := ⟨.keyword .endWord, ⟨1, 13⟩⟩
    tokenize "( def f [ ) end" = before ++ ending :: [⟨.eof, ⟨1, 16⟩⟩] ∧
      stackAfter none [] before =
        [⟨.delimiter .bracket, 1⟩, ⟨.block .defWord, 1⟩, ⟨.delimiter .paren, 1⟩] ∧
      stackAfter none [] (before ++ [ending]) = [⟨.delimiter .paren, 1⟩] := by
  intro before ending
  have htokens : tokenize "( def f [ ) end" = before ++ ending :: [⟨.eof, ⟨1, 16⟩⟩] := by
    decide +kernel
  have hstack : stackAfter none [] before =
      [⟨.delimiter .bracket, 1⟩, ⟨.block .defWord, 1⟩, ⟨.delimiter .paren, 1⟩] := by
    decide +kernel
  obtain ⟨_, _, hend, _⟩ := blocks_undisturbed htokens
  refine ⟨htokens, hstack, ?_⟩
  apply (hend rfl).1 [⟨.delimiter .bracket, 1⟩] ⟨.block .defWord, 1⟩ _ hstack
  · decide
  · decide

end VibeScript
