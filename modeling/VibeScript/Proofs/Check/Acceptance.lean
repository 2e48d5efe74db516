import VibeScript.Proofs.Check.Grammar

/-!
The check accepts exactly the sources whose blocks and brackets are nested.

Where the check finds no fault, its stack holds the frames that are open there
(`checkToken_of_plain`, `checkToken_of_opens`, `checkToken_of_closes`).  Recovery does not
matter for this: a token that the check has to recover from is a fault already
(`exists_closes_of_no_fault`).
-/

namespace VibeScript

namespace Keyword

theorem opensBlock_iff (word : Keyword) :
    word.opensBlock = true ↔ word ∈ [.defWord, .classWord, .forWord, .doWord] := by
  cases word <;> decide

theorem opensStatementBlock_iff (word : Keyword) :
    word.opensStatementBlock = true ↔ word ∈ [.ifWord, .unlessWord, .whileWord, .untilWord] := by
  cases word <;> decide

theorem opensLoop_iff (word : Keyword) :
    word.opensLoop = true ↔ word ∈ [.forWord, .whileWord, .untilWord] := by
  cases word <;> decide

theorem precedesStatement_iff (word : Keyword) :
    word.precedesStatement = true ↔ word ∈ [.elseWord, .doWord, .returnWord, .andWord, .orWord,
      .notWord, .raiseWord, .inWord] := by
  cases word <;> decide

end Keyword

theorem startsStatement_iff {prev : Option Token} :
    startsStatement prev = true ↔ StatementStart prev := by
  constructor
  · intro h
    rcases prev with _ | ⟨kind, pos⟩
    · exact .source
    cases kind with
    | newline => exact .line pos
    | opening d => exact .bracket d pos
    | op spelling => exact .operator spelling pos
    | keyword word => exact .word pos ((Keyword.precedesStatement_iff word).mp h)
    | _ => cases h
  · intro h
    cases h with
    | word pos hword => exact (Keyword.precedesStatement_iff _).mpr hword
    | _ => rfl

theorem insideLoopOnLine_iff {line : Nat} {stack : List Frame} :
    insideLoopOnLine line stack = true ↔ LoopOnLine line stack.head? := by
  constructor
  · intro h
    rcases stack with _ | ⟨⟨word | d, opened⟩, outer⟩
    · cases h
    · simp only [insideLoopOnLine, Bool.and_eq_true, beq_iff_eq] at h
      obtain ⟨hloop, rfl⟩ := h
      exact ⟨word, (Keyword.opensLoop_iff word).mp hloop, rfl⟩
    · cases h
  · rintro ⟨word, hword, hhead⟩
    obtain ⟨outer, rfl⟩ := List.head?_eq_some_iff.mp hhead
    simp [insideLoopOnLine, (Keyword.opensLoop_iff word).mpr hword]

/-- The check opens a frame for a reserved word exactly where the word opens one. -/
theorem opensFrame_iff {word : Keyword} {prev : Option Token} {stack : List Frame}
    {pos : Position} :
    opensFrame word prev stack pos.line = true ↔
      Opens stack.head? prev ⟨.keyword word, pos⟩ (.block word) := by
  rw [opensFrame]
  split
  case isTrue hdo =>
    subst hdo
    rw [Bool.not_eq_true', ← Bool.not_eq_true, insideLoopOnLine_iff]
    constructor
    · exact .doBlock pos
    · intro h
      cases h with
      | always _ hword => exact absurd hword (by decide)
      | doBlock _ hloop => exact hloop
      | statement _ hword _ => exact absurd hword (by decide)
  case isFalse hdo =>
    rw [Bool.or_eq_true, Bool.and_eq_true, Keyword.opensBlock_iff,
      Keyword.opensStatementBlock_iff, startsStatement_iff]
    constructor
    · rintro (halways | ⟨hword, hstart⟩)
      · apply Opens.always
        simpa [hdo] using halways
      · exact .statement pos hword hstart
    · intro h
      cases h with
      | always _ hword => exact Or.inl (by simpa [hdo] using hword)
      | doBlock _ _ => exact absurd rfl hdo
      | statement _ hword hstart => exact Or.inr ⟨hword, hstart⟩

section Steps

variable {prev : Option Token} {stack : List Frame} {token : Token}

/-- A reserved word other than `end` opens a frame or does nothing. -/
theorem checkToken_keyword {word : Keyword} (hend : word ≠ .endWord) (pos : Position) :
    checkToken prev stack ⟨.keyword word, pos⟩ =
      if opensFrame word prev stack pos.line then (⟨.block word, pos.line⟩ :: stack, [])
      else (stack, []) := by
  cases word <;> first | rfl | exact absurd rfl hend

theorem checkToken_of_opens {opener : Opener} (h : Opens stack.head? prev token opener) :
    checkToken prev stack token = (⟨opener, token.pos.line⟩ :: stack, []) := by
  rcases token with ⟨kind, pos⟩
  have hnoEnd : kind ≠ .keyword .endWord := by
    rintro rfl
    exact h.not_closes (.block .endWord) (.block _ pos)
  have hopens := h
  cases h with
  | bracket d => rfl
  | always _ hword | doBlock _ hloop | statement _ hword hstart =>
      rw [checkToken_keyword (fun hend => hnoEnd (congrArg _ hend)),
        if_pos (opensFrame_iff.mpr hopens)]

/-- A token that does nothing keeps the stack.  At the end of the source nothing is kept. -/
theorem checkToken_of_plain (h : Plain stack.head? prev token) (heof : token.kind ≠ .eof) :
    checkToken prev stack token = (stack, []) := by
  rcases token with ⟨kind, pos⟩
  cases kind with
  | keyword word =>
      have hend : word ≠ .endWord := by
        rintro rfl
        exact h.closes_nothing (.block .endWord) (.block _ pos)
      rw [checkToken_keyword hend, if_neg]
      exact fun hopens => h.opens_nothing _ (opensFrame_iff.mp hopens)
  | opening d => exact absurd (.bracket d pos) (h.opens_nothing _)
  | closing d => exact absurd (.bracket d pos) (h.closes_nothing _)
  | illegal problem => exact absurd rfl (h.legal problem)
  | eof => exact absurd rfl heof
  | _ => rfl

theorem checkToken_of_closes {frame : Frame} {outer : List Frame}
    (h : Closes frame.opener token) : checkToken prev (frame :: outer) token = (outer, []) := by
  rcases frame with ⟨opener, line⟩
  cases h with
  | block word pos => rfl
  | bracket d pos => simp [checkToken, closeDelimiter, Frame.isBlock, Opener.isBlock]

/-- A closing token is no fault only if it closes the innermost frame. -/
theorem exists_closes_of_no_fault {opener : Opener} (h : Closes opener token)
    (hfault : (checkToken prev stack token).2 = []) :
    ∃ frame outer, stack = frame :: outer ∧ Closes frame.opener token := by
  cases h with
  | block word pos =>
      change (closeBlock stack).2 = [] at hfault
      rcases stack with _ | ⟨⟨opened | d, line⟩, outer⟩
      · cases hfault
      · exact ⟨_, outer, rfl, .block opened pos⟩
      · cases hfault
  | bracket d pos =>
      change (closeDelimiter d stack).2 = [] at hfault
      rcases stack with _ | ⟨⟨opened | other, line⟩, outer⟩
      · cases hfault
      · cases hfault
      · by_cases hsame : other = d
        · subst hsame
          exact ⟨_, outer, rfl, .bracket other pos⟩
        · exfalso
          simp only [closeDelimiter, Frame.isBlock, Opener.isBlock, Bool.not_false,
            List.takeWhile_cons_of_pos, ne_eq, Opener.delimiter.injEq, hsame, not_false_eq_true,
            decide_true] at hfault
          split at hfault <;> cases hfault

end Steps

theorem errors_checkFrom_cons_iff {prev : Option Token} {stack : List Frame} {token : Token}
    {rest : List Token} :
    (checkFrom prev stack (token :: rest)).errors = [] ↔ (checkToken prev stack token).2 = [] ∧
      (checkFrom (some token) (checkToken prev stack token).1 rest).errors = [] := by
  simp only [checkFrom, List.append_eq_nil_iff, List.map_eq_nil_iff]

/-- A token keeps the check without a fault exactly if the rest completes what is open
behind it. -/
theorem errors_cons_iff_completes {token : Token} {rest : List Token}
    (heof : token.kind ≠ .eof)
    (hrest : ∀ stack, (checkFrom (some token) stack rest).errors = [] ↔
      Completes stack (some token) rest) (prev : Option Token) (stack : List Frame) :
    (checkFrom prev stack (token :: rest)).errors = [] ↔
      Completes stack prev (token :: rest) := by
  rw [errors_checkFrom_cons_iff]
  by_cases hopens : ∃ opener, Opens stack.head? prev token opener
  · obtain ⟨opener, hopens⟩ := hopens
    rw [checkToken_of_opens hopens, completes_of_opens hopens, ← hrest]
    exact and_iff_right rfl
  by_cases hcloses : ∃ opener, Closes opener token
  · obtain ⟨opener, hcloses⟩ := hcloses
    rw [completes_of_closes hcloses]
    constructor
    · rintro ⟨hfault, hlater⟩
      obtain ⟨frame, outer, rfl, hframe⟩ := exists_closes_of_no_fault hcloses hfault
      rw [checkToken_of_closes hframe, hrest] at hlater
      exact ⟨frame, outer, rfl, hframe, hlater⟩
    · rintro ⟨frame, outer, rfl, hframe, hlater⟩
      rw [checkToken_of_closes hframe, hrest]
      exact ⟨rfl, hlater⟩
  by_cases hillegal : ∃ problem, token.kind = .illegal problem
  · obtain ⟨problem, hkind⟩ := hillegal
    rw [iff_false_right (not_completes_of_illegal hkind), checkToken, hkind]
    exact fun h => List.cons_ne_nil _ _ h.1
  · have hplain : Plain stack.head? prev token :=
      ⟨not_exists.mp hillegal, not_exists.mp hopens, not_exists.mp hcloses⟩
    rw [checkToken_of_plain hplain heof, completes_of_plain hplain, ← hrest]
    exact and_iff_right rfl

/-- The check finds no fault in tokens exactly if they complete the frames that are open. -/
theorem errors_eq_nil_iff_completes {tokens : List Token}
    (heof : ∀ token ∈ tokens, token.kind ≠ .eof) (last : Position) (prev : Option Token)
    (stack : List Frame) :
    (checkFrom prev stack (tokens ++ [⟨.eof, last⟩])).errors = [] ↔
      Completes stack prev (tokens ++ [⟨.eof, last⟩]) := by
  induction tokens generalizing prev stack with
  | nil =>
      have hplain : Plain stack.head? prev ⟨.eof, last⟩ :=
        ⟨fun _ => nofun, fun _ => nofun, fun _ => nofun⟩
      have herrors : (checkFrom prev stack [⟨.eof, last⟩]).errors = [] ↔ stack = [] := by
        rw [errors_checkFrom_cons_iff]
        simp [checkToken, checkFrom]
      rw [List.nil_append, herrors, completes_of_plain hplain, completes_end_iff]
  | cons token rest ih =>
      rw [List.cons_append]
      exact errors_cons_iff_completes (heof token List.mem_cons_self)
        (ih (fun later hlater => heof later (List.mem_cons_of_mem token hlater)) (some token))
        prev stack

/-- The check of a source finds no error exactly if no token of the source is illegal and
its blocks and brackets are nested. -/
theorem check_accepts_iff_nested (source : Text) :
    (check source).errors = [] ↔
      (∀ token ∈ tokenize source, ∀ problem, token.kind ≠ .illegal problem) ∧
        Nested none none (tokenize source) := by
  obtain ⟨tokens, last, htokens, heof⟩ := exists_concat_eof Position.start source
  have haccepts := errors_eq_nil_iff_completes heof last none []
  rw [← htokens, completes_nil_iff] at haccepts
  constructor
  · intro h
    have hnested := haccepts.mp h
    exact ⟨hnested.legal, hnested⟩
  · rintro ⟨_, hnested⟩
    exact haccepts.mpr hnested

end VibeScript
