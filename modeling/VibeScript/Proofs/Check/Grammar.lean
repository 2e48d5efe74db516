import VibeScript.Check
import VibeScript.Proofs.Token.Lexemes

/-!
The sources without faults, as a grammar.

What a token does depends on what stands around it: the innermost frame that is open
there, and the token before it.  `Nested` says which sequences of tokens have all their
blocks and brackets closed, and it knows neither a stack nor an order of reading.

The check accepts exactly these (`check_accepts_iff_nested`).  Reading from left to right,
a stack of open frames stands for the rest that would still close them (`Completes`), and
every token either keeps that rest or leaves none.
-/

namespace VibeScript

/-- A statement starts with the source, with a line, behind an operator or an opening
bracket, and behind some of the reserved words. -/
inductive StatementStart : Option Token → Prop
  | source : StatementStart none
  | line (pos : Position) : StatementStart (some ⟨.newline, pos⟩)
  | operator (spelling : Text) (pos : Position) : StatementStart (some ⟨.op spelling, pos⟩)
  | bracket (d : Delimiter) (pos : Position) : StatementStart (some ⟨.opening d, pos⟩)
  | word {word : Keyword} (pos : Position)
      (h : word ∈ [.elseWord, .doWord, .returnWord, .andWord, .orWord, .notWord, .raiseWord,
        .inWord]) : StatementStart (some ⟨.keyword word, pos⟩)

/-- The innermost frame is a loop with its first word on the given line. -/
def LoopOnLine (line : Nat) (inner : Option Frame) : Prop :=
  ∃ word ∈ [Keyword.forWord, .whileWord, .untilWord], inner = some ⟨.block word, line⟩

/-- What a token opens inside the frame `inner` and behind the token `prev`. -/
inductive Opens (inner : Option Frame) (prev : Option Token) : Token → Opener → Prop
  | bracket (d : Delimiter) (pos : Position) :
      Opens inner prev ⟨.opening d, pos⟩ (.delimiter d)
  | always {word : Keyword} (pos : Position)
      (h : word ∈ [.defWord, .classWord, .forWord]) :
      Opens inner prev ⟨.keyword word, pos⟩ (.block word)
  | doBlock (pos : Position) (h : ¬ LoopOnLine pos.line inner) :
      Opens inner prev ⟨.keyword .doWord, pos⟩ (.block .doWord)
  | statement {word : Keyword} (pos : Position)
      (h : word ∈ [.ifWord, .unlessWord, .whileWord, .untilWord])
      (hstart : StatementStart prev) :
      Opens inner prev ⟨.keyword word, pos⟩ (.block word)

/-- What a token closes: every block ends alike, and a bracket with its own kind. -/
inductive Closes : Opener → Token → Prop
  | block (word : Keyword) (pos : Position) : Closes (.block word) ⟨.keyword .endWord, pos⟩
  | bracket (d : Delimiter) (pos : Position) : Closes (.delimiter d) ⟨.closing d, pos⟩

/-- A token that neither opens nor closes anything where it stands. -/
structure Plain (inner : Option Frame) (prev : Option Token) (token : Token) : Prop where
  legal : ∀ problem, token.kind ≠ .illegal problem
  opens_nothing : ∀ opener, ¬ Opens inner prev token opener
  closes_nothing : ∀ opener, ¬ Closes opener token

/-- Tokens with all their blocks and brackets closed, inside the frame `inner` and behind
the token `prev`. -/
inductive Nested : Option Frame → Option Token → List Token → Prop
  | nil {inner : Option Frame} {prev : Option Token} : Nested inner prev []
  | plain {inner : Option Frame} {prev : Option Token} {token : Token} {rest : List Token}
      (h : Plain inner prev token) (hrest : Nested inner (some token) rest) :
      Nested inner prev (token :: rest)
  | enclosed {inner : Option Frame} {prev : Option Token} {opening closing : Token}
      {opener : Opener} {body rest : List Token} (hopens : Opens inner prev opening opener)
      (hbody : Nested (some ⟨opener, opening.pos.line⟩) (some opening) body)
      (hcloses : Closes opener closing) (hrest : Nested inner (some closing) rest) :
      Nested inner prev (opening :: (body ++ closing :: rest))

section Roles

variable {inner : Option Frame} {prev : Option Token} {token : Token} {opener : Opener}

theorem Opens.not_closes (h : Opens inner prev token opener) (other : Opener) :
    ¬ Closes other token := by
  intro hcloses
  cases h with
  | bracket d pos => cases hcloses
  | always pos hword => cases hcloses; exact absurd hword (by decide)
  | doBlock pos hloop => cases hcloses
  | statement pos hword hstart => cases hcloses; exact absurd hword (by decide)

theorem Opens.unique (h : Opens inner prev token opener) {other : Opener}
    (hother : Opens inner prev token other) : other = opener := by
  cases h <;> cases hother <;> rfl

/-- A token that opens or closes anything is legal. -/
theorem Opens.legal (h : Opens inner prev token opener) (problem : LexicalProblem) :
    token.kind ≠ .illegal problem := by
  intro hkind
  cases h <;> cases hkind

theorem Closes.legal (h : Closes opener token) (problem : LexicalProblem) :
    token.kind ≠ .illegal problem := by
  intro hkind
  cases h <;> cases hkind

end Roles

theorem Nested.legal {inner : Option Frame} {prev : Option Token} {tokens : List Token}
    (h : Nested inner prev tokens) :
    ∀ token ∈ tokens, ∀ problem, token.kind ≠ .illegal problem := by
  induction h with
  | nil => exact fun _ hmem => absurd hmem List.not_mem_nil
  | plain hplain _ ih =>
      intro token hmem
      rcases List.mem_cons.mp hmem with rfl | hrest
      · exact hplain.legal
      · exact ih token hrest
  | enclosed hopens _ hcloses _ ihbody ihrest =>
      intro token hmem
      rcases List.mem_cons.mp hmem with rfl | hmem
      · exact hopens.legal
      rcases List.mem_append.mp hmem with hbody | hmem
      · exact ihbody token hbody
      rcases List.mem_cons.mp hmem with rfl | hrest
      · exact hcloses.legal
      · exact ihrest token hrest

/-- The tokens that close the frames of a stack, the innermost one first, with what may
stand between. -/
def Finishes : List Frame → List Token → Prop
  | [], tokens => tokens = []
  | frame :: outer, tokens => ∃ closing body rest, tokens = closing :: (body ++ rest) ∧
      Closes frame.opener closing ∧ Nested outer.head? (some closing) body ∧
        Finishes outer rest

/-- The tokens that may follow where the frames of a stack are open. -/
def Completes (stack : List Frame) (prev : Option Token) (tokens : List Token) : Prop :=
  ∃ body rest, tokens = body ++ rest ∧ Nested stack.head? prev body ∧ Finishes stack rest

theorem completes_nil_iff {prev : Option Token} {tokens : List Token} :
    Completes [] prev tokens ↔ Nested none prev tokens := by
  constructor
  · rintro ⟨body, rest, rfl, hbody, rfl⟩
    rw [List.append_nil]
    exact hbody
  · intro h
    exact ⟨tokens, [], (List.append_nil tokens).symm, h, rfl⟩

/-- At the end of the tokens no frame may be open. -/
theorem completes_end_iff {stack : List Frame} {prev : Option Token} :
    Completes stack prev [] ↔ stack = [] := by
  constructor
  · rintro ⟨body, rest, hnil, _, hrest⟩
    obtain ⟨rfl, rfl⟩ := List.append_eq_nil_iff.mp hnil.symm
    cases stack with
    | nil => rfl
    | cons frame outer =>
        obtain ⟨closing, body, rest, hcons, _⟩ := hrest
        cases hcons
  · rintro rfl
    exact completes_nil_iff.mpr .nil

section Steps

variable {stack : List Frame} {prev : Option Token} {token : Token} {rest : List Token}

/-- A token that closes nothing belongs to what stands inside the innermost frame. -/
theorem completes_cons_of_not_closes (h : ∀ opener, ¬ Closes opener token) :
    Completes stack prev (token :: rest) ↔ ∃ body tail, rest = body ++ tail ∧
      Nested stack.head? prev (token :: body) ∧ Finishes stack tail := by
  constructor
  · rintro ⟨body, tail, heq, hbody, htail⟩
    rcases List.cons_eq_append_iff.mp heq with ⟨rfl, rfl⟩ | ⟨body, rfl, rfl⟩
    · exfalso
      cases stack with
      | nil => cases htail
      | cons frame outer =>
          obtain ⟨closing, body, tail, hcons, hcloses, _⟩ := htail
          cases hcons
          exact h _ hcloses
    · exact ⟨body, tail, rfl, hbody, htail⟩
  · rintro ⟨body, tail, rfl, hbody, htail⟩
    exact ⟨token :: body, tail, rfl, hbody, htail⟩

theorem completes_of_plain (h : Plain stack.head? prev token) :
    Completes stack prev (token :: rest) ↔ Completes stack (some token) rest := by
  rw [completes_cons_of_not_closes h.closes_nothing]
  constructor
  · rintro ⟨body, tail, rfl, hbody, htail⟩
    cases hbody with
    | plain _ hrest => exact ⟨body, tail, rfl, hrest, htail⟩
    | enclosed hopens _ _ _ => exact absurd hopens (h.opens_nothing _)
  · rintro ⟨body, tail, rfl, hbody, htail⟩
    exact ⟨body, tail, rfl, .plain h hbody, htail⟩

theorem completes_of_opens {opener : Opener} (h : Opens stack.head? prev token opener) :
    Completes stack prev (token :: rest) ↔
      Completes (⟨opener, token.pos.line⟩ :: stack) (some token) rest := by
  rw [completes_cons_of_not_closes h.not_closes]
  constructor
  · rintro ⟨body, tail, rfl, hbody, htail⟩
    cases hbody with
    | plain hplain _ => exact absurd h (hplain.opens_nothing _)
    | @enclosed _ _ _ closing other inside more hopens hinside hcloses hmore =>
        obtain rfl := h.unique hopens
        refine ⟨inside, closing :: (more ++ tail), ?_, hinside, ?_⟩
        · rw [List.append_assoc, List.cons_append]
        · exact ⟨closing, more, tail, rfl, hcloses, hmore, htail⟩
  · rintro ⟨inside, tail, rfl, hinside, closing, more, tail, rfl, hcloses, hmore, htail⟩
    refine ⟨inside ++ closing :: more, tail, ?_, .enclosed h hinside hcloses hmore, htail⟩
    rw [List.append_assoc, List.cons_append]

theorem completes_of_closes {opener : Opener} (h : Closes opener token) :
    Completes stack prev (token :: rest) ↔ ∃ frame outer, stack = frame :: outer ∧
      Closes frame.opener token ∧ Completes outer (some token) rest := by
  constructor
  · rintro ⟨body, tail, heq, hbody, htail⟩
    rcases List.cons_eq_append_iff.mp heq with ⟨rfl, rfl⟩ | ⟨body, rfl, rfl⟩
    · cases stack with
      | nil => cases htail
      | cons frame outer =>
          obtain ⟨closing, body, tail, hcons, hcloses, hbody, htail⟩ := htail
          cases hcons
          exact ⟨frame, outer, rfl, hcloses, body, tail, rfl, hbody, htail⟩
    · exfalso
      cases hbody with
      | plain hplain _ => exact hplain.closes_nothing _ h
      | enclosed hopens _ _ _ => exact hopens.not_closes _ h
  · rintro ⟨frame, outer, rfl, hcloses, body, tail, rfl, hbody, htail⟩
    exact ⟨[], token :: (body ++ tail), rfl, .nil, token, body, tail, rfl, hcloses, hbody,
      htail⟩

theorem not_completes_of_illegal {problem : LexicalProblem}
    (h : token.kind = .illegal problem) : ¬ Completes stack prev (token :: rest) := by
  have hcloses : ∀ opener, ¬ Closes opener token := fun _ hcloses => hcloses.legal problem h
  rw [completes_cons_of_not_closes hcloses]
  rintro ⟨body, tail, _, hbody, _⟩
  exact hbody.legal token List.mem_cons_self problem h

end Steps

end VibeScript
