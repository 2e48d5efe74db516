import VibeScript.CommandLine.Check
import VibeScript.Diagnostic
import VibeScript.Proofs.Check.Definitions
import VibeScript.Proofs.Text.Utf8
import VibeScript.Proofs.Token.LineEnds

/-!
The findings of a text whose lines end with a carriage return and a line feed.

The check looks neither into strings nor at the place of a line end, so it goes by the
outlines of the tokens (`checkFrom_outline`).  These are the same for a text as an editor
holds it and for the text as it is read from a file, where every line ends with a line feed
(`check_replaceCrLf`).
-/

namespace VibeScript

theorem startsStatement_outline (prev : Option Token) :
    startsStatement (prev.map Token.outline) = startsStatement prev := by
  cases prev with
  | none => rfl
  | some token =>
      rcases token with ⟨kind, pos⟩
      cases kind <;> rfl

theorem checkToken_outline (prev : Option Token) (stack : List Frame) (token : Token) :
    checkToken (prev.map Token.outline) stack token.outline = checkToken prev stack token := by
  have hopens (word : Keyword) (line : Nat) :
      opensFrame word (prev.map Token.outline) stack line = opensFrame word prev stack line := by
    rw [opensFrame, opensFrame, startsStatement_outline]
  rcases token with ⟨kind, pos⟩
  cases kind with
  | keyword word => cases word <;> simp [Token.outline, TokenKind.outline, checkToken, hopens]
  | _ => rfl

theorem definition?_outline (stack : List Frame) (token : Token) (rest : List Token) :
    definition? stack token.outline (rest.map Token.outline) = definition? stack token rest := by
  cases stack with
  | cons frame stack => rfl
  | nil =>
      have hname : definedName? (rest.map Token.outline) = definedName? rest := by
        apply definedName?_map
        · rintro ⟨kind, pos⟩
          cases kind <;> rfl
        · exact fun _ => TokenKind.outline_eq_newline_iff
      rw [definition?_nil_stack, definition?_nil_stack, hname]
      rcases token with ⟨kind, pos⟩
      cases kind <;> rfl

/-- The check goes by the outlines of tokens. -/
theorem checkFrom_outline (prev : Option Token) (stack : List Frame) (tokens : List Token) :
    checkFrom (prev.map Token.outline) stack (tokens.map Token.outline) =
      checkFrom prev stack tokens := by
  induction tokens generalizing prev stack with
  | nil => rfl
  | cons token rest ih =>
      have hrest := ih (some token) (checkToken prev stack token).1
      rw [Option.map_some] at hrest
      have hplace : (checkToken prev stack token).2.map (⟨·, token.outline.pos⟩) =
          (checkToken prev stack token).2.map (SyntaxError.mk · token.pos) := by
        rcases token with ⟨kind, pos⟩
        cases kind <;> rfl
      simp only [List.map_cons, checkFrom, checkToken_outline, definition?_outline, hrest, hplace]

/-- A text is checked as it is without its carriage returns. -/
theorem check_withoutReturns {source : Text} (h : source.ReturnsPaired) :
    check source.withoutReturns = check source := by
  have hstart : Position.start.Agrees source Position.start := ⟨rfl, .inr rfl⟩
  have houtline : (tokenize source.withoutReturns).map Token.outline =
      (tokenize source).map Token.outline :=
    outline_tokensFrom_withoutReturns h hstart
  calc check source.withoutReturns
      = checkFrom none [] ((tokenize source.withoutReturns).map Token.outline) :=
        (checkFrom_outline none [] _).symm
    _ = checkFrom none [] ((tokenize source).map Token.outline) := by rw [houtline]
    _ = check source := checkFrom_outline none [] _

/-- Whether a source compiles depends on what is found in it. -/
theorem exists_compile_iff (source : Text) : (∃ script, compile source = .ok script) ↔
    (check source).errors = [] ∧ firstDuplicate? [] (check source).definitions = none := by
  simp only [compile]
  split
  case isTrue herrors => simp [herrors]
  case isFalse herrors =>
    have hnone : (check source).errors = [] := Decidable.not_not.mp herrors
    cases firstDuplicate? [] (check source).definitions with
    | none => simp [hnone]
    | some definition => simp

theorem scriptCompiler_eq_none_iff (source : Text) :
    scriptCompiler source = none ↔ ∃ script, compile source = .ok script := by
  rw [scriptCompiler]
  cases compile source <;> simp

/-- A file passes if the text that it is read as compiles. -/
theorem checkFile_compiled_iff (path : Text) {bytes : Bytes} {source : Text}
    (h : decodeUtf8 bytes = .ok source) : checkFile path (.ok bytes) = .ok .compiled ↔
      ∃ script, compile source.withLineFeeds = .ok script := by
  have hdecode : decodeSource bytes = .ok source.withLineFeeds := by
    rw [decodeSource, h]
    rfl
  simp only [checkFile, hdecode]
  cases compile source.withLineFeeds <;> simp

/-- It makes no difference to the check whether lines end with a carriage return and a line
feed or with a line feed alone.  So a text compiles as it is exactly if it compiles with its
line ends replaced, and a file passes exactly if the text of its bytes compiles for the
editor, which leaves the line ends as they are. -/
theorem check_replaceCrLf {source : Text} (h : source.ReturnsPaired) :
    check source.replaceCrLf = check source ∧
      ((∃ script, compile source.replaceCrLf = .ok script) ↔
        ∃ script, compile source = .ok script) ∧
      source.withLineFeeds = source.replaceCrLf ∧
      ∀ path bytes, decodeUtf8 bytes = .ok source →
        (checkFile path (.ok bytes) = .ok .compiled ↔ scriptCompiler source = none) := by
  have hreplaced := Text.replaceCrLf_eq_withoutReturns h
  have hread : source.withLineFeeds = source.replaceCrLf :=
    (Text.withLineFeeds_eq_withoutReturns h).trans hreplaced.symm
  have hcheck : check source.replaceCrLf = check source :=
    (congrArg check hreplaced).trans (check_withoutReturns h)
  have hcompile : (∃ script, compile source.replaceCrLf = .ok script) ↔
      ∃ script, compile source = .ok script := by
    rw [exists_compile_iff, exists_compile_iff, hcheck]
  refine ⟨hcheck, hcompile, hread, ?_⟩
  intro path bytes hbytes
  rw [checkFile_compiled_iff path hbytes, hread, hcompile, scriptCompiler_eq_none_iff]

/-- Carriage returns in a string, behind a backslash, in a comment and behind a definition. -/
theorem check_replaceCrLf_everywhere :
    let source : Text := "s = \"a\\\r\nb\r\n\" )# c\r\ndef f\r\nend\r\n"
    let bytes : Bytes := source.flatMap CodePoint.utf8
    source.ReturnsPaired ∧
      check source.replaceCrLf =
        ⟨[⟨.unexpected (.delimiter .paren), ⟨3, 3⟩⟩], [⟨.function, "f", ⟨4, 1⟩⟩]⟩ ∧
      decodeUtf8 bytes = .ok source ∧
      (checkFile "a.vibe" (.ok bytes) = .ok .compiled ↔ scriptCompiler source = none) := by
  intro source bytes
  have hpaired : source.ReturnsPaired := by decide
  have hbytes : decodeUtf8 bytes = .ok source := (decodeUtf8_encodeUtf8 (by decide)).2
  obtain ⟨hcheck, _, _, hfile⟩ := check_replaceCrLf hpaired
  refine ⟨hpaired, hcheck.trans ?_, hbytes, hfile "a.vibe" bytes hbytes⟩
  decide +kernel

end VibeScript
