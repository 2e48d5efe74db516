import VibeScript.Script
import VibeScript.Proofs.Token.Lexemes

/-!
The definitions of a source.

A definition is read from the kinds of its tokens (`definition?_nil_stack`), and the name that
it gives is a name in the source (`exists_token_of_mem_definitions`).
-/

namespace VibeScript

/-! A definition by the kinds of the tokens that it is read from. -/

/-- The name that a token is. -/
def TokenKind.name? : TokenKind → Option Text
  | .ident name => some name
  | _ => none

/-- What a token declares. -/
def TokenKind.declares? : TokenKind → Option DefinitionKind
  | .keyword .defWord => some .function
  | .keyword .classWord => some .«class»
  | _ => none

theorem definedName?_cons_of_newline {token : Token} (h : token.kind = .newline)
    (rest : List Token) : definedName? (token :: rest) = definedName? rest := by
  have hskip : (token :: rest).dropWhile (·.kind = .newline) =
      rest.dropWhile (·.kind = .newline) := List.dropWhile_cons_of_pos (by simpa using h)
  rw [definedName?, hskip, ← definedName?]

theorem definedName?_cons_of_ne {token : Token} (h : token.kind ≠ .newline)
    (rest : List Token) : definedName? (token :: rest) = token.kind.name? := by
  have hstop : (token :: rest).dropWhile (·.kind = .newline) = token :: rest :=
    List.dropWhile_cons_of_neg (by simpa using h)
  rw [definedName?, hstop]
  rcases token with ⟨kind, pos⟩
  cases kind <;> rfl

/-- A change of tokens that keeps names and line ends keeps what is looked ahead for. -/
theorem definedName?_map {f : Token → Token}
    (hname : ∀ token, (f token).kind.name? = token.kind.name?)
    (hnewline : ∀ token, (f token).kind = .newline ↔ token.kind = .newline)
    (rest : List Token) : definedName? (rest.map f) = definedName? rest := by
  induction rest with
  | nil => rfl
  | cons first rest ih =>
      rw [List.map_cons]
      by_cases hfirst : first.kind = .newline
      · have hmapped := (hnewline first).mpr hfirst
        rw [definedName?_cons_of_newline hfirst, definedName?_cons_of_newline hmapped, ih]
      · have hmapped : (f first).kind ≠ .newline := mt (hnewline first).mp hfirst
        rw [definedName?_cons_of_ne hfirst, definedName?_cons_of_ne hmapped, hname]

/-- Outside all frames a token that declares something defines the name behind it. -/
theorem definition?_nil_stack (token : Token) (rest : List Token) :
    definition? [] token rest = token.kind.declares?.bind fun kind =>
      (definedName? rest).map (⟨kind, ·, token.pos⟩) := by
  rcases token with ⟨kind, pos⟩
  cases kind with
  | keyword word => cases word <;> rfl
  | _ => rfl

/-- A defined name is one of the names that follow. -/
theorem exists_token_of_definedName? {rest : List Token} {name : Text}
    (h : definedName? rest = some name) : ∃ token ∈ rest, token.kind = .ident name := by
  unfold definedName? at h
  split at h
  · next found pos hhead =>
      cases h
      exact ⟨_, (List.dropWhile_sublist _).subset (List.mem_of_mem_head? hhead), rfl⟩
  · cases h

/-- A definition is named by a token behind it. -/
theorem exists_token_of_definition? {stack : List Frame} {token : Token} {rest : List Token}
    {definition : Definition} (h : definition? stack token rest = some definition) :
    ∃ name ∈ rest, name.kind = .ident definition.name := by
  unfold definition? at h
  split at h
  · split at h
    · obtain ⟨name, hname, rfl⟩ := Option.map_eq_some_iff.mp h
      exact exists_token_of_definedName? hname
    · obtain ⟨name, hname, rfl⟩ := Option.map_eq_some_iff.mp h
      exact exists_token_of_definedName? hname
    · cases h
  · cases h

theorem exists_token_of_mem_definitions {prev : Option Token} {stack : List Frame}
    {tokens : List Token} {definition : Definition}
    (h : definition ∈ (checkFrom prev stack tokens).definitions) :
    ∃ token ∈ tokens, token.kind = .ident definition.name := by
  induction tokens generalizing prev stack with
  | nil => simp [checkFrom] at h
  | cons token rest ih =>
      simp only [checkFrom, List.mem_append, Option.mem_toList] at h
      rcases h with hhere | hlater
      · obtain ⟨name, hmem, hname⟩ := exists_token_of_definition? hhere
        exact ⟨name, List.mem_cons_of_mem token hmem, hname⟩
      · obtain ⟨name, hmem, hname⟩ := ih hlater
        exact ⟨name, List.mem_cons_of_mem token hmem, hname⟩

theorem firstDuplicate?_mem {seen : List (DefinitionKind × Text)}
    {definitions : List Definition} {definition : Definition}
    (h : firstDuplicate? seen definitions = some definition) : definition ∈ definitions := by
  induction definitions generalizing seen with
  | nil => cases h
  | cons first rest ih =>
      rw [firstDuplicate?] at h
      split at h
      · cases h
        exact List.mem_cons_self
      · exact List.mem_cons_of_mem first (ih h)

/-- The name of a definition has the characters of a name. -/
theorem isNameChar_of_mem_definitions {source : Text} {definition : Definition}
    (h : definition ∈ (check source).definitions) :
    ∀ c ∈ definition.name, c.isNameChar = true := by
  obtain ⟨token, htoken, hname⟩ := exists_token_of_mem_definitions h
  exact isNameChar_of_mem_ident htoken hname

end VibeScript
