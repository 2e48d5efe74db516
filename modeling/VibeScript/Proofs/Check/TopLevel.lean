import VibeScript.Proofs.Check.Definitions
import VibeScript.Proofs.Check.ErrorOrder

/-!
The definitions of an accepted source, and what it compiles to.

A definition is recorded where no frame is open, and in an accepted source that is where all
blocks and brackets in front are closed (`stackAfter_eq_nil_iff_nested`).  What is recorded there
decides whether the source compiles: it does if no definition repeats an earlier one, and
otherwise the first that does is reported (`compile_outcome`).
-/

namespace VibeScript

/-- The word that declares a definition. -/
def DefinitionKind.word : DefinitionKind → Keyword
  | .function => .defWord
  | .«class» => .classWord

namespace Definition

/-- What no two definitions of a script have in common. -/
def key (definition : Definition) : DefinitionKind × Text := (definition.kind, definition.name)

/-- A definition at the top level of some tokens: all blocks and brackets in front of its word
are closed, and the first token behind the word that is no line end is its name. -/
def AtTopLevel (definition : Definition) (tokens : List Token) : Prop :=
  ∃ before lineEnds place after, tokens = before ++ ⟨.keyword definition.kind.word,
      definition.pos⟩ :: (lineEnds ++ ⟨.ident definition.name, place⟩ :: after) ∧
    Nested none none before ∧ ∀ token ∈ lineEnds, token.kind = .newline

end Definition

/-! Where no frame is open. -/

/-- Tokens with all their blocks and brackets closed leave the stack as it is. -/
theorem Nested.stackAfter_eq {inner : Option Frame} {prev : Option Token} {tokens : List Token}
    (h : Nested inner prev tokens) (heof : ∀ token ∈ tokens, token.kind ≠ .eof)
    {stack : List Frame} (hinner : stack.head? = inner) :
    stackAfter prev stack tokens = stack := by
  induction h generalizing stack with
  | nil => rfl
  | @plain inner prev token rest hplain _ ih =>
      subst hinner
      rw [stackAfter_cons, checkToken_of_plain hplain (heof token List.mem_cons_self)]
      exact ih (fun later hmem => heof later (List.mem_cons_of_mem token hmem)) rfl
  | @enclosed inner prev opening closing opener body rest hopens _ hcloses _ ihbody ihrest =>
      subst hinner
      have hbody : stackAfter (some opening) (⟨opener, opening.pos.line⟩ :: stack) body =
          ⟨opener, opening.pos.line⟩ :: stack := by
        apply ihbody _ rfl
        intro later hmem
        exact heof later (List.mem_cons_of_mem opening (List.mem_append_left _ hmem))
      rw [stackAfter_cons, checkToken_of_opens hopens, stackAfter_append, hbody, stackAfter_cons,
        checkToken_of_closes hcloses]
      apply ihrest _ rfl
      intro later hmem
      apply heof
      exact List.mem_cons_of_mem opening (List.mem_append_right _ (List.mem_cons_of_mem _ hmem))

/-- The mark of the end adds nothing that had to be closed. -/
theorem Nested.of_concat_eof {inner : Option Frame} {prev : Option Token} {all : List Token}
    (h : Nested inner prev all) {tokens : List Token} {last : Position}
    (hall : all = tokens ++ [⟨.eof, last⟩]) : Nested inner prev tokens := by
  induction h generalizing tokens with
  | nil => exact absurd hall.symm (List.append_ne_nil_of_right_ne_nil _ (List.cons_ne_nil _ _))
  | @plain inner prev token rest hplain _ ih =>
      cases tokens with
      | nil => exact .nil
      | cons first tokens =>
          obtain ⟨rfl, hrest⟩ := List.cons.inj hall
          exact .plain hplain (ih hrest)
  | @enclosed inner prev opening closing opener body rest hopens hbody hcloses _ _ ihrest =>
      rcases List.eq_nil_or_concat rest with rfl | ⟨front, final, rfl⟩
      · have hsplit : (opening :: body) ++ [closing] = tokens ++ [⟨.eof, last⟩] := hall
        obtain ⟨_, hfinal⟩ := List.append_inj' hsplit rfl
        cases hfinal
        cases hcloses
      · have hsplit : (opening :: (body ++ closing :: front)) ++ [final] =
            tokens ++ [⟨.eof, last⟩] := by
          rw [← hall]
          simp
        obtain ⟨rfl, hfinal⟩ := List.append_inj' hsplit rfl
        cases hfinal
        exact .enclosed hopens hbody hcloses (ihrest (List.concat_eq_append))

/-- Behind tokens without a fault no frame is open exactly if all their blocks and brackets are
closed. -/
theorem stackAfter_eq_nil_iff_nested {tokens : List Token}
    (herrors : (checkFrom none [] tokens).errors = [])
    (heof : ∀ token ∈ tokens, token.kind ≠ .eof) :
    stackAfter none [] tokens = [] ↔ Nested none none tokens := by
  constructor
  · intro hclosed
    have haccepts : (checkFrom none [] (tokens ++ [⟨.eof, Position.start⟩])).errors = [] := by
      rw [errors_checkFrom_concat_eof, herrors, hclosed]
      rfl
    have hcompletes := (errors_eq_nil_iff_completes heof _ _ _).mp haccepts
    exact (completes_nil_iff.mp hcompletes).of_concat_eof rfl
  · intro hnested
    exact hnested.stackAfter_eq heof rfl

/-! The definitions that a run of tokens records. -/

/-- A name is found behind line ends only. -/
theorem definedName?_eq_some_iff {rest : List Token} {name : Text} :
    definedName? rest = some name ↔ ∃ lineEnds place after,
      rest = lineEnds ++ ⟨.ident name, place⟩ :: after ∧
        ∀ token ∈ lineEnds, token.kind = .newline := by
  constructor
  · intro h
    induction rest with
    | nil => cases h
    | cons first rest ih =>
        by_cases hfirst : first.kind = .newline
        · rw [definedName?_cons_of_newline hfirst] at h
          obtain ⟨lineEnds, place, after, rfl, hlineEnds⟩ := ih h
          exact ⟨first :: lineEnds, place, after, rfl,
            List.forall_mem_cons.mpr ⟨hfirst, hlineEnds⟩⟩
        · rw [definedName?_cons_of_ne hfirst] at h
          rcases first with ⟨kind, place⟩
          cases kind with
          | ident found =>
              cases h
              exact ⟨[], place, rest, rfl, fun _ hmem => absurd hmem List.not_mem_nil⟩
          | _ => cases h
  · rintro ⟨lineEnds, place, after, rfl, hlineEnds⟩
    induction lineEnds with
    | nil => rfl
    | cons first lineEnds ih =>
        obtain ⟨hfirst, hrest⟩ := List.forall_mem_cons.mp hlineEnds
        rw [List.cons_append, definedName?_cons_of_newline hfirst, ih hrest]

theorem declares?_eq_some_iff {kind : TokenKind} {declared : DefinitionKind} :
    kind.declares? = some declared ↔ kind = .keyword declared.word := by
  constructor
  · intro h
    cases kind with
    | keyword word => cases word <;> cases h <;> rfl
    | _ => cases h
  · rintro rfl
    cases declared <;> rfl

/-- A token records a definition where no frame is open, if it declares one that is named. -/
theorem definition?_eq_some_iff {stack : List Frame} {token : Token} {rest : List Token}
    {definition : Definition} :
    definition? stack token rest = some definition ↔ stack = [] ∧
      token = ⟨.keyword definition.kind.word, definition.pos⟩ ∧
        definedName? rest = some definition.name := by
  cases stack with
  | cons frame stack => simp [definition?]
  | nil =>
      rw [definition?_nil_stack]
      constructor
      · intro h
        obtain ⟨kind, hkind, hname⟩ := Option.bind_eq_some_iff.mp h
        obtain ⟨name, hfound, rfl⟩ := Option.map_eq_some_iff.mp hname
        rcases token with ⟨spelled, pos⟩
        obtain rfl := declares?_eq_some_iff.mp hkind
        exact ⟨rfl, rfl, hfound⟩
      · rintro ⟨_, rfl, hname⟩
        have hkind := declares?_eq_some_iff.mpr (rfl : _ = TokenKind.keyword definition.kind.word)
        rw [hkind, Option.bind_some, hname, Option.map_some]

section Runs

variable {prev : Option Token} {stack : List Frame} {tokens : List Token}
  {definition : Definition}

theorem mem_definitions_iff : definition ∈ (checkFrom prev stack tokens).definitions ↔
    ∃ before token after, tokens = before ++ token :: after ∧
      definition? (stackAfter prev stack before) token after = some definition := by
  induction tokens generalizing prev stack with
  | nil => simp [checkFrom]
  | cons token rest ih =>
      rw [checkFrom, List.mem_append, Option.mem_toList, ih]
      constructor
      · rintro (hhere | ⟨before, later, after, rfl, hlater⟩)
        · exact ⟨[], token, rest, rfl, hhere⟩
        · exact ⟨token :: before, later, after, rfl, hlater⟩
      · rintro ⟨before, found, after, hsplit, hfound⟩
        rcases List.cons_eq_append_iff.mp hsplit with ⟨rfl, heq⟩ | ⟨before, rfl, rfl⟩
        · cases heq
          exact .inl hfound
        · exact .inr ⟨before, found, after, rfl, hfound⟩

/-- The definitions in tokens that stand one behind the other come in that order. -/
theorem definitions_ordered (hordered : tokens.Pairwise (·.pos.Before ·.pos)) :
    (checkFrom prev stack tokens).definitions.Pairwise (·.pos.Before ·.pos) := by
  induction tokens generalizing prev stack with
  | nil => exact .nil
  | cons token rest ih =>
      obtain ⟨hfirst, hrest⟩ := List.pairwise_cons.mp hordered
      rw [checkFrom]
      apply List.pairwise_append.mpr
      refine ⟨?_, ih hrest, ?_⟩
      · cases definition? stack token rest with
        | none => exact .nil
        | some found => exact List.pairwise_singleton _ _
      · intro found hfound later hlater
        obtain ⟨_, hhere, _⟩ := definition?_eq_some_iff.mp (Option.mem_toList.mp hfound)
        obtain ⟨before, word, after, rfl, hdefines⟩ := mem_definitions_iff.mp hlater
        obtain ⟨_, hthere, _⟩ := definition?_eq_some_iff.mp hdefines
        have hbefore := hfirst word (List.mem_append_right before List.mem_cons_self)
        rwa [hhere, hthere] at hbefore

end Runs

/-- The definitions of an accepted source are those at its top level. -/
theorem mem_definitions_iff_atTopLevel {source : Text} (haccepts : (check source).errors = [])
    {definition : Definition} : definition ∈ (check source).definitions ↔
      definition.AtTopLevel (tokenize source) := by
  -- in front of every token the open frames are those that are not closed yet
  have hopen {before after : List Token} {token : Token}
      (hsplit : tokenize source = before ++ token :: after) :
      stackAfter none [] before = [] ↔ Nested none none before := by
    rw [check, hsplit, errors_checkFrom_append] at haccepts
    exact stackAfter_eq_nil_iff_nested (List.append_eq_nil_iff.mp haccepts).1
      (kind_ne_eof_of_append_cons hsplit)
  rw [check, mem_definitions_iff]
  constructor
  · rintro ⟨before, token, after, hsplit, hdefines⟩
    obtain ⟨hclosed, rfl, hname⟩ := definition?_eq_some_iff.mp hdefines
    obtain ⟨lineEnds, place, behind, rfl, hlineEnds⟩ := definedName?_eq_some_iff.mp hname
    exact ⟨before, lineEnds, place, behind, hsplit, (hopen hsplit).mp hclosed, hlineEnds⟩
  · rintro ⟨before, lineEnds, place, behind, hsplit, hnested, hlineEnds⟩
    refine ⟨before, _, _, hsplit, definition?_eq_some_iff.mpr ⟨?_, rfl, ?_⟩⟩
    · exact (hopen hsplit).mpr hnested
    · exact definedName?_eq_some_iff.mpr ⟨lineEnds, place, behind, rfl, hlineEnds⟩

/-! Definitions that repeat an earlier one. -/

section Duplicates

variable {seen : List (DefinitionKind × Text)} {definitions : List Definition}
  {definition : Definition}

theorem firstDuplicate?_cons_of_mem (h : definition.key ∈ seen) (rest : List Definition) :
    firstDuplicate? seen (definition :: rest) = some definition := if_pos h

theorem firstDuplicate?_cons_of_not_mem (h : definition.key ∉ seen) (rest : List Definition) :
    firstDuplicate? seen (definition :: rest) =
      firstDuplicate? (definition.key :: seen) rest := if_neg h

theorem firstDuplicate?_eq_none_iff : firstDuplicate? seen definitions = none ↔
    (definitions.map Definition.key).Nodup ∧ ∀ d ∈ definitions, d.key ∉ seen := by
  induction definitions generalizing seen with
  | nil => simp [firstDuplicate?]
  | cons first rest ih =>
      by_cases hfirst : first.key ∈ seen
      · rw [firstDuplicate?_cons_of_mem hfirst]
        simp [hfirst]
      · rw [firstDuplicate?_cons_of_not_mem hfirst, ih]
        simp only [List.map_cons, List.nodup_cons, List.mem_map, List.mem_cons, not_or,
          forall_eq_or_imp, not_exists, not_and]
        constructor
        · rintro ⟨hnodup, hnew⟩
          exact ⟨⟨fun d hd => (hnew d hd).1, hnodup⟩, hfirst, fun d hd => (hnew d hd).2⟩
        · rintro ⟨⟨hother, hnodup⟩, _, hnew⟩
          exact ⟨hnodup, fun d hd => ⟨hother d hd, hnew d hd⟩⟩

/-- The definition that is found is the first to repeat an earlier one. -/
theorem exists_split_of_firstDuplicate? (h : firstDuplicate? seen definitions = some definition) :
    ∃ earlier later, definitions = earlier ++ definition :: later ∧
      firstDuplicate? seen earlier = none ∧
        (definition.key ∈ seen ∨ definition.key ∈ earlier.map Definition.key) := by
  induction definitions generalizing seen with
  | nil => cases h
  | cons first rest ih =>
      by_cases hfirst : first.key ∈ seen
      · rw [firstDuplicate?_cons_of_mem hfirst] at h
        cases h
        exact ⟨[], rest, rfl, rfl, .inl hfirst⟩
      · rw [firstDuplicate?_cons_of_not_mem hfirst] at h
        obtain ⟨earlier, later, rfl, hnone, hrepeats⟩ := ih h
        refine ⟨first :: earlier, later, rfl, ?_, ?_⟩
        · rw [firstDuplicate?_cons_of_not_mem hfirst, hnone]
        · simpa [or_left_comm, or_assoc] using hrepeats

end Duplicates

/-- The names of a kind are all different if no two definitions have both in common. -/
theorem nodup_names {script : Script} (h : (script.definitions.map Definition.key).Nodup)
    (kind : DefinitionKind) : (script.names kind).Nodup := by
  have hkeys := List.pairwise_map.mp h
  apply List.pairwise_map.mpr
  apply List.pairwise_filter.mpr
  apply hkeys.imp
  intro first second hkey hfirst hsecond hname
  have hkind : first.kind = second.kind :=
    (of_decide_eq_true hfirst).trans (of_decide_eq_true hsecond).symm
  exact hkey (Prod.ext hkind hname)

section Compile

variable {source : Text}

theorem compile_of_rejected (hrejects : (check source).errors ≠ []) :
    compile source = .error (.malformed source (check source).errors) := if_pos hrejects

theorem compile_of_accepted (haccepts : (check source).errors = []) :
    compile source = match firstDuplicate? [] (check source).definitions with
      | some definition => .error (.duplicate definition)
      | none => .ok ⟨source, (check source).definitions⟩ :=
  if_neg (not_not_intro haccepts)

end Compile

/-- What is recorded in a source that is accepted, in the order of the source, is what is defined
at its top level.  The source compiles to that if no two definitions have their kind and name in
common, and otherwise the first that repeats an earlier one is reported.  A source that is
rejected does not compile, whatever it defines, and what is reported are its errors. -/
theorem compile_outcome (source : Text) :
    ((check source).errors = [] →
      let definitions := (check source).definitions
      (∀ d, d ∈ definitions ↔ d.AtTopLevel (tokenize source)) ∧
      definitions.Pairwise (·.pos.Before ·.pos) ∧
      (compile source = .ok ⟨source, definitions⟩ ↔ (definitions.map Definition.key).Nodup) ∧
      (¬ (definitions.map Definition.key).Nodup →
        ∃ earlier d later, definitions = earlier ++ d :: later ∧
          (earlier.map Definition.key).Nodup ∧ d.key ∈ earlier.map Definition.key ∧
          ∃ error, compile source = .error error ∧ error.errors = [] ∧
            error.message = "duplicate " ++ d.kind.name ++ " " ++ d.name)) ∧
    (∀ script, compile source = .ok script →
      script = ⟨source, (check source).definitions⟩ ∧ script.functions.Nodup ∧
        script.classes.Nodup) ∧
    ((check source).errors ≠ [] →
      ∃ error, compile source = .error error ∧ error.errors = (check source).errors) := by
  refine ⟨?_, ?_, ?_⟩
  · intro haccepts definitions
    have hdistinct : firstDuplicate? [] definitions = none ↔
        (definitions.map Definition.key).Nodup := by
      simp [firstDuplicate?_eq_none_iff]
    refine ⟨fun _ => mem_definitions_iff_atTopLevel haccepts,
      definitions_ordered (tokenize_ordered source), ?_, ?_⟩
    · rw [← hdistinct, compile_of_accepted haccepts]
      cases hfirst : firstDuplicate? [] (check source).definitions <;> simp [definitions]
    · intro hrepeated
      obtain ⟨d, hd⟩ := Option.ne_none_iff_exists'.mp (mt hdistinct.mp hrepeated)
      obtain ⟨earlier, later, hsplit, hnone, hrepeats⟩ := exists_split_of_firstDuplicate? hd
      refine ⟨earlier, d, later, hsplit, (firstDuplicate?_eq_none_iff.mp hnone).1,
        hrepeats.resolve_left List.not_mem_nil, .duplicate d, ?_, rfl, rfl⟩
      rw [compile_of_accepted haccepts, hd]
  · intro script hscript
    by_cases haccepts : (check source).errors = []
    · rw [compile_of_accepted haccepts] at hscript
      cases hfirst : firstDuplicate? [] (check source).definitions with
      | some d =>
          rw [hfirst] at hscript
          cases hscript
      | none =>
          rw [hfirst] at hscript
          cases hscript
          have hkeys := (firstDuplicate?_eq_none_iff.mp hfirst).1
          exact ⟨rfl, nodup_names hkeys .function, nodup_names hkeys .«class»⟩
    · rw [compile_of_rejected haccepts] at hscript
      cases hscript
  · intro hrejects
    exact ⟨_, compile_of_rejected hrejects, rfl⟩

/-- A class and a function share a name, and a function inside a block is no definition. -/
theorem compile_outcome_shared_name :
    let source : Text := "class A\nend\ndef A\nend\nif x\ndef b\nend end\ndef\nc\nend"
    (check source).errors = [] ∧ ((check source).definitions.map Definition.key).Nodup ∧
      ∃ script, compile source = .ok script ∧
        script.functions = [text "A", text "c"] ∧
        script.classes = [text "A"] := by
  intro source
  have haccepts : (check source).errors = [] := by decide +kernel
  have hdistinct : ((check source).definitions.map Definition.key).Nodup := by decide +kernel
  obtain ⟨haccepted, _⟩ := compile_outcome source
  obtain ⟨_, _, hcompiles, _⟩ := haccepted haccepts
  refine ⟨haccepts, hdistinct, _, hcompiles.mpr hdistinct, ?_, ?_⟩
  · decide +kernel
  · decide +kernel

end VibeScript
