import VibeScript.Proofs.Diagnostic.Search

/-!
Errors written down and found again.

A list of errors in the words of a template, with line feeds between each two, is read back as
these errors, whatever their messages look like (`findErrors_list`).
-/

namespace VibeScript

/-- A literal text as it is written in a template: every brace twice. -/
def escapeBraces (literal : Text) : Text :=
  literal.flatMap fun c =>
    if c = CodePoint.openBrace ∨ c = CodePoint.closeBrace then [c, c] else [c]

namespace Wording

/-- The template of a wording as it is written. -/
def written (w : Wording) : Text :=
  escapeBraces w.lead ++ ("\x7bline\x7d" ++ (escapeBraces w.between ++ ("\x7bcolumn\x7d" ++
    (escapeBraces w.after ++ "\x7bmessage\x7d"))))

/-- Errors in the words of a wording, each further one behind one or more line feeds. -/
def list (w : Wording) (first : PositionedError) (later : List (Nat × PositionedError)) : Text :=
  w.render first ++ later.flatMap fun next =>
    List.replicate (next.1 + 1) CodePoint.newline ++ w.render next.2

end Wording

/-- An error that can be read back: its message is one line, and not an empty one, and its
numbers have few digits. -/
structure PositionedError.Legible (e : PositionedError) : Prop where
  message_ne_nil : e.message ≠ []
  newline_not_mem : CodePoint.newline ∉ e.message
  line_length_le : (decimal e.line).length ≤ digitLimit
  column_length_le : (decimal e.column).length ≤ digitLimit

/-- The error of the compiler with a place and a message that quotes no source. -/
def PositionedError.bare (e : PositionedError) : LocatedError :=
  ⟨e.line, e.column, e.message, []⟩

section Written

variable {pieces : Template} {t : Text}

theorem Template.WrittenAs.literal (literal : Text) (h : pieces.WrittenAs t) :
    Template.WrittenAs (literal.map .char ++ pieces) (escapeBraces literal ++ t) := by
  induction literal with
  | nil => exact h
  | cons c rest ih =>
      rw [escapeBraces, List.flatMap_cons]
      split
      · next hbrace => exact .brace c hbrace ih
      · next hbrace => exact .char c (hbrace ∘ Or.inl) (hbrace ∘ Or.inr) ih

/-- A field that is written as its name in braces. -/
theorem Template.WrittenAs.plainField (f : TemplateField) (h : pieces.WrittenAs t) :
    Template.WrittenAs (.field f :: pieces)
      (CodePoint.openBrace :: (f.name ++ ("\x7d" ++ t))) :=
  .field f (by simp [fieldStops]) h

theorem Wording.writtenAs (w : Wording) : w.template.WrittenAs w.written :=
  .literal w.lead (.plainField .line (.literal w.between (.plainField .column
    (.literal w.after (.plainField .message .nil)))))

theorem count_field_literal (f : TemplateField) (literal : Text) :
    (literal.map TemplatePiece.char).count (.field f) = 0 := by
  rw [List.count_eq_zero]
  simp

theorem Wording.hasEachField (w : Wording) : w.template.HasEachField := by
  intro f
  simp only [template, List.count_append, List.count_cons, count_field_literal]
  cases f <;> decide

/-- A wording can be written as a template. -/
theorem Wording.parseTemplate_written (w : Wording) :
    parseTemplate w.written = .ok w.template :=
  parseTemplate_eq_ok_iff.mpr ⟨w.writtenAs, w.hasEachField⟩

end Written

section Found

variable {w : Wording}

/-- No error starts at a line feed. -/
theorem Wording.matchHere_newline (hlead : CodePoint.newline ∉ w.lead) (t : Text) :
    matchHere w.template (CodePoint.newline :: t) = none := by
  obtain ⟨lead, between, after⟩ := w
  cases lead with
  | nil =>
      change (takeRun _ _ _).map _ = none
      rw [takeRun_eq_none_of_head (TemplateField.admits_newline .line), Option.map_none]
  | cons c rest =>
      have hc : c ≠ CodePoint.newline := by
        rintro rfl
        exact hlead List.mem_cons_self
      exact if_neg hc

theorem Wording.matchesIn_newlines (hlead : CodePoint.newline ∉ w.lead) (n : Nat) (t : Text) :
    matchesIn w.template (List.replicate n CodePoint.newline ++ t) = matchesIn w.template t := by
  induction n with
  | zero => rfl
  | succ n ih =>
      rw [List.replicate_succ, List.cons_append,
        matchesIn_cons_of_none (w.matchHere_newline hlead _), ih]

/-- An error is found as a whole, and behind it the search goes on at the end of its line. -/
theorem Wording.matchesIn_render_append (hw : w.Separated) {e : PositionedError}
    (he : e.Legible) {behind : Text}
    (hbehind : behind = [] ∨ ∃ t, behind = CodePoint.newline :: t) :
    matchesIn w.template (w.render e ++ behind) =
      w.matchOf e :: matchesIn w.template behind :=
  matchesIn_append_of_matchHere w.template_ne_nil
    (w.matchHere_spell hw (isNumeral_decimal e.line) (isNumeral_decimal e.column)
      he.message_ne_nil he.newline_not_mem hbehind) rfl

/-- The errors of a list are found one after the other. -/
theorem Wording.matchesIn_list (hlead : CodePoint.newline ∉ w.lead) (hw : w.Separated)
    {first : PositionedError} {later : List (Nat × PositionedError)}
    (hlegible : ∀ e ∈ first :: later.map Prod.snd, e.Legible) :
    matchesIn w.template (w.list first later) =
      (first :: later.map Prod.snd).map w.matchOf := by
  induction later generalizing first with
  | nil =>
      rw [list, List.flatMap_nil,
        w.matchesIn_render_append hw (hlegible first List.mem_cons_self) (Or.inl rfl), matchesIn]
      rfl
  | cons next later ih =>
      obtain ⟨n, second⟩ := next
      have hbehind : w.list first ((n, second) :: later) = w.render first ++
          CodePoint.newline :: (List.replicate n CodePoint.newline ++ w.list second later) := by
        rw [list, list, List.flatMap_cons, List.append_assoc]
        rfl
      rw [hbehind, w.matchesIn_render_append hw (hlegible first List.mem_cons_self)
        (Or.inr ⟨_, rfl⟩), matchesIn_cons_of_none (w.matchHere_newline hlead _),
        w.matchesIn_newlines hlead, ih fun e he => hlegible e (List.mem_cons_of_mem first he)]
      rfl

theorem Wording.findErrors_list_eq (hlead : CodePoint.newline ∉ w.lead) (hw : w.Separated)
    {first : PositionedError} {later : List (Nat × PositionedError)}
    (hlegible : ∀ e ∈ first :: later.map Prod.snd, e.Legible) :
    findErrors w.template (w.list first later) = .ok (.placed (first :: later.map Prod.snd)) := by
  have hfound := w.matchesIn_list hlead hw hlegible
  have hread : ∀ m ∈ matchesIn w.template (w.list first later), m.Readable := by
    rw [hfound]
    refine List.forall_mem_map.mpr fun e he => ?_
    exact (w.readable_matchOf_iff e).mpr
      ⟨(hlegible e he).line_length_le, (hlegible e he).column_length_le⟩
  have hsame : TemplateMatch.reading ∘ w.matchOf = id := funext w.reading_matchOf
  rw [findErrors_of_readable (by simp [hfound]) hread, hfound, List.map_map, hsame, List.map_id]

end Found

/-- Errors without a source, as the compiler puts them into one text. -/
theorem errorSummary_bare (first : PositionedError) (later : List PositionedError) :
    errorSummary ((first :: later).map (·.bare)) =
      defaultWording.list first (later.map fun e => (1, e)) := by
  have htext (e : PositionedError) : e.bare.text = defaultWording.render e := by
    simp only [Wording.render, LocatedError.text, PositionedError.bare, codeFrame?, true_or,
      ↓reduceIte, List.append_assoc]
    rfl
  induction later generalizing first with
  | nil => exact (htext first).trans (List.append_nil _).symm
  | cons second later ih =>
      have hlater := ih second
      rw [errorSummary, List.map_cons, List.map_cons] at hlater
      rw [errorSummary, List.map_cons, List.map_cons, List.map_cons, List.map_cons,
        Text.join_cons_cons, hlater, htext, Wording.list, Wording.list, List.map_cons,
        List.flatMap_cons, List.append_assoc, List.append_assoc]
      rfl

theorem findErrors_errorSummary_bare {first : PositionedError} {later : List PositionedError}
    (hlegible : ∀ e ∈ first :: later, e.Legible) :
    findErrors defaultTemplate (errorSummary ((first :: later).map (·.bare))) =
      .ok (.placed (first :: later)) := by
  have hsame : (later.map fun e => (1, e)).map Prod.snd = later := by
    rw [List.map_map]
    exact List.map_id _
  rw [← hsame] at hlegible
  have hfound := defaultWording.findErrors_list_eq (by decide) defaultWording_separated hlegible
  rw [hsame] at hfound
  rw [errorSummary_bare]
  exact hfound

/-- Errors that are written down in the words of a template, whatever its literal texts are, with
line feeds between each two, are found again: these errors in their order and nothing else.  The
template of the compiler is one of them, so its own text for errors that quote no source gives
them back. -/
theorem findErrors_list {first : PositionedError} {later : List (Nat × PositionedError)}
    (hlegible : ∀ e ∈ first :: later.map Prod.snd, e.Legible) :
    (∀ w : Wording, CodePoint.newline ∉ w.lead → w.Separated →
      parseTemplate w.written = .ok w.template ∧
      findErrors w.template (w.list first later) =
        .ok (.placed (first :: later.map Prod.snd))) ∧
    (defaultWording.written = defaultTemplateText ∧ CodePoint.newline ∉ defaultWording.lead ∧
      defaultWording.Separated ∧ parseTemplate defaultTemplateText = .ok defaultTemplate) ∧
    findErrors defaultTemplate (errorSummary ((first :: later.map Prod.snd).map (·.bare))) =
      .ok (.placed (first :: later.map Prod.snd)) := by
  refine ⟨fun w hlead hw => ⟨w.parseTemplate_written, w.findErrors_list_eq hlead hw hlegible⟩,
    ⟨by decide, by decide, defaultWording_separated, defaultWording.parseTemplate_written⟩,
    findErrors_errorSummary_bare hlegible⟩

/-- Messages that look like whole errors, and literal texts with braces and a line feed. -/
theorem findErrors_list_quoting :
    let w : Wording := ⟨"\x7bat ", "\n/", "\x7d "⟩
    let first : PositionedError := ⟨3, 0, "parse error at 5:6: parse error at 7"⟩
    let second : PositionedError := ⟨0, 41, "\x7bat 5"⟩
    findErrors w.template (w.list first [(2, second)]) = .ok (.placed [first, second]) ∧
      findErrors defaultTemplate (errorSummary [first.bare, second.bare]) =
        .ok (.placed [first, second]) := by
  intro w first second
  have hlegible : ∀ e ∈ first :: [(2, second)].map Prod.snd, e.Legible := by
    intro e he
    simp only [List.map_cons, List.map_nil, List.mem_cons, List.not_mem_nil, or_false] at he
    rcases he with rfl | rfl
    all_goals exact ⟨by decide, by decide, by decide +kernel, by decide +kernel⟩
  obtain ⟨hwording, _, hsummary⟩ := findErrors_list hlegible
  exact ⟨(hwording w (by decide) ⟨⟨_, _, rfl, by decide⟩, ⟨_, _, rfl, by decide⟩⟩).2, hsummary⟩

end VibeScript
