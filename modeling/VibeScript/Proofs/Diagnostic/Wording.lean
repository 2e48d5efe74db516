import VibeScript.Diagnostic
import VibeScript.Proofs.Template.Scan

/-!
Errors in words and back.

A wording renders an error as text.  Searched for with the template of the wording, the
text gives the error back as a whole, and a numeral that is not too long is read as the
number it was written for.
-/

namespace VibeScript

/-- A template with its fields in the order line, column, message: the literal texts
around them. -/
structure Wording where
  lead : Text
  between : Text
  after : Text

namespace Wording

def template (w : Wording) : Template :=
  w.lead.map .char ++ .field .line ::
    (w.between.map .char ++ .field .column :: (w.after.map .char ++ [.field .message]))

/-- The wording filled in. -/
def spell (w : Wording) (line column message : Text) : Text :=
  w.lead ++ (line ++ (w.between ++ (column ++ (w.after ++ message))))

/-- The match of the wording filled in. -/
def spellMatch (w : Wording) (line column message : Text) : TemplateMatch :=
  ⟨[(.line, line), (.column, column), (.message, message)],
    (w.spell line column message).length⟩

def render (w : Wording) (e : PositionedError) : Text :=
  w.spell (decimal e.line) (decimal e.column) e.message

/-- The match of a rendered error. -/
def matchOf (w : Wording) (e : PositionedError) : TemplateMatch :=
  w.spellMatch (decimal e.line) (decimal e.column) e.message

end Wording

/-- A numeral of any length. -/
def IsNumeral (t : Text) : Prop := t ≠ [] ∧ ∀ c ∈ t, c.isAsciiDigit = true

theorem isNumeral_decimal (n : Nat) : IsNumeral (decimal n) :=
  ⟨decimal_ne_nil n, isAsciiDigit_of_mem_decimal n⟩

/-- A text that does not go on with the number in front of it. -/
def EndsNumber (t : Text) : Prop := ∃ c rest, t = c :: rest ∧ c.isAsciiDigit = false

/-- A wording whose literal texts end the numbers in front of them. -/
structure Wording.Separated (w : Wording) : Prop where
  between : EndsNumber w.between
  after : EndsNumber w.after

theorem takeRun_eq_none_of_endsNumber {α : Type} {follow : Text → Option α}
    {literal : Text} (h : EndsNumber literal) (t : Text) :
    takeRun CodePoint.isAsciiDigit follow (literal ++ t) = none := by
  obtain ⟨c, rest, rfl, hc⟩ := h
  exact takeRun_eq_none_of_head hc

/-- A numeral in front of a literal text is taken as a whole. -/
theorem matchHere_numeral {f : TemplateField} (hf : f.admits = CodePoint.isAsciiDigit)
    {numeral : Text} (hnumeral : IsNumeral numeral) {literal : Text}
    (hliteral : EndsNumber literal) {pieces : Template} {t : Text} {m : TemplateMatch}
    (ht : matchHere pieces t = some m) :
    matchHere (.field f :: (literal.map .char ++ pieces)) (numeral ++ (literal ++ t)) =
      some ⟨(f, numeral) :: m.captures, numeral.length + (literal.length + m.length)⟩ := by
  have hrest := matchHere_literal literal pieces t
  rw [ht, Option.map_some] at hrest
  refine matchHere_field hnumeral.1 ?_ ?_ hrest
  · rw [hf]
    exact hnumeral.2
  · rw [hf]
    exact takeRun_eq_none_of_endsNumber hliteral t

/-- The wording filled in is matched as a whole, at the end of a text or of a line. -/
theorem Wording.matchHere_spell {w : Wording} (hw : w.Separated) {line column message : Text}
    (hline : IsNumeral line) (hcolumn : IsNumeral column) (hmessage : message ≠ [])
    (hone : CodePoint.newline ∉ message) {rest : Text}
    (hrest : rest = [] ∨ ∃ t, rest = CodePoint.newline :: t) :
    matchHere w.template (w.spell line column message ++ rest) =
      some (w.spellMatch line column message) := by
  have hadmits : ∀ c ∈ message, TemplateField.message.admits c = true := by
    intro c hc
    have hne : c ≠ CodePoint.newline := by
      intro heq
      exact hone (heq ▸ hc)
    simpa [TemplateField.admits] using hne
  have hstop : takeRun TemplateField.message.admits (matchHere []) rest = none := by
    rcases hrest with rfl | ⟨t, rfl⟩
    · rfl
    · exact takeRun_eq_none_of_head (TemplateField.admits_newline .message)
  have htail : matchHere [.field .message] (message ++ rest) =
      some ⟨[(.message, message)], message.length⟩ :=
    matchHere_field hmessage hadmits hstop rfl
  have hplace := matchHere_numeral (f := .column) rfl hcolumn hw.after htail
  have hnumbers := matchHere_numeral (f := .line) rfl hline hw.between hplace
  have hwhole := matchHere_literal w.lead (.field .line ::
    (w.between.map .char ++ .field .column :: (w.after.map .char ++ [.field .message])))
    (line ++ (w.between ++ (column ++ (w.after ++ (message ++ rest)))))
  rw [hnumbers, Option.map_some] at hwhole
  simp only [template, spell, spellMatch, List.append_assoc, List.length_append]
  exact hwhole

theorem Wording.template_ne_nil (w : Wording) : w.template ≠ [] := by
  simp [template]

/-- The wording filled in has one match, which is all of it. -/
theorem Wording.matchesIn_spell {w : Wording} (hw : w.Separated) {line column message : Text}
    (hline : IsNumeral line) (hcolumn : IsNumeral column) (hmessage : message ≠ [])
    (hone : CodePoint.newline ∉ message) :
    matchesIn w.template (w.spell line column message) =
      [w.spellMatch line column message] := by
  have hmatch := w.matchHere_spell hw hline hcolumn hmessage hone (Or.inl rfl)
  rw [List.append_nil] at hmatch
  exact matchesIn_eq_singleton w.template_ne_nil hmatch rfl

theorem Wording.matchesIn_render {w : Wording} (hw : w.Separated) {e : PositionedError}
    (hmessage : e.message ≠ []) (hone : CodePoint.newline ∉ e.message) :
    matchesIn w.template (w.render e) = [w.matchOf e] :=
  w.matchesIn_spell hw (isNumeral_decimal e.line) (isNumeral_decimal e.column) hmessage hone

namespace TemplateMatch

/-- A match whose two numerals are short enough to be read. -/
def Readable (m : TemplateMatch) : Prop :=
  (m.capture .line).length ≤ digitLimit ∧ (m.capture .column).length ≤ digitLimit

instance (m : TemplateMatch) : Decidable m.Readable :=
  inferInstanceAs (Decidable (_ ∧ _))

/-- What a match says, whatever the length of its numerals. -/
def reading (m : TemplateMatch) : PositionedError :=
  ⟨readDecimal (m.capture .line), readDecimal (m.capture .column), m.capture .message⟩

theorem error_of_readable {m : TemplateMatch} (hm : m.Readable) : m.error = .ok m.reading := by
  have hline : readDecimalWithin (m.capture .line) = .ok (readDecimal (m.capture .line)) :=
    if_pos hm.1
  have hcolumn : readDecimalWithin (m.capture .column) =
      .ok (readDecimal (m.capture .column)) := if_pos hm.2
  rw [error, hline, hcolumn]
  rfl

theorem error_of_not_readable {m : TemplateMatch} (hm : ¬ m.Readable) :
    ∃ e, m.error = .error e := by
  by_cases hline : (m.capture .line).length ≤ digitLimit
  · have hcolumn : ¬ (m.capture .column).length ≤ digitLimit := by
      intro hcolumn
      exact hm ⟨hline, hcolumn⟩
    exact ⟨⟨(m.capture .column).length⟩, by
      rw [error, readDecimalWithin, if_pos hline, readDecimalWithin, if_neg hcolumn]
      rfl⟩
  · exact ⟨⟨(m.capture .line).length⟩, by
      rw [error, readDecimalWithin, if_neg hline]
      rfl⟩

end TemplateMatch

/-- A rendered error is read back. -/
theorem Wording.reading_matchOf (w : Wording) (e : PositionedError) :
    (w.matchOf e).reading = e := by
  change PositionedError.mk (readDecimal (decimal e.line)) (readDecimal (decimal e.column))
    e.message = e
  rw [readDecimal_decimal, readDecimal_decimal]

theorem Wording.readable_matchOf_iff (w : Wording) (e : PositionedError) :
    (w.matchOf e).Readable ↔
      (decimal e.line).length ≤ digitLimit ∧ (decimal e.column).length ≤ digitLimit :=
  Iff.rfl

/-- Matches are read one by one, and one that cannot be read spoils them all. -/
theorem mapM_error_of_readable {found : List TemplateMatch}
    (hfound : ∀ m ∈ found, m.Readable) :
    found.mapM TemplateMatch.error = .ok (found.map TemplateMatch.reading) := by
  induction found with
  | nil => rfl
  | cons m rest ih =>
      rw [List.mapM_cons, TemplateMatch.error_of_readable (hfound m List.mem_cons_self),
        ih fun x hx => hfound x (List.mem_cons_of_mem m hx)]
      rfl

theorem mapM_error_of_not_readable {found : List TemplateMatch} {m : TemplateMatch}
    (hm : m ∈ found) (hread : ¬ m.Readable) :
    ∃ e, found.mapM TemplateMatch.error = .error e := by
  induction found with
  | nil => exact absurd hm List.not_mem_nil
  | cons first rest ih =>
      rw [List.mapM_cons]
      by_cases hfirst : first.Readable
      · rcases List.mem_cons.mp hm with rfl | hmem
        · exact absurd hfirst hread
        · obtain ⟨e, he⟩ := ih hmem
          exact ⟨e, by rw [TemplateMatch.error_of_readable hfirst, he]; rfl⟩
      · obtain ⟨e, he⟩ := TemplateMatch.error_of_not_readable hfirst
        exact ⟨e, by rw [he]; rfl⟩

/-- What is found in a text that has matches. -/
theorem findErrors_of_readable {template : Template} {message : Text}
    (hne : matchesIn template message ≠ [])
    (hread : ∀ m ∈ matchesIn template message, m.Readable) :
    findErrors template message =
      .ok (.placed ((matchesIn template message).map TemplateMatch.reading)) := by
  unfold findErrors
  split
  · next hnil => exact absurd hnil hne
  · rw [mapM_error_of_readable hread]
    rfl

theorem findErrors_of_not_readable {template : Template} {message : Text}
    {m : TemplateMatch} (hm : m ∈ matchesIn template message) (hread : ¬ m.Readable) :
    ∃ e, findErrors template message = .error e := by
  unfold findErrors
  split
  · next hnil =>
      rw [hnil] at hm
      exact absurd hm List.not_mem_nil
  · obtain ⟨e, he⟩ := mapM_error_of_not_readable hm hread
    exact ⟨e, by rw [he]; rfl⟩

/-- The wording of the errors of the compiler. -/
def defaultWording : Wording := ⟨"parse error at ", ":", ": "⟩

theorem defaultTemplate_ne_nil : defaultTemplate ≠ [] := defaultWording.template_ne_nil

theorem defaultWording_separated : defaultWording.Separated :=
  ⟨⟨_, _, rfl, by decide⟩, ⟨_, _, rfl, by decide⟩⟩

theorem defaultTemplate_oneLine : defaultTemplate.OneLine :=
  ⟨by decide, by decide⟩

end VibeScript
