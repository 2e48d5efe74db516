import VibeScript.Proofs.Diagnostic.Wording
import VibeScript.Proofs.Template.Filling

/-!
The search for errors with any template.

For every text that is read as a template, the search finds exactly the instances that a reading
from left to right comes upon, and no place of the template at all only if no part of the text is
an instance (`findErrors_iff_scanned`).
-/

namespace VibeScript

/-- The error that is reported by the texts of the fields. -/
def reportedError (values : TemplateField → Text) : PositionedError :=
  ⟨readDecimal (values .line), readDecimal (values .column), values .message⟩

/-- Numbers that are short enough to be read. -/
def HasFewDigits (values : TemplateField → Text) : Prop :=
  (values .line).length ≤ digitLimit ∧ (values .column).length ≤ digitLimit

section

variable {template : Template} {message : Text}

/-- A text without any match is the answer itself, and no other text is. -/
theorem findErrors_eq_unplaced_iff (other : Text) :
    findErrors template message = .ok (.unplaced other) ↔
      other = message ∧ matchesIn template message = [] := by
  unfold findErrors
  split
  · next hnil =>
      constructor
      · intro h
        cases h
        exact ⟨rfl, hnil⟩
      · rintro ⟨rfl, _⟩
        rfl
  · next hsome =>
      constructor
      · intro h
        cases herrors : (matchesIn template message).mapM TemplateMatch.error with
        | error e =>
            rw [herrors] at h
            cases h
        | ok errors =>
            rw [herrors] at h
            cases h
      · rintro ⟨_, hnil⟩
        exact absurd hnil hsome

theorem findErrors_fails_iff :
    (∃ e, findErrors template message = .error e) ↔
      ∃ m ∈ matchesIn template message, ¬ m.Readable := by
  constructor
  · rintro ⟨e, he⟩
    by_cases hread : ∀ m ∈ matchesIn template message, m.Readable
    · by_cases hnone : matchesIn template message = []
      · rw [(findErrors_eq_unplaced_iff message).mpr ⟨rfl, hnone⟩] at he
        cases he
      · rw [findErrors_of_readable hnone hread] at he
        cases he
    · simpa using hread
  · rintro ⟨m, hm, hread⟩
    exact findErrors_of_not_readable hm hread

theorem findErrors_eq_placed_iff (errors : List PositionedError) :
    findErrors template message = .ok (.placed errors) ↔
      matchesIn template message ≠ [] ∧ (∀ m ∈ matchesIn template message, m.Readable) ∧
        errors = (matchesIn template message).map TemplateMatch.reading := by
  by_cases hnone : matchesIn template message = []
  · rw [(findErrors_eq_unplaced_iff message).mpr ⟨rfl, hnone⟩]
    simp [hnone]
  · by_cases hread : ∀ m ∈ matchesIn template message, m.Readable
    · rw [findErrors_of_readable hnone hread, Except.ok.injEq, FoundErrors.placed.injEq]
      exact ⟨fun h => ⟨hnone, hread, h.symm⟩, fun h => h.2.2.symm⟩
    · obtain ⟨e, he⟩ := findErrors_fails_iff.mpr (by simpa using hread)
      rw [he]
      simp [hread]

end

/-- What a search finds with a template, whatever its wording.  The text itself is the answer
exactly if no part of it is an instance.  Otherwise the text is read from left to right as
instances and parts between them in which no instance starts, and the errors are what the
instances report, in their order; only a number with too many digits prevents it. -/
theorem findErrors_iff_scanned {written : Text} {template : Template}
    (htemplate : parseTemplate written = .ok template) (message : Text) :
    template.WrittenAs written ∧ template.HasEachField ∧
    (∀ other, findErrors template message = .ok (.unplaced other) ↔
      other = message ∧ ∀ values, FitsFields values → ¬ template.fill values <:+: message) ∧
    ∃ found, template.Scanned message found ∧
      (found = [] ↔ ∀ values, FitsFields values → ¬ template.fill values <:+: message) ∧
      (∀ errors, findErrors template message = .ok (.placed errors) ↔
        found ≠ [] ∧ (∀ values ∈ found, HasFewDigits values) ∧
          errors = found.map reportedError) ∧
      ((∃ e, findErrors template message = .error e) ↔
        ∃ values ∈ found, ¬ HasFewDigits values) := by
  obtain ⟨hwritten, hfields⟩ := parseTemplate_eq_ok_iff.mp htemplate
  have hnone := matchesIn_eq_nil_iff_fill hfields message
  refine ⟨hwritten, hfields, fun other => ?_,
    (matchesIn template message).map TemplateMatch.capture, scanned_matchesIn hfields message,
    ?_, fun errors => ?_, ?_⟩
  · rw [findErrors_eq_unplaced_iff, hnone]
  · rw [List.map_eq_nil_iff, hnone]
  · rw [findErrors_eq_placed_iff, List.map_map, ne_eq, ne_eq, List.map_eq_nil_iff,
      List.forall_mem_map]
    rfl
  · rw [findErrors_fails_iff]
    constructor
    · rintro ⟨m, hm, hread⟩
      exact ⟨_, List.mem_map_of_mem hm, hread⟩
    · rintro ⟨_, hvalues, hread⟩
      obtain ⟨m, hm, rfl⟩ := List.mem_map.mp hvalues
      exact ⟨m, hm, hread⟩

/-- A template whose fields touch each other and a brace: the message gives back the digits that
the numbers behind it need, and the first line holds a text in which no instance starts. -/
theorem findErrors_iff_scanned_touching :
    let written : Text := "\x7b\x7b\x7bmessage\x7d\x7bcolumn\x7d\x7bline:\x7d"
    let template : Template :=
      [.char CodePoint.openBrace, .field .message, .field .column, .field .line]
    let message : Text := "12\x7ba12\n\x7b3\n\x7bb3\x7bcde4567"
    parseTemplate written = .ok template ∧
      ∃ found, template.Scanned message found ∧
        found.map reportedError = [⟨2, 1, "a"⟩, ⟨7, 6, "b3\x7bcde45"⟩] := by
  intro written template message
  have htemplate : parseTemplate written = .ok template :=
    toOption_eq_some_iff.mp (by decide +kernel)
  have hplaced : findErrors template message =
      .ok (.placed [⟨2, 1, "a"⟩, ⟨7, 6, "b3\x7bcde45"⟩]) :=
    toOption_eq_some_iff.mp (by decide +kernel)
  obtain ⟨_, _, _, found, hscanned, _, hread, _⟩ := findErrors_iff_scanned htemplate message
  exact ⟨htemplate, found, hscanned, ((hread _).mp hplaced).2.2.symm⟩

end VibeScript
