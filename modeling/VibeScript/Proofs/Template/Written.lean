import VibeScript.Proofs.Steps
import VibeScript.Template

/-!
How a template is written.

A text is read as a template exactly if it is a written form of that template and the template
has each field once (`parseTemplate_eq_ok_iff`).
-/

namespace VibeScript

/-- What stands behind the name of a field: the closing brace, in front of it nothing, an empty
specification, a null character in the place of a conversion, or both. -/
def fieldStops : List Text := ["\x7d", ":\x7d", "!\x00\x7d", "!\x00:\x7d"]

/-- The written forms of a template: a brace is written twice, every other character stands for
itself, and a field is its name in braces. -/
inductive Template.WrittenAs : Template → Text → Prop
  | nil : WrittenAs [] []
  | char {pieces : Template} {t : Text} (c : CodePoint) (hopen : c ≠ CodePoint.openBrace)
      (hclose : c ≠ CodePoint.closeBrace) (h : WrittenAs pieces t) :
      WrittenAs (.char c :: pieces) (c :: t)
  | brace {pieces : Template} {t : Text} (c : CodePoint)
      (hbrace : c = CodePoint.openBrace ∨ c = CodePoint.closeBrace) (h : WrittenAs pieces t) :
      WrittenAs (.char c :: pieces) (c :: c :: t)
  | field {pieces : Template} {t stop : Text} (f : TemplateField) (hstop : stop ∈ fieldStops)
      (h : WrittenAs pieces t) :
      WrittenAs (.field f :: pieces) (CodePoint.openBrace :: (f.name ++ (stop ++ t)))

/-- A template that has a place for each field, and only one. -/
def Template.HasEachField (template : Template) : Prop :=
  ∀ f : TemplateField, template.count (.field f) = 1

namespace TemplateField

theorem name_injective {f g : TemplateField} (h : f.name = g.name) : f = g := by
  cases f <;> cases g <;> first | rfl | exact absurd h (by decide)

theorem mem_all (f : TemplateField) : f ∈ all := by
  cases f <;> decide

theorem exists_cons_name (f : TemplateField) :
    ∃ c rest, f.name = c :: rest ∧ c ≠ CodePoint.openBrace := by
  cases f <;> exact ⟨_, _, rfl, by decide⟩

end TemplateField

/-- A scanned name ends at a character that ends names. -/
theorem scanFieldName_sound {bracketed : Bool} {t name : Text} {stop : CodePoint} {length : Nat}
    (h : scanFieldName bracketed t = .ok (name, stop, length)) :
    t = name ++ stop :: t.drop length ∧
      (stop = CodePoint.closeBrace ∨ stop = CodePoint.colon ∨ stop = '!') := by
  induction t generalizing bracketed name length with
  | nil => cases h
  | cons c rest ih =>
      rw [scanFieldName] at h
      split at h
      · obtain ⟨⟨name', stop', length'⟩, hrest, hresult⟩ := exists_of_bind_eq_ok h
        cases hresult
        obtain ⟨hsplit, hstop⟩ := ih hrest
        exact ⟨congrArg (c :: ·) hsplit, hstop⟩
      · split at h
        · cases h
        · split at h
          · next hstop =>
              cases h
              exact ⟨rfl, hstop⟩
          · obtain ⟨⟨name', stop', length'⟩, hrest, hresult⟩ := exists_of_bind_eq_ok h
            cases hresult
            obtain ⟨hsplit, hstop⟩ := ih hrest
            exact ⟨congrArg (c :: ·) hsplit, hstop⟩

/-- Only the brace that closes a field ends an empty specification. -/
theorem scanSpec_eq_nil {depth length : Nat} {t : Text} (h : scanSpec depth t = .ok ([], length)) :
    t = CodePoint.closeBrace :: t.drop length := by
  cases t with
  | nil => cases h
  | cons c rest =>
      rw [scanSpec] at h
      split at h
      · next hclose =>
          cases h
          rw [hclose.1]
          rfl
      · obtain ⟨_, _, hresult⟩ := exists_of_bind_eq_ok h
        cases hresult

theorem eq_null_of_conversion {c : CodePoint} (h : (some c).all (·.val = 0) = true) :
    c = '\x00' :=
  CodePoint.ext_val (of_decide_eq_true h)

/-- A field with nothing behind its name is written as its name and one of the stops. -/
theorem scanField_sound {t : Text} {written : WrittenField} {length : Nat}
    (h : scanField t = .ok (written, length)) (hspec : written.spec = [])
    (hconversion : written.conversion.all (·.val = 0) = true) :
    ∃ stop ∈ fieldStops, t = written.name ++ (stop ++ t.drop length) := by
  rw [scanField] at h
  obtain ⟨⟨name, stop, nameLength⟩, hname, h⟩ := exists_of_bind_eq_ok h
  obtain ⟨hsplit, hstop⟩ := scanFieldName_sound hname
  simp only at h
  split at h
  · next hclose =>
      cases h
      refine ⟨"\x7d", by simp [fieldStops], ?_⟩
      rw [hclose] at hsplit
      exact hsplit
  · next hclose =>
      split at h
      · next hcolon =>
          obtain ⟨⟨spec, specLength⟩, hscan, h⟩ := exists_of_bind_eq_ok h
          cases h
          obtain rfl : spec = [] := hspec
          have hrest := scanSpec_eq_nil hscan
          refine ⟨":\x7d", by simp [fieldStops], ?_⟩
          rw [hcolon, hrest, List.drop_drop] at hsplit
          exact hsplit
      · next hcolon =>
          obtain rfl : stop = '!' := (hstop.resolve_left hclose).resolve_left hcolon
          split at h
          · cases h
          · cases h
          · next conversion c rest hafter =>
              have hbehind : t.drop (nameLength + 2) = rest := by
                rw [← List.drop_drop, hafter]
                rfl
              split at h
              · next hbrace =>
                  cases h
                  refine ⟨"!\x00\x7d", by simp [fieldStops], ?_⟩
                  rw [hafter, eq_null_of_conversion hconversion, hbrace, ← hbehind] at hsplit
                  exact hsplit
              · split at h
                · next hcolon =>
                    obtain ⟨⟨spec, specLength⟩, hscan, h⟩ := exists_of_bind_eq_ok h
                    cases h
                    obtain rfl : spec = [] := hspec
                    have hrest := scanSpec_eq_nil hscan
                    refine ⟨"!\x00:\x7d", by simp [fieldStops], ?_⟩
                    rw [hafter, eq_null_of_conversion hconversion, hcolon, hrest, ← hbehind,
                      List.drop_drop] at hsplit
                    exact hsplit
                · cases h

/-- The name of a field with a stop behind it is scanned as the field. -/
theorem scanField_of_stop (f : TemplateField) {stop : Text} (hstop : stop ∈ fieldStops)
    (t : Text) :
    ∃ conversion : Option CodePoint, conversion.all (·.val = 0) = true ∧
      scanField (f.name ++ (stop ++ t)) =
        .ok (⟨f.name, conversion, []⟩, f.name.length + stop.length) := by
  simp only [fieldStops, List.mem_cons, List.not_mem_nil, or_false] at hstop
  rcases hstop with rfl | rfl | rfl | rfl <;> cases f
  all_goals exact ⟨_, by decide, rfl⟩

/-- A field is meant if its name stands alone and the field has not come before. -/
theorem WrittenField.field?_eq_some_iff {written : WrittenField} {seen : List TemplateField}
    {f : TemplateField} :
    written.field? seen = some f ↔ written.spec = [] ∧
      written.conversion.all (·.val = 0) = true ∧ written.name = f.name ∧ f ∉ seen := by
  rw [field?]
  split
  · next hbare =>
      constructor
      · intro h
        have hfound := List.find?_some h
        simp only [decide_eq_true_eq] at hfound
        exact ⟨hbare.1, hbare.2, hfound.1.symm, hfound.2⟩
      · rintro ⟨_, _, hname, hseen⟩
        cases hfind : TemplateField.all.find? fun field =>
            decide (field.name = written.name ∧ field ∉ seen) with
        | none =>
            have hnot := List.find?_eq_none.mp hfind f f.mem_all
            simp only [decide_eq_true_eq] at hnot
            exact absurd ⟨hname.symm, hseen⟩ hnot
        | some g =>
            have hfound := List.find?_some hfind
            simp only [decide_eq_true_eq] at hfound
            rw [TemplateField.name_injective (hfound.1.trans hname)]
  · next hbare =>
      constructor
      · intro h
        cases h
      · rintro ⟨hspec, hconversion, _⟩
        exact absurd ⟨hspec, hconversion⟩ hbare

section Parser

variable {written : Text} {seen : List TemplateField}

theorem parseTemplateFrom_char {c : CodePoint} (hopen : c ≠ CodePoint.openBrace)
    (hclose : c ≠ CodePoint.closeBrace) (t : Text) :
    parseTemplateFrom written seen (c :: t) =
      (parseTemplateFrom written seen t).map (.char c :: ·) := by
  rw [parseTemplateFrom.eq_def]
  simp only [hopen, hclose, ↓reduceIte]
  cases parseTemplateFrom written seen t <;> rfl

theorem parseTemplateFrom_brace {c : CodePoint}
    (hbrace : c = CodePoint.openBrace ∨ c = CodePoint.closeBrace) (t : Text) :
    parseTemplateFrom written seen (c :: c :: t) =
      (parseTemplateFrom written seen t).map (.char c :: ·) := by
  have hne : CodePoint.closeBrace ≠ CodePoint.openBrace := by decide
  rw [parseTemplateFrom.eq_def]
  rcases hbrace with rfl | rfl
  · simp only [↓reduceIte]
    cases parseTemplateFrom written seen t <;> rfl
  · simp only [hne, ↓reduceIte]
    cases parseTemplateFrom written seen t <;> rfl

theorem parseTemplateFrom_field {f : TemplateField} (hseen : f ∉ seen) {stop : Text}
    (hstop : stop ∈ fieldStops) (t : Text) :
    parseTemplateFrom written seen (CodePoint.openBrace :: (f.name ++ (stop ++ t))) =
      (parseTemplateFrom written (f :: seen) t).map (.field f :: ·) := by
  obtain ⟨conversion, hconversion, hscan⟩ := scanField_of_stop f hstop t
  obtain ⟨d, more, hname, hd⟩ := f.exists_cons_name
  have hdrop : (f.name ++ (stop ++ t)).drop (f.name.length + stop.length) = t := by
    rw [List.drop_length_add_append, List.drop_left]
  have hfield : WrittenField.field? ⟨f.name, conversion, []⟩ seen = some f :=
    WrittenField.field?_eq_some_iff.mpr ⟨rfl, hconversion, rfl, hseen⟩
  rw [hname] at hfield hscan hdrop ⊢
  rw [List.cons_append] at hscan hdrop ⊢
  rw [parseTemplateFrom.eq_def]
  simp only [hd, ↓reduceIte, hscan, bind, Except.bind, hfield, hdrop]
  cases parseTemplateFrom written (f :: seen) t <;> rfl

/-- What a text begins with that is read as a template. -/
theorem exists_of_parseTemplateFrom {c : CodePoint} {t : Text} {template : Template}
    (h : parseTemplateFrom written seen (c :: t) = .ok template) :
    (∃ pieces, c ≠ CodePoint.openBrace ∧ c ≠ CodePoint.closeBrace ∧
      template = .char c :: pieces ∧ parseTemplateFrom written seen t = .ok pieces) ∨
    (∃ rest pieces, (c = CodePoint.openBrace ∨ c = CodePoint.closeBrace) ∧ t = c :: rest ∧
      template = .char c :: pieces ∧ parseTemplateFrom written seen rest = .ok pieces) ∨
    ∃ f stop rest pieces, stop ∈ fieldStops ∧ f ∉ seen ∧ c = CodePoint.openBrace ∧
      t = f.name ++ (stop ++ rest) ∧ template = .field f :: pieces ∧
      parseTemplateFrom written (f :: seen) rest = .ok pieces := by
  rw [parseTemplateFrom.eq_def] at h
  simp only at h
  split at h
  · next hopen =>
      split at h
      · cases h
      · next d more =>
          split at h
          · next hd =>
              obtain ⟨pieces, hparse, h⟩ := exists_of_bind_eq_ok h
              cases h
              exact Or.inr (Or.inl ⟨more, pieces, Or.inl hopen, by rw [hd], rfl, hparse⟩)
          · obtain ⟨⟨field, length⟩, hscan, h⟩ := exists_of_bind_eq_ok h
            simp only at h
            split at h
            · next f hfield =>
                obtain ⟨pieces, hparse, h⟩ := exists_of_bind_eq_ok h
                cases h
                obtain ⟨hspec, hconversion, hname, hseen⟩ :=
                  WrittenField.field?_eq_some_iff.mp hfield
                obtain ⟨stop, hstop, hsplit⟩ := scanField_sound hscan hspec hconversion
                rw [hname] at hsplit
                exact Or.inr (Or.inr ⟨f, stop, _, pieces, hstop, hseen, hopen, hsplit, rfl, hparse⟩)
            · cases h
  · next hopen =>
      split at h
      · next hclose =>
          split at h
          · cases h
          · next d more =>
              split at h
              · next hd =>
                  obtain ⟨pieces, hparse, h⟩ := exists_of_bind_eq_ok h
                  cases h
                  exact Or.inr (Or.inl ⟨more, pieces, Or.inr hclose, by rw [hd], rfl, hparse⟩)
              · cases h
      · next hclose =>
          obtain ⟨pieces, hparse, h⟩ := exists_of_bind_eq_ok h
          cases h
          exact Or.inl ⟨pieces, hopen, hclose, rfl, hparse⟩

theorem count_cons_char (c : CodePoint) (pieces : Template) (f : TemplateField) :
    List.count (TemplatePiece.field f) (.char c :: pieces) =
      List.count (TemplatePiece.field f) pieces :=
  List.count_cons_of_ne (by simp)

/-- Behind a field of a template there is no other place for it. -/
theorem count_behind_iff {f : TemplateField} (hseen : f ∉ seen) (pieces : Template) :
    (∀ g : TemplateField, List.count (.field g) (.field f :: pieces) =
        if g ∈ seen then 0 else 1) ↔
      ∀ g : TemplateField, List.count (.field g) pieces = if g ∈ f :: seen then 0 else 1 := by
  refine forall_congr' fun g => ?_
  by_cases hg : g = f
  · subst hg
    simp [hseen]
  · have hne : TemplatePiece.field f ≠ .field g := by simpa using Ne.symm hg
    rw [List.count_cons_of_ne hne]
    simp [hg]

theorem writtenAs_of_parseTemplateFrom {t : Text} {template : Template}
    (h : parseTemplateFrom written seen t = .ok template) :
    template.WrittenAs t ∧
      ∀ f : TemplateField, template.count (.field f) = if f ∈ seen then 0 else 1 := by
  induction hlength : t.length using Nat.strongRecOn generalizing t seen template with
  | ind n ih =>
      cases t with
      | nil =>
          rw [parseTemplateFrom] at h
          split at h
          · next hmissing =>
              cases h
              refine ⟨.nil, fun f => ?_⟩
              have hf := List.filter_eq_nil_iff.mp hmissing f f.mem_all
              rw [if_pos (by simpa using hf)]
              rfl
          · cases h
      | cons c t =>
          rw [List.length_cons] at hlength
          rcases exists_of_parseTemplateFrom h with
            ⟨pieces, hopen, hclose, rfl, hparse⟩ | ⟨rest, pieces, hbrace, rfl, rfl, hparse⟩ |
            ⟨f, stop, rest, pieces, hstop, hseen, rfl, rfl, rfl, hparse⟩
          · obtain ⟨hwritten, hcount⟩ := ih t.length (by omega) hparse rfl
            exact ⟨.char c hopen hclose hwritten, fun g => (count_cons_char c _ g).trans (hcount g)⟩
          · rw [List.length_cons] at hlength
            obtain ⟨hwritten, hcount⟩ := ih rest.length (by omega) hparse rfl
            exact ⟨.brace c hbrace hwritten, fun g => (count_cons_char c _ g).trans (hcount g)⟩
          · rw [List.length_append, List.length_append] at hlength
            obtain ⟨hwritten, hcount⟩ := ih rest.length (by omega) hparse rfl
            exact ⟨.field f hstop hwritten, (count_behind_iff hseen pieces).mpr hcount⟩

theorem parseTemplateFrom_of_writtenAs {t : Text} {template : Template}
    (h : template.WrittenAs t)
    (hcount : ∀ f : TemplateField, template.count (.field f) = if f ∈ seen then 0 else 1) :
    parseTemplateFrom written seen t = .ok template := by
  induction h generalizing seen with
  | nil =>
      have hmissing : TemplateField.all.filter (fun f => decide (f ∉ seen)) = [] := by
        refine List.filter_eq_nil_iff.mpr fun f _ => ?_
        have hf := hcount f
        simp only [List.count_nil] at hf
        split at hf
        · next hseen => simpa using hseen
        · cases hf
      rw [parseTemplateFrom]
      simp only [hmissing, ↓reduceIte]
  | char c hopen hclose _ ih =>
      rw [parseTemplateFrom_char hopen hclose,
        ih fun f => (count_cons_char c _ f).symm.trans (hcount f)]
      rfl
  | brace c hbrace _ ih =>
      rw [parseTemplateFrom_brace hbrace,
        ih fun f => (count_cons_char c _ f).symm.trans (hcount f)]
      rfl
  | field f hstop _ ih =>
      have hseen : f ∉ seen := by
        intro hmem
        have hf := hcount f
        rw [if_pos hmem, List.count_cons_self] at hf
        cases hf
      rw [parseTemplateFrom_field hseen hstop, ih ((count_behind_iff hseen _).mp hcount)]
      rfl

end Parser

/-- A text is read as a template exactly if it is a written form of it and the template has
each field once. -/
theorem parseTemplate_eq_ok_iff {t : Text} {template : Template} :
    parseTemplate t = .ok template ↔ template.WrittenAs t ∧ template.HasEachField :=
  ⟨writtenAs_of_parseTemplateFrom, fun h => parseTemplateFrom_of_writtenAs h.1 h.2⟩

end VibeScript
