import VibeScript.Proofs.Template.Instances
import VibeScript.Proofs.Template.Written

/-!
Templates filled in, and the search for them.

The instances of a template are what `Template.fill` makes of it.  A search reads a text from
left to right, and no instance starts at a place that it passes over (`scanned_matchesIn`).
-/

namespace VibeScript

def TemplatePiece.fill (values : TemplateField → Text) : TemplatePiece → Text
  | .char c => [c]
  | .field f => values f

/-- A template with a text in the place of each field. -/
def Template.fill (template : Template) (values : TemplateField → Text) : Text :=
  template.flatMap (·.fill values)

/-- Texts that fields can hold: none is empty, and each field admits the characters of its
own. -/
def FitsFields (values : TemplateField → Text) : Prop :=
  ∀ f : TemplateField, values f ≠ [] ∧ ∀ c ∈ values f, f.admits c = true

/-- No instance of a template starts in a part of a text, not even one that goes on behind
it. -/
def Template.Skips (template : Template) (part behind : Text) : Prop :=
  ∀ before c after, part = before ++ c :: after →
    ∀ values, FitsFields values → ¬ template.fill values <+: c :: after ++ behind

/-- What a text is read as from left to right: instances of a template, each with what its
fields hold, and between them parts in which no instance starts. -/
inductive Template.Scanned (template : Template) : Text → List (TemplateField → Text) → Prop
  | done {t : Text} (hskips : template.Skips t []) : Scanned template t []
  | found {gap rest : Text} {values : TemplateField → Text} {later : List (TemplateField → Text)}
      (hskips : template.Skips gap (template.fill values ++ rest)) (hfits : FitsFields values)
      (hrest : Scanned template rest later) :
      Scanned template (gap ++ (template.fill values ++ rest)) (values :: later)

section Fill

variable {pieces : Template} {values others : TemplateField → Text}

theorem Template.fill_cons (piece : TemplatePiece) (pieces : Template)
    (values : TemplateField → Text) :
    Template.fill (piece :: pieces) values = piece.fill values ++ Template.fill pieces values :=
  List.flatMap_cons

/-- Only the texts of its own fields matter to a template. -/
theorem Template.fill_congr (h : ∀ f, TemplatePiece.field f ∈ pieces → values f = others f) :
    pieces.fill values = pieces.fill others := by
  induction pieces with
  | nil => rfl
  | cons piece pieces ih =>
      rw [fill_cons, fill_cons, ih fun f hf => h f (List.mem_cons_of_mem piece hf)]
      cases piece with
      | char c => rfl
      | field f => rw [TemplatePiece.fill, TemplatePiece.fill, h f List.mem_cons_self]

theorem Template.spells_fill (pieces : Template) (hfits : FitsFields values) :
    pieces.Spells (pieces.fill values) := by
  induction pieces with
  | nil => exact .nil
  | cons piece pieces ih =>
      rw [fill_cons]
      cases piece with
      | char c => exact .char c ih
      | field f => exact .field f (values f) (hfits f).1 (hfits f).2 ih

end Fill

section Matches

variable {template : Template} {t : Text} {m : TemplateMatch}

theorem TemplateMatch.capture_cons_self (f : TemplateField) (run : Text)
    (captures : List (TemplateField × Text)) (length : Nat) :
    TemplateMatch.capture ⟨(f, run) :: captures, length⟩ f = run := by
  simp [capture]

theorem TemplateMatch.capture_cons_of_ne {f g : TemplateField} (h : f ≠ g) (run : Text)
    (m : TemplateMatch) (length : Nat) :
    TemplateMatch.capture ⟨(f, run) :: m.captures, length⟩ g = m.capture g := by
  simp [capture, h]

/-- A match is the template filled with what the match has captured. -/
theorem exists_append_of_matchHere {pieces : Template}
    (honce : ∀ f : TemplateField, pieces.count (.field f) ≤ 1)
    (h : matchHere pieces t = some m) :
    ∃ rest, t = pieces.fill m.capture ++ rest ∧ (pieces.fill m.capture).length = m.length ∧
      ∀ f, TemplatePiece.field f ∈ pieces →
        m.capture f ≠ [] ∧ ∀ c ∈ m.capture f, f.admits c = true := by
  induction pieces generalizing t m with
  | nil =>
      cases h
      exact ⟨t, rfl, rfl, fun f hf => nomatch hf⟩
  | cons piece pieces ih =>
      have hless : ∀ f : TemplateField, pieces.count (.field f) ≤ 1 := fun f =>
        Nat.le_trans List.count_le_count_cons (honce f)
      cases piece with
      | char c =>
          cases t with
          | nil => cases h
          | cons d rest =>
              rw [matchHere] at h
              split at h
              · next hc =>
                  obtain ⟨m', hm', rfl⟩ := Option.map_eq_some_iff.mp h
                  obtain ⟨behind, rfl, hlength, hadmits⟩ := ih hless hm'
                  have hsame : TemplateMatch.capture ⟨m'.captures, m'.length + 1⟩ = m'.capture :=
                    rfl
                  refine ⟨behind, ?_, ?_, fun f hf => ?_⟩
                  · rw [hc, hsame, Template.fill_cons]
                    rfl
                  · rw [hsame, Template.fill_cons, List.length_append, hlength, Nat.add_comm]
                    rfl
                  · exact hadmits f ((List.mem_cons.mp hf).resolve_left (by simp))
              · cases h
      | field f =>
          rw [matchHere] at h
          obtain ⟨⟨n, m'⟩, htake, rfl⟩ := Option.map_eq_some_iff.mp h
          obtain ⟨run, rest, rfl, rfl, hrun, hadmits, hfollow⟩ := takeRun_sound htake
          obtain ⟨behind, rfl, hlength, hbehind⟩ := ih hless hfollow
          have hown : TemplateMatch.capture
              ⟨(f, run) :: m'.captures, run.length + m'.length⟩ f = run :=
            TemplateMatch.capture_cons_self ..
          have hother (g : TemplateField) (hg : TemplatePiece.field g ∈ pieces) :
              TemplateMatch.capture ⟨(f, run) :: m'.captures, run.length + m'.length⟩ g =
                m'.capture g := by
            refine TemplateMatch.capture_cons_of_ne (fun hf => ?_) run m' _
            have hcount := honce f
            rw [List.count_cons_self] at hcount
            have hpositive := List.count_pos_iff.mpr (hf ▸ hg)
            omega
          simp only [List.take_left]
          refine ⟨behind, ?_, ?_, fun g hg => ?_⟩
          · rw [Template.fill_cons, TemplatePiece.fill, hown, Template.fill_congr hother,
              List.append_assoc]
          · rw [Template.fill_cons, TemplatePiece.fill, hown, Template.fill_congr hother,
              List.length_append, hlength]
          · rcases List.mem_cons.mp hg with heq | hg
            · cases heq
              rw [hown]
              exact ⟨hrun, hadmits⟩
            · rw [hother g hg]
              exact hbehind g hg

theorem Template.HasEachField.ne_nil (hfields : template.HasEachField) : template ≠ [] := by
  rintro rfl
  exact absurd (hfields .line) (by decide)

/-- A match of a template with all fields has captured texts that fit them. -/
theorem Template.HasEachField.fits_capture (hfields : template.HasEachField)
    (h : matchHere template t = some m) : FitsFields m.capture := by
  intro f
  obtain ⟨_, _, _, hadmits⟩ :=
    exists_append_of_matchHere (fun g => Nat.le_of_eq (hfields g)) h
  have hcount := hfields f
  exact hadmits f (List.count_pos_iff.mp (by omega))

theorem not_prefix_of_matchHere_eq_none (h : matchHere template t = none)
    (values : TemplateField → Text) (hfits : FitsFields values) :
    ¬ template.fill values <+: t := by
  rintro ⟨behind, rfl⟩
  have hfound := matchHere_complete (template.spells_fill hfits) behind
  rw [h] at hfound
  cases hfound

theorem Template.skips_nil (template : Template) (behind : Text) : template.Skips [] behind := by
  intro before c after hsplit
  simp at hsplit

theorem Template.Skips.cons {c : CodePoint} {part behind : Text}
    (hskips : template.Skips part behind)
    (hnone : ∀ values, FitsFields values → ¬ template.fill values <+: c :: part ++ behind) :
    template.Skips (c :: part) behind := by
  intro before d after hsplit
  cases before with
  | nil =>
      obtain ⟨rfl, rfl⟩ := List.cons.inj hsplit
      exact hnone
  | cons b before => exact hskips before d after (List.cons.inj hsplit).2

/-- A place where no instance starts is passed over. -/
theorem Template.Scanned.cons {found : List (TemplateField → Text)} {c : CodePoint}
    (hrest : template.Scanned t found)
    (hnone : ∀ values, FitsFields values → ¬ template.fill values <+: c :: t) :
    template.Scanned (c :: t) found := by
  cases hrest with
  | done hskips =>
      rw [← List.append_nil (c :: t)] at hnone
      exact .done (hskips.cons hnone)
  | found hskips hfits hlater =>
      exact .found (hskips.cons hnone) hfits hlater

/-- A search goes through the text from left to right. -/
theorem scanned_matchesIn (hfields : template.HasEachField) (t : Text) :
    template.Scanned t ((matchesIn template t).map TemplateMatch.capture) := by
  induction hlength : t.length using Nat.strongRecOn generalizing t with
  | ind n ih =>
      cases t with
      | nil =>
          rw [matchesIn]
          exact .done (template.skips_nil [])
      | cons c rest =>
          rw [List.length_cons] at hlength
          cases hhere : matchHere template (c :: rest) with
          | none =>
              rw [matchesIn_cons_of_none hhere]
              exact (ih rest.length (by omega) rest rfl).cons
                (not_prefix_of_matchHere_eq_none hhere)
          | some m =>
              obtain ⟨behind, hsplit, hmatch, _⟩ :=
                exists_append_of_matchHere (fun f => Nat.le_of_eq (hfields f)) hhere
              have hpositive := matchHere_length_pos hfields.ne_nil hhere
              have hbehind : rest.drop (m.length - 1) = behind := by
                have hdrop : (c :: rest).drop m.length = behind := by
                  rw [hsplit, ← hmatch, List.drop_left]
                rwa [← Nat.sub_add_cancel hpositive, List.drop_succ_cons] at hdrop
              have hshorter : behind.length < n := by
                rw [← hbehind, List.length_drop]
                omega
              rw [matchesIn_cons_of_some hhere, List.map_cons, hbehind, hsplit]
              exact .found (template.skips_nil _) (hfields.fits_capture hhere)
                (ih behind.length hshorter behind rfl)

/-- Nothing is found in a text exactly if no part of it is the template filled in. -/
theorem matchesIn_eq_nil_iff_fill (hfields : template.HasEachField) (t : Text) :
    matchesIn template t = [] ↔
      ∀ values, FitsFields values → ¬ template.fill values <:+: t := by
  constructor
  · intro hnone values hfits hpart
    exact (matchesIn_eq_nil_iff hfields.ne_nil t).mp hnone _ hpart (template.spells_fill hfits)
  · intro hnone
    cases hfound : matchesIn template t with
    | nil => rfl
    | cons m later =>
        have hscan := scanned_matchesIn hfields t
        rw [hfound, List.map_cons] at hscan
        cases hscan with
        | @found gap rest _ _ _ hfits _ =>
            exact absurd ⟨gap, rest, List.append_assoc ..⟩ (hnone _ hfits)

end Matches

end VibeScript
