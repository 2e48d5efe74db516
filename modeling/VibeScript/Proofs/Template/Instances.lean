import VibeScript.Template

/-!
What a template stands for, and how the search for it relates to that.

`Template.Spells` says which texts are instances of a template.  The search at one
place finds an instance exactly if there is one (`matchHere_sound`,
`matchHere_complete`), so a text without any match has no instance anywhere
(`matchesIn_eq_nil_iff`).
-/

namespace VibeScript

/-- The instances of a template: its characters as they are, and in the place of each
field some characters that the field admits. -/
inductive Template.Spells : Template → Text → Prop
  | nil : Spells [] []
  | char {pieces : Template} {t : Text} (c : CodePoint) (ht : Spells pieces t) :
      Spells (.char c :: pieces) (c :: t)
  | field {pieces : Template} {t : Text} (f : TemplateField) (run : Text) (hrun : run ≠ [])
      (hadmits : ∀ c ∈ run, f.admits c = true) (ht : Spells pieces t) :
      Spells (.field f :: pieces) (run ++ t)

section TakeRun

variable {α : Type} {admits : CodePoint → Bool} {follow : Text → Option α}

/-- A run that is taken consists of admitted characters, and what follows it succeeds. -/
theorem takeRun_sound {t : Text} {n : Nat} {a : α}
    (h : takeRun admits follow t = some (n, a)) :
    ∃ run rest, t = run ++ rest ∧ run.length = n ∧ run ≠ [] ∧
      (∀ c ∈ run, admits c = true) ∧ follow rest = some a := by
  induction t generalizing n with
  | nil => simp [takeRun] at h
  | cons c rest ih =>
      by_cases hc : admits c = true
      · simp only [takeRun, hc, ↓reduceIte] at h
        cases hlonger : takeRun admits follow rest with
        | some taken =>
            obtain ⟨k, b⟩ := taken
            rw [hlonger] at h
            simp only [Option.some.injEq, Prod.mk.injEq] at h
            obtain ⟨rfl, rfl⟩ := h
            obtain ⟨run, rest', rfl, hlength, _, hrun, hfollow⟩ := ih hlonger
            refine ⟨c :: run, rest', rfl, by simp [hlength], by simp, ?_, hfollow⟩
            intro d hd
            rcases List.mem_cons.mp hd with rfl | hd
            · exact hc
            · exact hrun d hd
        | none =>
            rw [hlonger] at h
            simp only [Option.map_eq_some_iff, Prod.mk.injEq] at h
            obtain ⟨b, hfollow, rfl, rfl⟩ := h
            exact ⟨[c], rest, rfl, rfl, by simp, by simpa using hc, hfollow⟩
      · simp [takeRun, hc] at h

/-- If some run leaves a rest that succeeds, a run is taken; it may be a longer one. -/
theorem takeRun_complete {run rest : Text} (hrun : run ≠ [])
    (hadmits : ∀ c ∈ run, admits c = true) (hfollow : (follow rest).isSome = true) :
    (takeRun admits follow (run ++ rest)).isSome = true := by
  induction run with
  | nil => exact absurd rfl hrun
  | cons c run ih =>
      have hc : admits c = true := hadmits c List.mem_cons_self
      rw [List.cons_append]
      simp only [takeRun, hc, ↓reduceIte]
      split
      · rfl
      · next hnone =>
          cases run with
          | nil => rwa [List.nil_append, Option.isSome_map]
          | cons d run =>
              have hlonger := ih (by simp) fun x hx => hadmits x (List.mem_cons_of_mem c hx)
              rw [hnone] at hlonger
              simp at hlonger

/-- A run that nothing longer can replace is taken as a whole. -/
theorem takeRun_append {run rest : Text} {a : α} (hrun : run ≠ [])
    (hadmits : ∀ c ∈ run, admits c = true) (hstop : takeRun admits follow rest = none)
    (hfollow : follow rest = some a) :
    takeRun admits follow (run ++ rest) = some (run.length, a) := by
  induction run with
  | nil => exact absurd rfl hrun
  | cons c run ih =>
      have hc : admits c = true := hadmits c List.mem_cons_self
      rw [List.cons_append]
      simp only [takeRun, hc, ↓reduceIte]
      cases run with
      | nil => rw [List.nil_append, hstop, hfollow]; rfl
      | cons d run =>
          rw [ih (by simp) fun x hx => hadmits x (List.mem_cons_of_mem c hx)]
          rfl

theorem takeRun_eq_none_of_head {c : CodePoint} {rest : Text} (hc : admits c = false) :
    takeRun admits follow (c :: rest) = none := by
  simp [takeRun, hc]

end TakeRun

/-- What is found at the front of a text is an instance of the template. -/
theorem matchHere_sound {pieces : Template} {t : Text} {m : TemplateMatch}
    (h : matchHere pieces t = some m) :
    ∃ front rest, t = front ++ rest ∧ front.length = m.length ∧ pieces.Spells front := by
  induction pieces generalizing t m with
  | nil =>
      simp only [matchHere, Option.some.injEq] at h
      exact ⟨[], t, rfl, by rw [← h]; rfl, .nil⟩
  | cons piece pieces ih =>
      cases piece with
      | char c =>
          cases t with
          | nil => simp [matchHere] at h
          | cons d rest =>
              by_cases hc : c = d
              · subst hc
                simp only [matchHere, ↓reduceIte, Option.map_eq_some_iff] at h
                obtain ⟨m', hm', rfl⟩ := h
                obtain ⟨front, rest', rfl, hlength, hspells⟩ := ih hm'
                exact ⟨c :: front, rest', rfl, by simp [hlength], .char c hspells⟩
              · simp [matchHere, hc] at h
      | field f =>
          simp only [matchHere, Option.map_eq_some_iff, Prod.exists] at h
          obtain ⟨n, m', htake, rfl⟩ := h
          obtain ⟨run, rest, rfl, hlength, hrun, hadmits, hfollow⟩ := takeRun_sound htake
          obtain ⟨front, rest', rfl, hlength', hspells⟩ := ih hfollow
          exact ⟨run ++ front, rest', by rw [List.append_assoc],
            by rw [List.length_append, hlength, hlength'], .field f run hrun hadmits hspells⟩

/-- An instance at the front of a text is found, or a longer one in its place. -/
theorem matchHere_complete {pieces : Template} {front : Text} (hfront : pieces.Spells front)
    (rest : Text) : (matchHere pieces (front ++ rest)).isSome = true := by
  induction hfront with
  | nil => rfl
  | char c _ ih =>
      rw [List.cons_append, matchHere, if_pos rfl, Option.isSome_map]
      exact ih
  | field f run hrun hadmits _ ih =>
      rw [matchHere, Option.isSome_map, List.append_assoc]
      exact takeRun_complete hrun hadmits ih

theorem matchHere_length_le {pieces : Template} {t : Text} {m : TemplateMatch}
    (h : matchHere pieces t = some m) : m.length ≤ t.length := by
  obtain ⟨front, rest, rfl, hlength, _⟩ := matchHere_sound h
  rw [List.length_append]
  omega

theorem Template.Spells.ne_nil {template : Template} {t : Text} (h : template.Spells t)
    (htemplate : template ≠ []) : t ≠ [] := by
  cases h with
  | nil => exact absurd rfl htemplate
  | char c _ => simp
  | field f run hrun _ _ => simp [hrun]

/-- The characters of a template are in every instance of it. -/
theorem Template.Spells.char_mem {template : Template} {t : Text} (h : template.Spells t)
    {c : CodePoint} (hc : TemplatePiece.char c ∈ template) : c ∈ t := by
  induction h with
  | nil => cases hc
  | char d _ ih =>
      rcases List.mem_cons.mp hc with heq | hc
      · cases heq
        exact List.mem_cons_self
      · exact List.mem_cons_of_mem d (ih hc)
  | field f run _ _ _ ih =>
      rcases List.mem_cons.mp hc with heq | hc
      · cases heq
      · exact List.mem_append_right run (ih hc)

/-- A match has at least one character, except of the empty template. -/
theorem matchHere_length_pos {pieces : Template} {t : Text} {m : TemplateMatch}
    (hpieces : pieces ≠ []) (h : matchHere pieces t = some m) : 0 < m.length := by
  obtain ⟨front, rest, rfl, hlength, hspells⟩ := matchHere_sound h
  rw [← hlength]
  exact List.length_pos_iff.mpr (hspells.ne_nil hpieces)

theorem matchesIn_cons_of_none {template : Template} {c : CodePoint} {rest : Text}
    (h : matchHere template (c :: rest) = none) :
    matchesIn template (c :: rest) = matchesIn template rest := by
  rw [matchesIn, h]

theorem matchesIn_cons_of_some {template : Template} {c : CodePoint} {rest : Text}
    {m : TemplateMatch} (h : matchHere template (c :: rest) = some m) :
    matchesIn template (c :: rest) =
      m :: matchesIn template (rest.drop (m.length - 1)) := by
  rw [matchesIn, h]

/-- Nothing is found in a text exactly if no part of it is an instance. -/
theorem matchesIn_eq_nil_iff {template : Template} (htemplate : template ≠ []) (t : Text) :
    matchesIn template t = [] ↔ ∀ part, part <:+: t → ¬ template.Spells part := by
  induction t with
  | nil =>
      rw [matchesIn]
      refine ⟨fun _ part hpart hspells => ?_, fun _ => rfl⟩
      exact hspells.ne_nil htemplate (List.infix_nil.mp hpart)
  | cons c rest ih =>
      cases hhere : matchHere template (c :: rest) with
      | some m =>
          rw [matchesIn_cons_of_some hhere]
          obtain ⟨front, after, hsplit, _, hspells⟩ := matchHere_sound hhere
          refine ⟨fun h => absurd h (by simp), fun h => ?_⟩
          exact absurd hspells (h front ⟨[], after, by rw [List.nil_append, hsplit]⟩)
      | none =>
          rw [matchesIn_cons_of_none hhere, ih]
          constructor
          · intro h part hpart hspells
            rcases List.infix_cons_iff.mp hpart with ⟨after, hstart⟩ | hinside
            · have hfound := matchHere_complete hspells after
              rw [hstart, hhere] at hfound
              exact absurd hfound (by decide)
            · exact h part hinside hspells
          · intro h part hpart
            exact h part (List.infix_cons_iff.mpr (Or.inr hpart))

end VibeScript
