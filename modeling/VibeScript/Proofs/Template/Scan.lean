import VibeScript.Proofs.Template.Instances
import VibeScript.Proofs.Text.Lines

/-!
The search for a template, line by line.

An instance of a template without a line feed lies in one line, so a text has the
matches of its lines (`matchesIn_eq_flatMap_lines`).
-/

namespace VibeScript

/-- A template whose instances stay on one line and take some place there. -/
structure Template.OneLine (template : Template) : Prop where
  ne_nil : template ≠ []
  newline_not_mem : .char CodePoint.newline ∉ template

theorem TemplateField.admits_newline (f : TemplateField) :
    f.admits CodePoint.newline = false := by
  cases f <;> decide

section

variable {α : Type} {admits : CodePoint → Bool} {follow : Text → Option α}

/-- A run ends at a line feed, so what stands behind one does not matter. -/
theorem takeRun_append_newline (hnewline : admits CodePoint.newline = false) {s t : Text}
    (hs : CodePoint.newline ∉ s)
    (hfollow : ∀ u, CodePoint.newline ∉ u →
      follow (u ++ CodePoint.newline :: t) = follow u) :
    takeRun admits follow (s ++ CodePoint.newline :: t) = takeRun admits follow s := by
  induction s with
  | nil => rw [List.nil_append, takeRun_eq_none_of_head hnewline, takeRun]
  | cons c rest ih =>
      have hrest : CodePoint.newline ∉ rest := by
        intro hmem
        exact hs (List.mem_cons_of_mem c hmem)
      rw [List.cons_append]
      simp only [takeRun, ih hrest, hfollow rest hrest]

end

/-- An instance ends at a line feed at the latest. -/
theorem matchHere_append_newline {pieces : Template}
    (hpieces : .char CodePoint.newline ∉ pieces) {s : Text} (hs : CodePoint.newline ∉ s)
    (t : Text) : matchHere pieces (s ++ CodePoint.newline :: t) = matchHere pieces s := by
  induction pieces generalizing s with
  | nil => rfl
  | cons piece pieces ih =>
      have hrest : .char CodePoint.newline ∉ pieces := by
        intro hmem
        exact hpieces (List.mem_cons_of_mem piece hmem)
      cases piece with
      | char c =>
          cases s with
          | nil =>
              have hc : c ≠ CodePoint.newline := by
                intro hc
                exact hpieces (hc ▸ List.mem_cons_self)
              simp only [List.nil_append, matchHere, hc, ↓reduceIte]
          | cons d rest =>
              rw [List.cons_append, matchHere, matchHere,
                ih hrest fun hmem => hs (List.mem_cons_of_mem d hmem)]
      | field f =>
          have hrun : takeRun f.admits (matchHere pieces) (s ++ CodePoint.newline :: t) =
              takeRun f.admits (matchHere pieces) s :=
            takeRun_append_newline f.admits_newline hs fun u hu => ih hrest hu
          rw [matchHere, matchHere, hrun]
          cases htake : takeRun f.admits (matchHere pieces) s with
          | none => rfl
          | some taken =>
              obtain ⟨n, m⟩ := taken
              obtain ⟨run, rest, rfl, rfl, _⟩ := takeRun_sound htake
              simp only [Option.map_some, List.append_assoc, List.take_left]

theorem Template.OneLine.matchHere_newline {template : Template} (h : template.OneLine)
    (t : Text) : matchHere template (CodePoint.newline :: t) = none := by
  have hempty := matchHere_append_newline h.newline_not_mem (s := []) List.not_mem_nil t
  rw [List.nil_append] at hempty
  rw [hempty]
  cases hfound : matchHere template [] with
  | none => rfl
  | some m =>
      have hpositive := matchHere_length_pos h.ne_nil hfound
      have hbound := matchHere_length_le hfound
      rw [List.length_nil] at hbound
      omega

/-- The matches of a line and of what stands behind it. -/
theorem matchesIn_line_append {template : Template} (h : template.OneLine) {s : Text}
    (hs : CodePoint.newline ∉ s) (t : Text) :
    matchesIn template (s ++ CodePoint.newline :: t) =
      matchesIn template s ++ matchesIn template t := by
  induction hlength : s.length using Nat.strongRecOn generalizing s with
  | ind n ih =>
      cases s with
      | nil =>
          rw [List.nil_append, matchesIn_cons_of_none (h.matchHere_newline t), matchesIn,
            List.nil_append]
      | cons c rest =>
          have hrest (k : Nat) : CodePoint.newline ∉ rest.drop k := by
            intro hmem
            exact hs (List.mem_cons_of_mem c (List.mem_of_mem_drop hmem))
          have hsame := matchHere_append_newline h.newline_not_mem hs t
          rw [List.cons_append] at hsame ⊢
          rw [List.length_cons] at hlength
          cases hhere : matchHere template (c :: rest) with
          | none =>
              rw [hhere] at hsame
              rw [matchesIn_cons_of_none hhere, matchesIn_cons_of_none hsame]
              exact ih rest.length (by omega) (hrest 0) rfl
          | some m =>
              rw [hhere] at hsame
              have hbound := matchHere_length_le hhere
              rw [List.length_cons] at hbound
              rw [matchesIn_cons_of_some hhere, matchesIn_cons_of_some hsame,
                List.drop_append_of_le_length (by omega), List.cons_append,
                ih (rest.drop (m.length - 1)).length (by rw [List.length_drop]; omega)
                  (hrest _) rfl]

/-- No match starts in one line and ends in another. -/
theorem matchesIn_eq_flatMap_lines {template : Template} (h : template.OneLine) (t : Text) :
    matchesIn template t = t.lines.flatMap (matchesIn template) := by
  induction hlength : t.length using Nat.strongRecOn generalizing t with
  | ind n ih =>
      by_cases hmem : CodePoint.newline ∈ t
      · obtain ⟨s, u, rfl, hs⟩ := Text.exists_first_newline hmem
        rw [matchesIn_line_append h hs, Text.lines_append_newline, List.flatMap_append,
          Text.lines_eq_singleton hs, List.flatMap_singleton]
        rw [List.length_append, List.length_cons] at hlength
        rw [ih u.length (by omega) u rfl]
      · rw [Text.lines_eq_singleton hmem, List.flatMap_singleton]

/-- A line feed between two texts keeps their matches apart. -/
theorem matchesIn_append_newline {template : Template} (h : template.OneLine) (s t : Text) :
    matchesIn template (s ++ CodePoint.newline :: t) =
      matchesIn template s ++ matchesIn template t := by
  rw [matchesIn_eq_flatMap_lines h, Text.lines_append_newline, List.flatMap_append,
    ← matchesIn_eq_flatMap_lines h, ← matchesIn_eq_flatMap_lines h]

/-- So do several of them. -/
theorem matchesIn_append_newlines {template : Template} (h : template.OneLine) (s t : Text)
    (n : Nat) :
    matchesIn template (s ++ (List.replicate (n + 1) CodePoint.newline ++ t)) =
      matchesIn template s ++ matchesIn template t := by
  induction n with
  | zero => exact matchesIn_append_newline h s t
  | succ n ih =>
      rw [List.replicate_succ, List.cons_append, matchesIn_append_newline h] at ih ⊢
      rw [List.replicate_succ, List.cons_append,
        matchesIn_cons_of_none (h.matchHere_newline _)]
      exact ih

theorem matchesIn_join {template : Template} (h : template.OneLine) (n : Nat)
    (ts : List Text) :
    matchesIn template (Text.join (List.replicate (n + 1) CodePoint.newline) ts) =
      ts.flatMap (matchesIn template) := by
  induction ts with
  | nil => rw [Text.join, matchesIn, List.flatMap_nil]
  | cons t rest ih =>
      cases rest with
      | nil => rw [Text.join, List.flatMap_singleton]
      | cons next rest =>
          rw [Text.join_cons_cons, List.append_assoc, matchesIn_append_newlines h, ih,
            List.flatMap_cons, List.flatMap_cons, List.flatMap_cons]

/-- Where the first character of a template does not occur no match starts. -/
theorem matchesIn_append_of_not_mem {c : CodePoint} {pieces : Template} {s : Text}
    (hs : c ∉ s) (t : Text) :
    matchesIn (.char c :: pieces) (s ++ t) = matchesIn (.char c :: pieces) t := by
  induction s with
  | nil => rfl
  | cons d rest ih =>
      have hd : c ≠ d := by
        intro hd
        exact hs (hd ▸ List.mem_cons_self)
      have hnone : matchHere (.char c :: pieces) (d :: (rest ++ t)) = none := by
        rw [matchHere, if_neg hd]
      rw [List.cons_append, matchesIn_cons_of_none hnone]
      exact ih fun hmem => hs (List.mem_cons_of_mem d hmem)

/-- Behind a match the search goes on. -/
theorem matchesIn_append_of_matchHere {template : Template} (htemplate : template ≠ [])
    {front behind : Text} {m : TemplateMatch} (hm : matchHere template (front ++ behind) = some m)
    (hlength : m.length = front.length) :
    matchesIn template (front ++ behind) = m :: matchesIn template behind := by
  have hpositive := matchHere_length_pos htemplate hm
  cases front with
  | nil =>
      rw [hlength, List.length_nil] at hpositive
      omega
  | cons c rest =>
      rw [List.cons_append] at hm ⊢
      rw [matchesIn_cons_of_some hm, hlength, List.length_cons, Nat.add_sub_cancel, List.drop_left]

/-- A match of the whole text is the only one. -/
theorem matchesIn_eq_singleton {template : Template} (htemplate : template ≠ []) {t : Text}
    {m : TemplateMatch} (hm : matchHere template t = some m) (hlength : m.length = t.length) :
    matchesIn template t = [m] := by
  rw [← List.append_nil t] at hm
  have hwhole := matchesIn_append_of_matchHere htemplate hm hlength
  rwa [List.append_nil, matchesIn] at hwhole

/-- Literal characters are matched by themselves. -/
theorem matchHere_literal (literal : Text) (pieces : Template) (t : Text) :
    matchHere (literal.map .char ++ pieces) (literal ++ t) =
      (matchHere pieces t).map fun m => ⟨m.captures, literal.length + m.length⟩ := by
  induction literal with
  | nil => simp
  | cons c rest ih =>
      rw [List.map_cons, List.cons_append, List.cons_append, matchHere, if_pos rfl, ih,
        Option.map_map]
      congr 1
      funext m
      simp only [Function.comp_apply, List.length_cons, TemplateMatch.mk.injEq, true_and]
      omega

/-- A run of a field is taken as a whole if the next character is not admitted. -/
theorem matchHere_field {f : TemplateField} {pieces : Template} {run rest : Text}
    {m : TemplateMatch} (hrun : run ≠ []) (hadmits : ∀ c ∈ run, f.admits c = true)
    (hstop : takeRun f.admits (matchHere pieces) rest = none)
    (hrest : matchHere pieces rest = some m) :
    matchHere (.field f :: pieces) (run ++ rest) =
      some ⟨(f, run) :: m.captures, run.length + m.length⟩ := by
  rw [matchHere, takeRun_append hrun hadmits hstop hrest]
  simp only [Option.map_some, List.take_left]

end VibeScript
