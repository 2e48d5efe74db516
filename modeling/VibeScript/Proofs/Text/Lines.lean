import VibeScript.Position

/-!
Where a position lies among the lines of a source.

A text is its lines, and the characters in front of a place decide on which of
them the place is and how far into it: `getElem?_lines_advanceBy`.
-/

namespace VibeScript

namespace Text

theorem lines_eq_singleton {t : Text} (ht : CodePoint.newline ∉ t) : lines t = [t] := by
  induction t with
  | nil => rfl
  | cons c rest ih =>
      have hc : c ≠ CodePoint.newline := by
        intro hc
        exact ht (hc ▸ List.mem_cons_self)
      obtain ⟨line, more, hrest, hlines⟩ := lines_cons hc rest
      rw [ih fun hmem => ht (List.mem_cons_of_mem _ hmem)] at hrest
      obtain ⟨rfl, rfl⟩ := List.cons.inj hrest
      exact hlines

/-- A line feed between two texts keeps their lines apart. -/
theorem lines_append_newline (s t : Text) :
    lines (s ++ CodePoint.newline :: t) = lines s ++ lines t := by
  induction s with
  | nil => rw [List.nil_append, lines_newline_cons, lines_nil, List.singleton_append]
  | cons c rest ih =>
      by_cases hc : c = CodePoint.newline
      · subst hc
        rw [List.cons_append, lines_newline_cons, lines_newline_cons, ih, List.cons_append]
      · obtain ⟨line, more, hrest, hlines⟩ := lines_cons hc rest
        obtain ⟨line', more', hrest', hlines'⟩ :=
          lines_cons hc (rest ++ CodePoint.newline :: t)
        rw [ih, hrest, List.cons_append] at hrest'
        obtain ⟨rfl, rfl⟩ := List.cons.inj hrest'
        rw [List.cons_append, hlines', hlines, List.cons_append]

theorem newline_not_mem_of_mem_lines {t line : Text} (hline : line ∈ lines t) :
    CodePoint.newline ∉ line :=
  not_mem_of_mem_split hline

theorem length_lines (t : Text) : (lines t).length = t.count CodePoint.newline + 1 := by
  induction t with
  | nil => rfl
  | cons c rest ih =>
      by_cases hc : c = CodePoint.newline
      · subst hc
        rw [lines_newline_cons, List.length_cons, ih, List.count_cons_self]
      · obtain ⟨line, more, hrest, hlines⟩ := lines_cons hc rest
        rw [hrest] at ih
        rw [hlines, List.count_cons_of_ne hc, ← ih, List.length_cons, List.length_cons]

/-- A text is its lines, each with a line feed behind it but the last one. -/
theorem flatMap_lines (t : Text) :
    t.lines.flatMap (· ++ [CodePoint.newline]) = t ++ [CodePoint.newline] := by
  induction t with
  | nil => rfl
  | cons c rest ih =>
      by_cases hc : c = CodePoint.newline
      · subst hc
        rw [lines_newline_cons, List.flatMap_cons, ih]
        rfl
      · obtain ⟨line, more, hrest, hlines⟩ := lines_cons hc rest
        rw [hrest, List.flatMap_cons] at ih
        rw [hlines, List.flatMap_cons, List.cons_append, List.cons_append, ih, List.cons_append]

/-- The first line goes up to the first line feed. -/
theorem head?_lines (t : Text) :
    (lines t).head? = some (t.takeWhile (· ≠ CodePoint.newline)) := by
  induction t with
  | nil => rfl
  | cons c rest ih =>
      by_cases hc : c = CodePoint.newline
      · subst hc
        rw [lines_newline_cons]
        simp
      · obtain ⟨line, more, hrest, hlines⟩ := lines_cons hc rest
        rw [hrest, List.head?_cons] at ih
        rw [hlines, List.head?_cons, List.takeWhile_cons_of_pos (by simpa using hc),
          Option.some.inj ih]

/-- A text with a line feed in it, cut at the last one. -/
theorem exists_last_newline {t : Text} (ht : CodePoint.newline ∈ t) :
    ∃ s u, t = s ++ CodePoint.newline :: u ∧ CodePoint.newline ∉ u := by
  obtain ⟨u, s, hsplit, hu⟩ := List.eq_append_cons_of_mem (List.mem_reverse.mpr ht)
  refine ⟨s.reverse, u.reverse, ?_, fun hmem => hu (List.mem_reverse.mp hmem)⟩
  rw [← List.reverse_reverse t, hsplit]
  simp

/-- A text with a line feed in it, cut at the first one. -/
theorem exists_first_newline {t : Text} (ht : CodePoint.newline ∈ t) :
    ∃ s u, t = s ++ CodePoint.newline :: u ∧ CodePoint.newline ∉ s :=
  List.eq_append_cons_of_mem ht

end Text

namespace Position

/-- Without a line feed only the column goes on. -/
theorem advanceBy_of_newline_not_mem (pos : Position) {t : Text}
    (ht : CodePoint.newline ∉ t) :
    pos.advanceBy t = ⟨pos.line, pos.column + t.length⟩ := by
  induction t generalizing pos with
  | nil => rfl
  | cons c rest ih =>
      have hc : c ≠ CodePoint.newline := by
        intro hc
        exact ht (hc ▸ List.mem_cons_self)
      rw [advanceBy_cons, ih _ fun hmem => ht (List.mem_cons_of_mem _ hmem)]
      simp only [advance, hc, ↓reduceIte, List.length_cons]
      congr 1
      omega

theorem line_advanceBy (pos : Position) (t : Text) :
    (pos.advanceBy t).line = pos.line + t.count CodePoint.newline := by
  induction t generalizing pos with
  | nil => rfl
  | cons c rest ih =>
      rw [advanceBy_cons, ih]
      by_cases hc : c = CodePoint.newline
      · subst hc
        simp only [advance, ↓reduceIte, List.count_cons_self]
        omega
      · rw [List.count_cons_of_ne hc]
        simp only [advance, hc, ↓reduceIte]

/-- Behind a line feed the column counts from the start of the line. -/
theorem advanceBy_append_newline (pos : Position) (s : Text) {u : Text}
    (hu : CodePoint.newline ∉ u) :
    pos.advanceBy (s ++ CodePoint.newline :: u) =
      ⟨pos.line + s.count CodePoint.newline + 1, 1 + u.length⟩ := by
  have hnewline : (pos.advanceBy s).advance CodePoint.newline =
      ⟨(pos.advanceBy s).line + 1, 1⟩ := by
    simp [advance]
  rw [advanceBy_append, advanceBy_cons, hnewline, advanceBy_of_newline_not_mem _ hu,
    line_advanceBy]

/-- The line that holds a place of a source, cut at the place: the part in front of
it is what the source has there, as many characters as the column says, and the rest goes up
to the next line feed. -/
theorem getElem?_lines_advanceBy (before after : Text) :
    ∃ left, left <:+ before ∧
      (Text.lines (before ++ after))[(start.advanceBy before).line - 1]? =
        some (left ++ after.takeWhile (· ≠ CodePoint.newline)) ∧
      left.length + 1 = (start.advanceBy before).column ∧
      1 ≤ (start.advanceBy before).line := by
  have hhead (left : Text) (hleft : CodePoint.newline ∉ left) :
      (Text.lines (left ++ after))[0]? =
        some (left ++ after.takeWhile (· ≠ CodePoint.newline)) := by
    rw [← List.head?_eq_getElem?, Text.head?_lines, List.takeWhile_append_of_pos]
    intro c hc
    have hne : c ≠ CodePoint.newline := by
      intro heq
      exact hleft (heq ▸ hc)
    simpa using hne
  by_cases hmem : CodePoint.newline ∈ before
  · obtain ⟨s, left, rfl, hleft⟩ := Text.exists_last_newline hmem
    have hindex : (1 + s.count CodePoint.newline + 1) - 1 = (Text.lines s).length := by
      rw [Text.length_lines]
      omega
    refine ⟨left, ⟨s ++ [CodePoint.newline], by simp⟩, ?_, ?_, ?_⟩
    · rw [advanceBy_append_newline _ _ hleft, start, hindex, List.append_assoc,
        List.cons_append, Text.lines_append_newline, List.getElem?_append_right Nat.le.refl,
        Nat.sub_self]
      exact hhead left hleft
    · rw [advanceBy_append_newline _ _ hleft]
      exact Nat.add_comm left.length 1
    · rw [advanceBy_append_newline _ _ hleft]
      exact Nat.le_add_left ..
  · refine ⟨before, List.suffix_rfl, ?_, ?_, ?_⟩
    · rw [advanceBy_of_newline_not_mem _ hmem]
      exact hhead before hmem
    · rw [advanceBy_of_newline_not_mem _ hmem]
      exact Nat.add_comm before.length 1
    · rw [advanceBy_of_newline_not_mem _ hmem]
      exact Nat.le.refl

/-- The offset of a position in a source: in front of it are the lines above, each with its line
feed, and the columns up to its own. -/
def offsetIn (source : Text) (pos : Position) : Nat :=
  ((source.lines.take (pos.line - 1)).flatMap (· ++ [CodePoint.newline])).length +
    (pos.column - 1)

/-- The position of a place leads back to its offset. -/
theorem offsetIn_advanceBy (before after : Text) :
    (start.advanceBy before).offsetIn (before ++ after) = before.length := by
  by_cases hmem : CodePoint.newline ∈ before
  · obtain ⟨earlier, left, rfl, hleft⟩ := Text.exists_last_newline hmem
    have hindex : start.line + earlier.count CodePoint.newline + 1 - 1 =
        (Text.lines earlier).length := by
      rw [Text.length_lines]
      exact Nat.add_comm 1 _
    rw [advanceBy_append_newline _ _ hleft, offsetIn, hindex, List.append_assoc,
      List.cons_append, Text.lines_append_newline, List.take_left, Text.flatMap_lines,
      Nat.add_sub_cancel_left]
    simp only [List.length_append, List.length_cons, List.length_nil]
    omega
  · rw [advanceBy_of_newline_not_mem _ hmem, offsetIn, start]
    simp

/-- The position of a place in a source: in front of a character or at the end. -/
def LiesIn (pos : Position) (source : Text) : Prop :=
  ∃ before after, source = before ++ after ∧ pos = start.advanceBy before

/-- A position in a source has a line there, and a column on that line or right behind
it. -/
theorem LiesIn.exists_line {pos : Position} {source : Text} (hpos : pos.LiesIn source) :
    ∃ lineText, source.lines[pos.line - 1]? = some lineText ∧
      pos.column ≤ lineText.length + 1 ∧ 1 ≤ pos.line ∧ 1 ≤ pos.column := by
  obtain ⟨before, after, rfl, rfl⟩ := hpos
  obtain ⟨left, _, hline, hcolumn, hpositive⟩ := getElem?_lines_advanceBy before after
  refine ⟨_, hline, ?_, hpositive, ?_⟩
  · rw [List.length_append]
    omega
  · omega

end Position

end VibeScript
