import Mathlib.Data.List.Chain
import VibeScript.Proofs.Text.Lines
import VibeScript.Proofs.Token.Spelling

/-!
Where the tokens stand in their source.

The tokens cut their source into stretches (`Span`), and nothing but gaps is left between
them: `tokenize_covers_source`.  The positions of the tokens are those of the offsets at which
their stretches start, told from the lines of the source alone (`Position.ofOffset`).
-/

namespace VibeScript

/-- The position of a character that has `offset` others in front of it: on the last of the
lines that these make up, and behind what they put on it. -/
def Position.ofOffset (source : Text) (offset : Nat) : Position :=
  let before := Text.lines (source.take offset)
  ⟨before.length, (before.getLast?.getD []).length + 1⟩

/-- The characters in front of a place lead to its position. -/
theorem Position.ofOffset_length_append (before after : Text) :
    ofOffset (before ++ after) before.length = start.advanceBy before := by
  rw [ofOffset, List.take_left]
  by_cases hmem : CodePoint.newline ∈ before
  · obtain ⟨earlier, line, rfl, hline⟩ := Text.exists_last_newline hmem
    have hcount := Text.length_lines earlier
    rw [advanceBy_append_newline _ _ hline, Text.lines_append_newline,
      Text.lines_eq_singleton hline]
    simp only [List.length_append, List.length_singleton, List.getLast?_concat,
      Option.getD_some, start, Position.mk.injEq]
    constructor
    · rw [hcount, Nat.add_comm 1]
    · exact Nat.add_comm line.length 1
  · rw [advanceBy_of_newline_not_mem _ hmem, Text.lines_eq_singleton hmem]
    simp only [List.length_singleton, List.getLast?_singleton, Option.getD_some, start,
      Position.mk.injEq, true_and]
    exact Nat.add_comm before.length 1

/-- A stretch of a source: the offset of its first character, and that of the place behind its
last one. -/
structure Span where
  start : Nat
  stop : Nat

/-- A token stands at a stretch of the source, which spells it. -/
structure Span.Marks (source : Text) (span : Span) (token : Token) : Prop where
  nonempty : span.start < span.stop
  pos : token.pos = Position.ofOffset source span.start
  spelled : Spelled token.kind (source.extract span.start span.stop) (source.drop span.stop)

/-- Two stretches follow each other with a gap between them. -/
structure Span.Precedes (source : Text) (left right : Span) : Prop where
  ordered : left.stop ≤ right.start
  gap : Gap (source.extract left.stop right.start) (source.drop right.start)

/-- The empty stretch at an offset. -/
def Span.empty (offset : Nat) : Span := ⟨offset, offset⟩

/-- In front of a line feed, or at the end, nothing is left of a gap. -/
theorem Gap.eq_nil {gap after : Text} (h : Gap gap after)
    (hhead : ∀ c ∈ (gap ++ after).head?, c = CodePoint.newline) : gap = [] := by
  cases h with
  | nil => rfl
  | @spacing c gap after hc h =>
      obtain rfl : c = CodePoint.newline := hhead c rfl
      exact absurd hc (by unfold CodePoint.IsSpacing; decide)
  | comment hline hafter =>
      exact absurd (hhead _ rfl) (by decide)

theorem extract_append_drop (source : Text) {start stop : Nat} (h : start ≤ stop) :
    source.extract start stop ++ source.drop stop = source.drop start := by
  have hdrop : (source.drop start).drop (stop - start) = source.drop stop := by
    rw [List.drop_drop, Nat.add_sub_of_le h]
  rw [List.extract_eq_take_drop, ← hdrop, List.take_append_drop]

/-- The characters of a lexeme without a token lengthen the gap behind them. -/
theorem Gap.of_lexeme {c : CodePoint} {rest gap after : Text}
    (hlexeme : (lexeme c rest).token? = none)
    (hrest : rest.drop (lexeme c rest).extra = gap ++ after) (h : Gap gap after) :
    Gap (c :: rest.take (lexeme c rest).extra ++ gap) after := by
  obtain ⟨hc, hextra⟩ | ⟨rfl, hextra⟩ := (lexeme_describes c rest).gap hlexeme
  · rw [hextra]
    exact .spacing hc h
  · rw [hextra, drop_length_takeWhile] at hrest
    rw [hextra, take_length_takeWhile]
    have hhead : ∀ d ∈ (gap ++ after).head?, d = CodePoint.newline := by
      intro d hd
      have hstops := List.head?_dropWhile_not (· ≠ CodePoint.newline) rest
      rw [hrest, hd] at hstops
      simpa using hstops
    obtain rfl := h.eq_nil hhead
    rw [List.append_nil]
    apply Gap.comment
    · intro hmem
      have hkept := List.all_eq_true.mp List.all_takeWhile _ hmem
      simp at hkept
    · exact hhead

/-- A source is what stands in front of a lexeme, the lexeme and the rest. -/
theorem append_lexeme (before : Text) (c : CodePoint) (rest : Text) :
    (before ++ c :: rest.take (lexeme c rest).extra) ++ rest.drop (lexeme c rest).extra =
      before ++ c :: rest := by
  rw [List.append_assoc, List.cons_append, List.take_append_drop]

theorem drop_lexeme (before : Text) (c : CodePoint) (rest : Text) :
    (before ++ c :: rest).drop (before ++ c :: rest.take (lexeme c rest).extra).length =
      rest.drop (lexeme c rest).extra := by
  rw [← append_lexeme before c rest, List.drop_left]

/-- A stretch that comes behind a lexeme without a token comes behind what is in front of the
lexeme as well. -/
theorem Span.Precedes.of_lexeme {before : Text} {c : CodePoint} {rest : Text} {right : Span}
    (hlexeme : (lexeme c rest).token? = none)
    (h : Precedes (before ++ c :: rest)
      (empty (before ++ c :: rest.take (lexeme c rest).extra).length) right) :
    Precedes (before ++ c :: rest) (empty before.length) right := by
  have hordered : before.length ≤ right.start := by
    refine Nat.le_trans ?_ h.ordered
    simp [empty]
  have hrest := extract_append_drop (before ++ c :: rest) h.ordered
  rw [empty, drop_lexeme] at hrest
  have hextract : (before ++ c :: rest).extract before.length right.start =
      c :: rest.take (lexeme c rest).extra ++ (before ++ c :: rest).extract
        (before ++ c :: rest.take (lexeme c rest).extra).length right.start := by
    refine (List.append_left_inj ((before ++ c :: rest).drop right.start)).mp ?_
    rw [extract_append_drop _ hordered, List.drop_left, List.append_assoc, hrest,
      List.cons_append, List.take_append_drop]
  refine ⟨hordered, ?_⟩
  rw [empty, hextract]
  exact h.gap.of_lexeme hlexeme hrest.symm

/-- The characters of a lexeme with a token are its stretch. -/
theorem Span.marks_of_lexeme (before : Text) {c : CodePoint} {rest : Text} {kind : TokenKind}
    (hlexeme : (lexeme c rest).token? = some kind) :
    Marks (before ++ c :: rest)
      ⟨before.length, (before ++ c :: rest.take (lexeme c rest).extra).length⟩
      ⟨kind, Position.start.advanceBy before⟩ := by
  have hextract : (before ++ c :: rest).extract before.length
      (before ++ c :: rest.take (lexeme c rest).extra).length =
        c :: rest.take (lexeme c rest).extra := by
    rw [← append_lexeme before c rest, List.extract_eq_take_drop, List.append_assoc,
      List.drop_left, List.length_append, Nat.add_sub_cancel_left, List.take_left]
  constructor
  · simp
  · exact (Position.ofOffset_length_append before (c :: rest)).symm
  · rw [hextract, drop_lexeme]
    exact (lexeme_describes c rest).spelled kind hlexeme

theorem Span.precedes_self (source : Text) (offset stop : Nat) :
    Precedes source (empty offset) ⟨offset, stop⟩ := by
  refine ⟨Nat.le_refl offset, ?_⟩
  rw [List.extract_eq_take_drop, empty, Nat.sub_self, List.take_zero]
  exact .nil _

/-- The stretches of the tokens of a rest, in the source as a whole. -/
theorem exists_spans (pos : Position) (rest : Text) :
    ∀ before, pos = Position.start.advanceBy before → ∃ tokens spans,
      tokensFrom pos rest =
        tokens ++ [⟨.eof, Position.ofOffset (before ++ rest) (before ++ rest).length⟩] ∧
      (∀ token ∈ tokens, token.kind ≠ .eof) ∧
      List.Forall₂ (Span.Marks (before ++ rest)) spans tokens ∧
      List.IsChain (Span.Precedes (before ++ rest))
        (Span.empty before.length :: (spans ++ [Span.empty (before ++ rest).length])) := by
  induction pos, rest using lexemeInduction with
  | nil pos =>
      intro before hpos
      refine ⟨[], [], ?_, fun _ h => absurd h List.not_mem_nil, .nil, ?_⟩
      · have heof := Position.ofOffset_length_append before []
        rw [List.append_nil] at heof ⊢
        rw [tokensFrom, hpos, heof]
        rfl
      · rw [List.append_nil, List.nil_append]
        exact .cons_cons (Span.precedes_self _ _ _) (.singleton _)
  | cons pos c rest ih =>
      intro before hpos
      obtain ⟨tokens, spans, htokens, heof, hmarks, hchain⟩ :=
        ih (before ++ c :: rest.take (lexeme c rest).extra)
          (by rw [hpos, Position.advanceBy_append])
      rw [append_lexeme] at htokens hmarks hchain
      rw [List.isChain_cons] at hchain
      rw [tokensFrom_cons, htokens]
      cases hkind : (lexeme c rest).token? with
      | none =>
          refine ⟨tokens, spans, rfl, heof, hmarks, ?_⟩
          rw [List.isChain_cons]
          exact ⟨fun right hright => (hchain.1 right hright).of_lexeme hkind, hchain.2⟩
      | some kind =>
          have hfirst := Span.marks_of_lexeme before hkind
          rw [← hpos] at hfirst
          refine ⟨_ :: tokens, _ :: spans, rfl, ?_, .cons hfirst hmarks, ?_⟩
          · intro token htoken
            rcases List.mem_cons.mp htoken with rfl | hmem
            · rintro rfl
              exact lexeme_token?_ne_eof c rest hkind
            · exact heof token hmem
          · refine .cons_cons (Span.precedes_self _ _ _) (List.isChain_cons.mpr ⟨?_, hchain.2⟩)
            intro right hright
            have hnext := hchain.1 right hright
            exact ⟨hnext.ordered, hnext.gap⟩

/-- The tokens of a source lose nothing of it and add nothing to it: they spell stretches of the
source, one behind the other and none of them empty, with nothing but gaps in between, in
front and behind.  Each token has the position of its first character, and the mark of the end,
which comes last and only there, has that of the end. -/
theorem tokenize_covers_source (source : Text) : ∃ tokens spans,
    tokenize source = tokens ++ [⟨.eof, Position.ofOffset source source.length⟩] ∧
    (∀ token ∈ tokens, token.kind ≠ .eof) ∧
    List.Forall₂ (Span.Marks source) spans tokens ∧
    List.IsChain (Span.Precedes source)
      (Span.empty 0 :: (spans ++ [Span.empty source.length])) :=
  exists_spans Position.start source [] rfl

end VibeScript
