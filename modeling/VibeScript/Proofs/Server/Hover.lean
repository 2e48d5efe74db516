import VibeScript.Proofs.Server.Malformed
import VibeScript.Proofs.Text.Words

/-!
What a hover shows.

A hover shows the run of word characters at the cursor, between the UTF-16 offsets of its
ends, and every cursor between these offsets shows the same (`hover_exact_and_stable`).
-/

namespace VibeScript

namespace Server

variable (server : Server) {before word after : Text}

/-- What is shown of a run: the word, and the UTF-16 offsets of its ends on the line. -/
def wordHover (line : Int) (before word : Text) : Json :=
  hoverJson ("`" ++ word ++ "`\n\n" ++ server.language ++ " " ++ (classifyWord word).name)
    (rangeJson line before.utf16Length line (before ++ word).utf16Length)

theorem hoverOn_run (after : Text) (line : Int) (before word : Text) :
    server.hoverOn (before ++ word ++ after) line (WordRun.span before word) =
      server.wordHover line before word := by
  have hstart : (before ++ word ++ after).indexToUtf16 before.length = before.utf16Length := by
    rw [List.append_assoc, Text.indexToUtf16_append]
  have hstop : (before ++ word ++ after).indexToUtf16 ((before.length + word.length : Nat) : Int) =
      (before ++ word).utf16Length := by
    rw [← List.length_append, Text.indexToUtf16_append]
  rw [hoverOn, WordRun.span, hstart, hstop, wordHover]

theorem line_of_getElem? {document : Document} {line : Int} {lineText : Text} (hsign : 0 ≤ line)
    (hline : document.content.lines[line.toNat]? = some lineText) :
    document.line line = lineText := by
  rw [Document.line, if_neg (Int.not_lt.mpr hsign), hline, Option.getD_some]

/-- Every cursor within a run shows it. -/
theorem hover_of_run {documents : Documents} {document : Document} {asked : HoverParams}
    (hdocument : documents.get? asked.uri = some document) (hrun : WordRun before word after)
    (hsign : 0 ≤ asked.line)
    (hline : document.content.lines[asked.line.toNat]? = some (before ++ word ++ after))
    (hstart : before.utf16Length ≤ asked.character)
    (hstop : asked.character ≤ (before ++ word).utf16Length) :
    server.hover documents asked = server.wordHover asked.line before word := by
  rw [hover, hdocument]
  simp only [hrun.wordAt?_eq hsign hline hstart hstop, line_of_getElem? hsign hline]
  exact server.hoverOn_run after asked.line before word

/-- A hover that shows something shows a run on a line of the document. -/
theorem exists_run_of_hover {documents : Documents} {asked : HoverParams}
    (h : server.hover documents asked ≠ .null) :
    ∃ document before word after, documents.get? asked.uri = some document ∧ 0 ≤ asked.line ∧
      document.content.lines[asked.line.toNat]? = some (before ++ word ++ after) ∧
      WordRun before word after ∧
      server.hover documents asked = server.wordHover asked.line before word := by
  rw [hover] at h ⊢
  split at h
  · exact absurd rfl h
  · next document hdocument =>
      split at h
      · exact absurd rfl h
      · next found hfound =>
          obtain ⟨hsign, before, word, after, hline, hrun, rfl⟩ := exists_wordRun_of_wordAt? hfound
          refine ⟨document, before, word, after, hdocument, hsign, hline, hrun, ?_⟩
          rw [line_of_getElem? hsign hline]
          exact server.hoverOn_run after asked.line before word

theorem replies_of_hover {envelope : Members} {id : Json} {asked : HoverParams}
    (hmethod : envelope.get? "method" = some (.str "textDocument/hover"))
    (hid : envelope.requestId? = some id)
    (hasked : hoverParams (envelope.getD "params") = .ok asked) (ctx : Context Session) :
    (server.peer.handle envelope ctx).1 =
      [(Answer.result (server.hover ctx.state.documents asked)).response id] := by
  rw [server.handle_of_hover hmethod hid, hasked]

end Server

/-- A hover shows null or a word of the document.  The word is a run of word characters on
the line that was asked about and cannot be made longer on either side; it is shown between
the UTF-16 offsets of its ends.  As long as the document is the same, every hover on this
line with a character between these offsets shows the same. -/
theorem hover_exact_and_stable (server : Server) (ctx : Context Session) {envelope : Members}
    {id : Json} {asked : HoverParams}
    (hmethod : envelope.get? "method" = some (.str "textDocument/hover"))
    (hid : envelope.requestId? = some id)
    (hasked : hoverParams (envelope.getD "params") = .ok asked) :
    (server.peer.handle envelope ctx).1 = [(Answer.result .null).response id] ∨
    ∃ (document : Document) (before word after : Text),
      ctx.state.documents.get? asked.uri = some document ∧ 0 ≤ asked.line ∧
      document.content.lines[asked.line.toNat]? = some (before ++ word ++ after) ∧
      WordRun before word after ∧
      (server.peer.handle envelope ctx).1 =
        [(Answer.result (server.wordHover asked.line before word)).response id] ∧
      ∀ (later : Context Session) (other : Members) (otherId : Json) (cursor : HoverParams),
        later.state.documents.get? asked.uri = some document →
        other.get? "method" = some (.str "textDocument/hover") →
        other.requestId? = some otherId → hoverParams (other.getD "params") = .ok cursor →
        cursor.uri = asked.uri → cursor.line = asked.line →
        before.utf16Length ≤ cursor.character →
        cursor.character ≤ (before ++ word).utf16Length →
        (server.peer.handle other later).1 =
          [(Answer.result (server.wordHover asked.line before word)).response otherId] := by
  rw [server.replies_of_hover hmethod hid hasked]
  by_cases hnull : server.hover ctx.state.documents asked = .null
  · exact Or.inl (by rw [hnull])
  · right
    obtain ⟨document, before, word, after, hdocument, hsign, hline, hrun, hshown⟩ :=
      server.exists_run_of_hover hnull
    refine ⟨document, before, word, after, hdocument, hsign, hline, hrun, by rw [hshown], ?_⟩
    intro later other otherId cursor hlater hother hotherId hcursor huri hsame hstart hstop
    rw [server.replies_of_hover hother hotherId hcursor, ← hsame,
      server.hover_of_run (huri ▸ hlater) hrun (hsame ▸ hsign) (hsame ▸ hline) hstart hstop]

/-- A cursor between the two units of a character, and one at the end of the word. -/
theorem hover_exact_and_stable_astral :
    let hover (character : Int) : Members :=
      [("id", .int character), ("method", .str "textDocument/hover"),
        ("params", .obj [("textDocument", .obj [("uri", .str "u")]),
          ("position", .obj [("line", .int 0), ("character", .int character)])])]
    let ctx := Server.initial.modify (·.edit (·.insert ⟨"u", none, "x 𝒜é?-"⟩))
    let value := hoverJson "`𝒜é?`\n\nVibeScript symbol" (rangeJson 0 2 0 6)
    (Server.standard.peer.handle (hover 3) ctx).1 = [(Answer.result value).response (.int 3)] ∧
      (Server.standard.peer.handle (hover 6) ctx).1 =
        [(Answer.result value).response (.int 6)] := by
  intro hover ctx value
  have hrun : WordRun "x " "𝒜é?" "-" :=
    ⟨by decide, by decide +kernel, by decide +kernel, by decide +kernel⟩
  have hline : (Text.lines "x 𝒜é?-")[0]? = some (text "x " ++ "𝒜é?" ++ "-") := by
    decide +kernel
  have hid : (hover 3).requestId? = some (.int 3) := rfl
  have hasked : hoverParams ((hover 3).getD "params") = .ok ⟨"u", 0, 3⟩ := rfl
  have hfirst : (Server.standard.peer.handle (hover 3) ctx).1 =
      [(Answer.result value).response (.int 3)] := by
    rw [Server.standard.replies_of_hover rfl hid hasked,
      Server.standard.hover_of_run rfl hrun (Int.le_refl 0) hline (by decide) (by decide)]
    rfl
  refine ⟨hfirst, ?_⟩
  obtain hnull | ⟨document, before, word, after, hdocument, _, _, _, hreply, hstable⟩ :=
    hover_exact_and_stable Server.standard ctx rfl hid hasked
  · rw [hfirst] at hnull
    simp [Answer.response, value, hoverJson] at hnull
  · rw [hfirst] at hreply
    have hvalue : value = Server.standard.wordHover 0 before word := by
      simpa [Answer.response, response] using hreply
    have hends : 2 = (before.utf16Length : Int) ∧ 6 = ((before ++ word).utf16Length : Int) := by
      simp only [value, Server.wordHover, hoverJson, Members.unlessNull, rangeJson, positionJson,
        Json.isNull, Json.obj.injEq, Json.int.injEq, List.cons.injEq, Prod.mk.injEq,
        Bool.false_eq_true, ↓reduceIte, true_and, and_true] at hvalue
      exact hvalue.2
    have hstart : (before.utf16Length : Int) ≤ 6 := by omega
    have hstop : (6 : Int) ≤ (before ++ word).utf16Length := by omega
    rw [hvalue]
    exact hstable ctx (hover 6) (.int 6) ⟨"u", 0, 6⟩ hdocument rfl rfl rfl rfl rfl hstart hstop

end VibeScript
