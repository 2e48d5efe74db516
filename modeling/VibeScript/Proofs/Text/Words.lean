import VibeScript.Proofs.Text.Units
import VibeScript.Word

/-!
Words on a line.

The word at a cursor is a maximal run of word characters (`WordRun`).  Every index in a run
finds the whole run, the one behind its last character included (`WordRun.wordOnLine?_eq`),
and nothing but a run is found (`exists_wordRun_of_wordOnLine?`).
-/

namespace VibeScript

/-- A run of word characters with what stands before and behind it on its line.  It cannot be
made longer on either side. -/
structure WordRun (before word after : Text) : Prop where
  ne_nil : word ≠ []
  inside : ∀ c ∈ word, c.isWordChar = true
  left : ∀ c ∈ before.getLast?, c.isWordChar = false
  right : ∀ c ∈ after.head?, c.isWordChar = false

/-- The span of a run. -/
def WordRun.span (before word : Text) : WordSpan :=
  ⟨word, before.length, before.length + word.length⟩

section Runs

variable {kind : CodePoint → Bool} {s t : Text}

theorem takeWhile_append_of_head (hs : ∀ c ∈ s, kind c = true)
    (ht : ∀ c ∈ t.head?, kind c = false) : (s ++ t).takeWhile kind = s := by
  rw [List.takeWhile_append_of_pos hs]
  cases t with
  | nil => simp
  | cons c rest => simp [ht c rfl]

theorem eq_false_of_head?_dropWhile {c : CodePoint} (h : c ∈ (t.dropWhile kind).head?) :
    kind c = false := by
  have hhead := List.head?_dropWhile_not kind t
  rwa [Option.mem_def.mp h] at hhead

end Runs

namespace WordRun

variable {before word after : Text} {index : Nat}

theorem wordAround_eq (h : WordRun before word after) (hstart : before.length ≤ index)
    (hstop : index < before.length + word.length) :
    wordAround (before ++ word ++ after) index = span before word := by
  obtain ⟨k, rfl⟩ := Nat.exists_eq_add_of_le hstart
  have hk : k ≤ word.length := by omega
  have htake : (before ++ word ++ after).take (before.length + k) = before ++ word.take k := by
    rw [List.append_assoc, List.take_length_add_append, List.take_append_of_le_length hk]
  have hdrop : (before ++ word ++ after).drop (before.length + k) = word.drop k ++ after := by
    rw [List.append_assoc, List.drop_length_add_append, List.drop_append_of_le_length hk]
  have hleft : ((before ++ word.take k).reverse.takeWhile (·.isWordChar)) =
      (word.take k).reverse := by
    rw [List.reverse_append]
    refine takeWhile_append_of_head (fun c hc => ?_) fun c hc => ?_
    · exact h.inside c (List.mem_of_mem_take (List.mem_reverse.mp hc))
    · exact h.left c (by rwa [List.head?_reverse] at hc)
  have hright : (word.drop k ++ after).takeWhile (·.isWordChar) = word.drop k :=
    takeWhile_append_of_head (fun c hc => h.inside c (List.mem_of_mem_drop hc)) h.right
  have hlength : ((word.take k).reverse).length = k := by
    rw [List.length_reverse, List.length_take_of_le hk]
  rw [wordAround, htake, hdrop, hleft, hright, hlength, List.length_drop, span,
    Nat.add_sub_cancel, List.append_assoc, List.drop_left, Nat.add_sub_cancel' hk, List.take_left,
    Nat.add_assoc, Nat.add_sub_cancel' hk]

/-- A character of the run is a word character. -/
theorem onWord_of_lt (h : WordRun before word after) (hstart : before.length ≤ index)
    (hstop : index < before.length + word.length) :
    ((before ++ word ++ after)[index]?).any (·.isWordChar) = true := by
  obtain ⟨k, rfl⟩ := Nat.exists_eq_add_of_le hstart
  have hk : k < word.length := by omega
  rw [List.append_assoc, List.getElem?_append_right (Nat.le_add_right _ _),
    Nat.add_sub_cancel_left, List.getElem?_append_left hk, List.getElem?_eq_getElem hk]
  exact h.inside _ (List.getElem_mem hk)

theorem not_onWord_stop (h : WordRun before word after) :
    ((before ++ word ++ after)[before.length + word.length]?).any (·.isWordChar) = false := by
  rw [← List.length_append, List.getElem?_append_right (Nat.le_refl _), Nat.sub_self,
    ← List.head?_eq_getElem?]
  cases hhead : after.head? with
  | none => rfl
  | some c => exact h.right c hhead

/-- Every index in a run finds the run, as does the one behind its last character. -/
theorem wordOnLine?_eq (h : WordRun before word after) (hstart : before.length ≤ index)
    (hstop : index ≤ before.length + word.length) :
    wordOnLine? (before ++ word ++ after) index = some (span before word) := by
  rw [wordOnLine?]
  rcases Nat.lt_or_eq_of_le hstop with hlt | rfl
  · rw [if_pos (h.onWord_of_lt hstart hlt), h.wordAround_eq hstart hlt]
  · have hlength : 0 < word.length := List.length_pos_iff.mpr h.ne_nil
    have hlast : before.length ≤ before.length + word.length - 1 := by omega
    have hwithin : before.length + word.length - 1 < before.length + word.length := by omega
    simp only [h.not_onWord_stop, Bool.false_eq_true, ↓reduceIte]
    rw [if_pos ⟨by omega, h.onWord_of_lt hlast hwithin⟩, h.wordAround_eq hlast hwithin]

end WordRun

/-- A word character stands in a run: it goes as far as there are word characters on either
side. -/
theorem exists_wordRun_append (s t : Text) {c : CodePoint} (hc : c.isWordChar = true) :
    ∃ before word after, s ++ c :: t = before ++ word ++ after ∧ WordRun before word after ∧
      before.length ≤ s.length ∧ s.length < before.length + word.length := by
  let isWord : CodePoint → Bool := (·.isWordChar)
  let before := (s.reverse.dropWhile isWord).reverse
  let behind := (s.reverse.takeWhile isWord).reverse
  have hs : before ++ behind = s := by
    rw [← List.reverse_append, List.takeWhile_append_dropWhile, List.reverse_reverse]
  have ht : t.takeWhile isWord ++ t.dropWhile isWord = t := List.takeWhile_append_dropWhile
  refine ⟨before, behind ++ c :: t.takeWhile isWord, t.dropWhile isWord, ?_, ⟨?_, ?_, ?_, ?_⟩, ?_⟩
  · calc s ++ c :: t = (before ++ behind) ++ c :: (t.takeWhile isWord ++ t.dropWhile isWord) := by
          rw [hs, ht]
      _ = before ++ (behind ++ c :: t.takeWhile isWord) ++ t.dropWhile isWord := by
          simp only [List.append_assoc, List.cons_append]
  · simp
  · intro d hd
    rcases List.mem_append.mp hd with hbehind | hd
    · exact List.all_eq_true.mp List.all_takeWhile d (List.mem_reverse.mp hbehind)
    · rcases List.mem_cons.mp hd with rfl | hmore
      · exact hc
      · exact List.all_eq_true.mp List.all_takeWhile d hmore
  · intro d hd
    rw [List.getLast?_reverse] at hd
    exact eq_false_of_head?_dropWhile hd
  · intro d hd
    exact eq_false_of_head?_dropWhile hd
  · rw [← hs]
    simp

theorem exists_wordRun {lineText : Text} {index : Nat}
    (h : (lineText[index]?).any (·.isWordChar) = true) :
    ∃ before word after, lineText = before ++ word ++ after ∧ WordRun before word after ∧
      before.length ≤ index ∧ index < before.length + word.length := by
  cases hget : lineText[index]? with
  | none => simp [hget] at h
  | some c =>
      rw [hget] at h
      obtain ⟨hindex, hc⟩ := List.getElem?_eq_some_iff.mp hget
      have hline : lineText = lineText.take index ++ c :: lineText.drop (index + 1) := by
        rw [← hc, ← List.drop_eq_getElem_cons hindex, List.take_append_drop]
      obtain ⟨before, word, after, heq, hrun, hstart, hstop⟩ :=
        exists_wordRun_append (lineText.take index) (lineText.drop (index + 1)) h
      rw [List.length_take_of_le (Nat.le_of_lt hindex)] at hstart hstop
      exact ⟨before, word, after, hline.trans heq, hrun, hstart, hstop⟩

/-- The word that is found at an index is a run, and the index is in it or right behind it. -/
theorem exists_wordRun_of_wordOnLine? {lineText : Text} {index : Nat} {found : WordSpan}
    (h : wordOnLine? lineText index = some found) :
    ∃ before word after, lineText = before ++ word ++ after ∧ WordRun before word after ∧
      found = WordRun.span before word ∧ before.length ≤ index ∧
      index ≤ before.length + word.length := by
  rw [wordOnLine?] at h
  split at h
  · next hon =>
      obtain ⟨before, word, after, rfl, hrun, hstart, hstop⟩ := exists_wordRun hon
      rw [hrun.wordAround_eq hstart hstop] at h
      exact ⟨before, word, after, rfl, hrun, (Option.some.inj h).symm, hstart,
        Nat.le_of_lt hstop⟩
  · split at h
    · next hbehind =>
        obtain ⟨before, word, after, rfl, hrun, hstart, hstop⟩ := exists_wordRun hbehind.2
        rw [hrun.wordAround_eq hstart hstop] at h
        exact ⟨before, word, after, rfl, hrun, (Option.some.inj h).symm, by omega, by omega⟩
    · cases h

/-- A cursor that finds a word is on a line that there is, and the word is a run on it. -/
theorem exists_wordRun_of_wordAt? {source : Text} {line character : Int} {found : WordSpan}
    (h : wordAt? source line character = some found) :
    0 ≤ line ∧ ∃ before word after,
      source.lines[line.toNat]? = some (before ++ word ++ after) ∧ WordRun before word after ∧
      found = WordRun.span before word := by
  rw [wordAt?] at h
  split at h
  · cases h
  · next hsign =>
      refine ⟨Int.not_lt.mp hsign, ?_⟩
      split at h
      · cases h
      · cases h
      · next lineText _ hline =>
          obtain ⟨before, word, after, rfl, hrun, hspan, _⟩ := exists_wordRun_of_wordOnLine? h
          exact ⟨before, word, after, hline, hrun, hspan⟩

/-- Every cursor within a run finds it: between the units of a character, and at either end
too. -/
theorem WordRun.wordAt?_eq {before word after source : Text} {line character : Int}
    (h : WordRun before word after) (hsign : 0 ≤ line)
    (hline : source.lines[line.toNat]? = some (before ++ word ++ after))
    (hstart : before.utf16Length ≤ character)
    (hstop : character ≤ (before ++ word).utf16Length) :
    wordAt? source line character = some (span before word) := by
  have hword : 0 < word.length := List.length_pos_iff.mpr h.ne_nil
  have hlength : (before ++ word ++ after).length =
      before.length + word.length + after.length := by
    rw [List.length_append, List.length_append]
  have hne : before ++ word ++ after ≠ [] := List.length_pos_iff.mp (by omega)
  obtain ⟨hlow, hhigh⟩ := Text.utf16ToIndex_within before word after hstart hstop
  rw [wordAt?, if_neg (Int.not_lt.mpr hsign), hline]
  split
  · next hnone => cases hnone
  · next hnil => exact absurd (Option.some.inj hnil) hne
  · next hfound =>
      rw [← Option.some.inj hfound]
      exact h.wordOnLine?_eq (by omega) (by omega)

end VibeScript
