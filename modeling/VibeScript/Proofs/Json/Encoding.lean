import VibeScript.Envelope

/-!
Which values can be written as a payload.

Writing fails for two reasons only: a text somewhere in the value holds a surrogate, or an
integer has too many digits (`encodeEnvelope_ok_iff`).
-/

namespace VibeScript

/-- A text without surrogates. -/
def Text.Encodable (t : Text) : Prop := ∀ c ∈ t, c.isSurrogate = false

namespace Text

theorem encodable_nil : Encodable [] := fun _ hc => by cases hc

theorem encodable_append_iff {s t : Text} :
    Encodable (s ++ t) ↔ s.Encodable ∧ t.Encodable := by
  simp only [Encodable, List.mem_append, or_imp, forall_and]

theorem encodable_cons_iff {c : CodePoint} {t : Text} :
    Encodable (c :: t) ↔ c.isSurrogate = false ∧ t.Encodable := by
  simp only [Encodable, List.mem_cons, or_imp, forall_and, forall_eq]

instance (t : Text) : Decidable t.Encodable :=
  inferInstanceAs (Decidable (∀ c ∈ t, _))

theorem encodable_of_sublist {s t : Text} (h : s.Sublist t) (ht : t.Encodable) :
    s.Encodable := fun c hc => ht c (h.subset hc)

end Text

theorem runFrom?_eq_none_iff {kind : CodePoint → Bool} {t : Text} :
    runFrom? kind t = none ↔ ∀ c ∈ t, kind c = false := by
  have hdrop : t.dropWhile (!kind ·) = [] ↔ ∀ c ∈ t, kind c = false := by
    induction t with
    | nil => simp
    | cons c rest ih =>
        rw [List.forall_mem_cons, ← ih]
        cases h : kind c <;> simp [h]
  rw [← hdrop, runFrom?]
  split
  · next h => simp [h]
  · next h => simp [h]

theorem surrogateRun?_eq_none_iff {t : Text} : surrogateRun? t = none ↔ t.Encodable :=
  runFrom?_eq_none_iff

theorem CodePoint.isSurrogate_of_isAsciiDigit {c : CodePoint} (h : c.isAsciiDigit = true) :
    c.isSurrogate = false := by
  simp only [isAsciiDigit, Bool.and_eq_true, decide_eq_true_eq] at h
  simp only [isSurrogate, Bool.and_eq_false_iff, decide_eq_false_iff_not]
  omega

theorem encodable_decimal (n : Nat) : (decimal n).Encodable := fun c hc =>
  CodePoint.isSurrogate_of_isAsciiDigit (isAsciiDigit_of_mem_decimal n c hc)

theorem encodable_decimalInt (n : Int) : (decimalInt n).Encodable := by
  cases n with
  | ofNat n => exact encodable_decimal n
  | negSucc n => exact Text.encodable_cons_iff.mpr ⟨by decide, encodable_decimal (n + 1)⟩

theorem encodable_replicate {c : CodePoint} (h : c.isSurrogate = false) (n : Nat) :
    Text.Encodable (List.replicate n c) := fun d hd => by
  rw [List.eq_of_mem_replicate hd]
  exact h

theorem encodable_hexadecimal (width n : Nat) : (hexadecimal width n).Encodable := by
  induction width generalizing n with
  | zero => exact Text.encodable_nil
  | succ width ih =>
      have hdigit : ∀ d < 16, (hexChar d).isSurrogate = false := by decide
      rw [hexadecimal, Text.encodable_append_iff, Text.encodable_cons_iff]
      exact ⟨ih (n / 16), hdigit _ (Nat.mod_lt n (by decide)), Text.encodable_nil⟩

section Reals

variable (style : RealStyle)

theorem RealStyle.encodable_writeDigits {digits : Text} (h : digits.Encodable) (point : Int) :
    (style.writeDigits digits point).Encodable := by
  have hzeros (n : Int) : Text.Encodable (List.replicate n.toNat (CodePoint.ofChar '0')) :=
    encodable_replicate (by decide) n.toNat
  have htake (n : Nat) : Text.Encodable (digits.take n) :=
    Text.encodable_of_sublist (List.take_sublist n digits) h
  have hdrop (n : Nat) : Text.Encodable (digits.drop n) :=
    Text.encodable_of_sublist (List.drop_sublist n digits) h
  unfold writeDigits
  split
  · split
    · simp only [Text.encodable_append_iff]
      exact ⟨⟨by decide, hzeros _⟩, h⟩
    split
    · simp only [Text.encodable_append_iff]
      exact ⟨⟨h, hzeros _⟩, by decide⟩
    · simp only [Text.encodable_append_iff]
      exact ⟨⟨htake _, by decide⟩, hdrop _⟩
  · have hfraction : Text.Encodable (if digits.length ≤ 1 then [] else "." ++ digits.tail) := by
      split
      · exact Text.encodable_nil
      · exact Text.encodable_append_iff.mpr
          ⟨by decide, Text.encodable_of_sublist (List.tail_sublist digits) h⟩
    have hsign : Text.Encodable (if point - 1 < 0 then "-" else "+") := by
      split <;> decide
    simp only [Text.encodable_append_iff]
    exact ⟨⟨⟨⟨⟨htake 1, hfraction⟩, by decide⟩, hsign⟩,
      encodable_replicate (by decide) _⟩, encodable_decimal _⟩

theorem RealStyle.encodable_write (hnan : style.nan.Encodable)
    (hinfinity : style.infinity.Encodable) (x : Binary64) : (style.write x).Encodable := by
  have hsign (negative : Bool) : (text (if negative then "-" else "")).Encodable := by
    cases negative <;> decide
  cases x with
  | nan => exact hnan
  | infinity negative => exact Text.encodable_append_iff.mpr ⟨hsign negative, hinfinity⟩
  | finite negative units =>
      refine Text.encodable_append_iff.mpr ⟨hsign negative, ?_⟩
      split
      · decide
      · refine style.encodable_writeDigits (fun c hc => ?_) _
        have hwritten := (List.dropWhile_sublist _).subset (List.mem_reverse.mp hc)
        exact encodable_decimal _ c (List.mem_reverse.mp hwritten)

end Reals

/-- A character in a string is written without surrogates exactly if it is none. -/
theorem encodable_jsonEscape_iff (c : CodePoint) :
    (jsonEscape c).Encodable ↔ c.isSurrogate = false := by
  unfold jsonEscape
  split
  · next h => subst h; decide
  split
  · next h => subst h; decide
  split
  · simp [Text.encodable_cons_iff, Text.encodable_nil]
  · -- a control character is none, and its escape is plain
    next hlow =>
      have hcontrol : c.isSurrogate = false := by
        simp only [CodePoint.isSurrogate, Bool.and_eq_false_iff, decide_eq_false_iff_not]
        omega
      refine iff_of_true ?_ hcontrol
      repeat' split
      all_goals first
        | decide
        | exact Text.encodable_cons_iff.mpr ⟨by decide, Text.encodable_cons_iff.mpr
            ⟨by decide, encodable_hexadecimal 4 _⟩⟩

theorem encodable_jsonString_iff (t : Text) : (jsonString t).Encodable ↔ t.Encodable := by
  have hescapes : Text.Encodable (t.flatMap jsonEscape) ↔ t.Encodable := by
    induction t with
    | nil => rfl
    | cons c rest ih =>
        rw [List.flatMap_cons, Text.encodable_append_iff, Text.encodable_cons_iff,
          encodable_jsonEscape_iff, ih]
  have hquote : CodePoint.quote.isSurrogate = false := by decide
  simp [jsonString, Text.encodable_cons_iff, Text.encodable_append_iff, Text.encodable_nil,
    hescapes, hquote]

mutual

/-- A value that can be written: no text in it holds a surrogate, and no integer has too
many digits. -/
def Json.Encodable : Json → Prop
  | .int n => n.natAbs < tenTo digitLimit
  | .str s => s.Encodable
  | .arr elements => elementsEncodable elements
  | .obj members => membersEncodable members
  | _ => True

def elementsEncodable : List Json → Prop
  | [] => True
  | x :: rest => x.Encodable ∧ elementsEncodable rest

def membersEncodable : List (Text × Json) → Prop
  | [] => True
  | (key, value) :: rest => key.Encodable ∧ value.Encodable ∧ membersEncodable rest

end

theorem renderElements_cons_cons (x y : Json) (rest : List Json) :
    renderElements (x :: y :: rest) = x.render ++ "," ++ renderElements (y :: rest) := by
  rw [renderElements]
  simp

theorem renderMembers_cons_cons (key : Text) (value : Json) (second : Text × Json)
    (rest : List (Text × Json)) :
    renderMembers ((key, value) :: second :: rest) =
      jsonString key ++ ":" ++ value.render ++ "," ++ renderMembers (second :: rest) := by
  rw [renderMembers]
  simp

mutual

theorem Json.encodable_iff_render : (value : Json) →
    (value.Encodable ↔ value.isWritable = true ∧ value.render.Encodable)
  | .null => iff_of_true trivial ⟨rfl, by decide⟩
  | .bool true => iff_of_true trivial ⟨rfl, by decide⟩
  | .bool false => iff_of_true trivial ⟨rfl, by decide⟩
  | .int n => by
      simp only [Json.Encodable, Json.isWritable, Json.render, decide_eq_true_eq,
        encodable_decimalInt, and_true]
  | .real x => iff_of_true trivial
      ⟨rfl, jsonReals.encodable_write (by decide) (by decide) x⟩
  | .str s => by
      simp only [Json.Encodable, Json.isWritable, Json.render, encodable_jsonString_iff, true_and]
  | .arr elements => by
      have hopen : Text.Encodable "[" := by decide
      have hclose : Text.Encodable "]" := by decide
      simp only [Json.Encodable, Json.isWritable, Json.render, Text.encodable_append_iff, hopen,
        hclose, true_and, and_true, elementsEncodable_iff_render elements]
  | .obj members => by
      have hopen : Text.Encodable [CodePoint.openBrace] := by decide
      have hclose : Text.Encodable [CodePoint.closeBrace] := by decide
      simp only [Json.Encodable, Json.isWritable, Json.render, Text.encodable_append_iff, hopen,
        hclose, true_and, and_true, membersEncodable_iff_render members]

theorem elementsEncodable_iff_render : (elements : List Json) →
    (elementsEncodable elements ↔
      elementsWritable elements = true ∧ (renderElements elements).Encodable)
  | [] => iff_of_true trivial ⟨rfl, Text.encodable_nil⟩
  | [x] => by
      simp only [elementsEncodable, elementsWritable, renderElements, Bool.and_true, and_true,
        x.encodable_iff_render]
  | x :: y :: rest => by
      have hcomma : Text.Encodable "," := by decide
      rw [renderElements_cons_cons, elementsEncodable, elementsWritable, Bool.and_eq_true,
        Text.encodable_append_iff, Text.encodable_append_iff, x.encodable_iff_render,
        elementsEncodable_iff_render (y :: rest)]
      exact ⟨fun ⟨⟨hwrite, htext⟩, hwrites, htexts⟩ => ⟨⟨hwrite, hwrites⟩, ⟨htext, hcomma⟩, htexts⟩,
        fun ⟨⟨hwrite, hwrites⟩, ⟨htext, _⟩, htexts⟩ => ⟨⟨hwrite, htext⟩, hwrites, htexts⟩⟩

theorem membersEncodable_iff_render : (members : List (Text × Json)) →
    (membersEncodable members ↔
      membersWritable members = true ∧ (renderMembers members).Encodable)
  | [] => iff_of_true trivial ⟨rfl, Text.encodable_nil⟩
  | [(key, value)] => by
      have hcolon : Text.Encodable ":" := by decide
      rw [membersEncodable, membersEncodable, membersWritable, membersWritable, renderMembers,
        Bool.and_true, and_true, Text.encodable_append_iff, Text.encodable_append_iff,
        encodable_jsonString_iff, value.encodable_iff_render]
      exact ⟨fun ⟨hkey, hwrite, htext⟩ => ⟨hwrite, ⟨hkey, hcolon⟩, htext⟩,
        fun ⟨hwrite, ⟨hkey, _⟩, htext⟩ => ⟨hkey, hwrite, htext⟩⟩
  | (key, value) :: second :: rest => by
      have hcolon : Text.Encodable ":" := by decide
      have hcomma : Text.Encodable "," := by decide
      rw [renderMembers_cons_cons, membersEncodable, membersWritable, Bool.and_eq_true,
        Text.encodable_append_iff, Text.encodable_append_iff, Text.encodable_append_iff,
        Text.encodable_append_iff, encodable_jsonString_iff, value.encodable_iff_render,
        membersEncodable_iff_render (second :: rest)]
      exact ⟨fun ⟨hkey, ⟨hwrite, htext⟩, hwrites, htexts⟩ =>
          ⟨⟨hwrite, hwrites⟩, ⟨⟨⟨hkey, hcolon⟩, htext⟩, hcomma⟩, htexts⟩,
        fun ⟨⟨hwrite, hwrites⟩, ⟨⟨⟨hkey, _⟩, htext⟩, _⟩, htexts⟩ =>
          ⟨hkey, ⟨hwrite, htext⟩, hwrites, htexts⟩⟩

end

/-- A value is written exactly if all that it holds can be. -/
theorem encodeEnvelope_ok_iff (value : Json) :
    (∃ body, encodeEnvelope value = .ok body) ↔ value.Encodable := by
  rw [Json.encodable_iff_render, ← surrogateRun?_eq_none_iff, encodeEnvelope, encodeUtf8]
  cases surrogateRun? value.render <;> cases value.isWritable <;> simp

end VibeScript
