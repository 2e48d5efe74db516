import VibeScript.Json.Parser
import VibeScript.Json.Printer

/-!
JSON strings that were written are read back (`scanJsonString_jsonString`).

Each character is read from its own escape, so the text is read character by character
until the closing quotation mark, which no escape contains.
-/

namespace VibeScript

/-- A hexadecimal digit that was written has its value. -/
theorem hexValue?_hexChar {d : Nat} (h : d < 16) : (hexChar d).hexValue? = some d := by
  have hall : ∀ d < 16, (hexChar d).hexValue? = some d := by decide
  exact hall d h

/-- Four hexadecimal digits that were written denote the number. -/
theorem fourHex?_hexadecimal {n : Nat} (h : n < 65536) (rest : Text) :
    fourHex? (hexadecimal 4 n ++ rest) = some n := by
  have hdigit (m : Nat) : (hexChar (m % 16)).hexValue? = some (m % 16) :=
    hexValue?_hexChar (Nat.mod_lt m (by decide))
  simp only [hexadecimal, List.nil_append, List.cons_append, fourHex?, hdigit,
    Option.bind_eq_bind, Option.bind_some, Option.pure_def, Option.some.injEq]
  omega

/-- How far the escape of a control character goes behind its backslash. -/
theorem jsonUnescape?_control {c : CodePoint} (h : c.val < 0x20) (rest : Text) :
    jsonUnescape? (CodePoint.ofChar 'u' :: (hexadecimal 4 c.val ++ rest)) = some (c, 5) := by
  have hself : CodePoint.ofNat c.val = c := CodePoint.ext_val (CodePoint.val_ofNat c.val_lt)
  have hhigh : c.isHighSurrogate = false := by
    simp only [CodePoint.isHighSurrogate, Bool.and_eq_false_iff, decide_eq_false_iff_not]
    omega
  have hother : ∀ d ∈ ([CodePoint.quote, CodePoint.backslash, '/', 'b', 'f', 'n', 'r', 't'] :
      List CodePoint), CodePoint.ofChar 'u' ≠ d := by decide
  simp only [List.forall_mem_cons, List.not_mem_nil, false_imp_iff, implies_true, and_true]
    at hother
  have hread := fourHex?_hexadecimal (Nat.lt_trans h (by decide)) rest
  simp [jsonUnescape?, hother, hread, hself, hhigh]

/-- A character behind a backslash that stands for itself or for another one. -/
theorem scanJsonString_escape {c d : CodePoint} {taken : Nat} {escape rest : Text}
    (h : jsonUnescape? (escape ++ rest) = some (d, taken)) (hlength : escape.length = taken)
    (hd : d = c) (done : Text) (length : Nat) :
    scanJsonString done length (CodePoint.backslash :: escape ++ rest) =
      scanJsonString (c :: done) (length + (CodePoint.backslash :: escape).length) rest := by
  have hquote : CodePoint.backslash ≠ CodePoint.quote := by decide
  rw [List.cons_append, scanJsonString, if_neg hquote, if_pos rfl]
  simp only [h]
  rw [← hlength, hd, List.drop_left, List.length_cons]
  congr 1
  omega

/-- A character is read from its escape. -/
theorem scanJsonString_jsonEscape (c : CodePoint) (done : Text) (length : Nat) (rest : Text) :
    scanJsonString done length (jsonEscape c ++ rest) =
      scanJsonString (c :: done) (length + (jsonEscape c).length) rest := by
  unfold jsonEscape
  split
  case isTrue hquote => exact scanJsonString_escape rfl rfl hquote.symm done length
  case isFalse hquote =>
  split
  case isTrue hbackslash => exact scanJsonString_escape rfl rfl hbackslash.symm done length
  case isFalse hbackslash =>
  split
  case isTrue hraw =>
    rw [List.singleton_append, scanJsonString, if_neg hquote, if_neg hbackslash,
      if_neg (Nat.not_lt.mpr hraw)]
    rfl
  case isFalse hcontrol =>
    have hself {n : Nat} (hn : n < 0x110000) (h : c.val = n) : ⟨n, hn⟩ = c :=
      CodePoint.ext_val h.symm
    -- the control characters with an escape of one letter, and then all others
    iterate 5
      split
      case isTrue h => exact scanJsonString_escape rfl rfl (hself (by decide) h) done length
    exact scanJsonString_escape
      (jsonUnescape?_control (Nat.lt_of_not_le hcontrol) rest) rfl rfl done length

theorem scanJsonString_flatMap (t done : Text) (length : Nat) (rest : Text) :
    scanJsonString done length (t.flatMap jsonEscape ++ CodePoint.quote :: rest) =
      some (done.reverse ++ t, length + (t.flatMap jsonEscape).length + 1) := by
  induction t generalizing done length with
  | nil => simp [scanJsonString]
  | cons c more ih =>
      rw [List.flatMap_cons, List.append_assoc, scanJsonString_jsonEscape, ih]
      simp [Nat.add_assoc]

/-- What follows the opening quotation mark of a written text is read as the text, up to
the closing quotation mark. -/
theorem scanJsonString_jsonString (t rest : Text) :
    ∃ length, jsonString t ++ rest =
        CodePoint.quote :: (t.flatMap jsonEscape ++ CodePoint.quote :: rest) ∧
      scanJsonString [] 0 (t.flatMap jsonEscape ++ CodePoint.quote :: rest) =
        some (t, length) ∧
      (t.flatMap jsonEscape ++ CodePoint.quote :: rest).drop length = rest := by
  refine ⟨_, ?_, scanJsonString_flatMap t [] 0 rest, ?_⟩
  · simp [jsonString]
  · have hsplit : t.flatMap jsonEscape ++ CodePoint.quote :: rest =
        (t.flatMap jsonEscape ++ [CodePoint.quote]) ++ rest := by simp
    rw [hsplit]
    exact List.drop_left' (by simp)

end VibeScript
