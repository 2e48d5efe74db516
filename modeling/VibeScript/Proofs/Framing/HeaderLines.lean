import Mathlib.Data.List.TakeWhile
import VibeScript.Framing

/-!
The lines of a header, byte by byte.

What a line means to a reader is said about its bytes alone: which lines have the name
`Content-Length` (`headerLine_eq_contentLength_iff`), and which values denote a length
(`contentLength_strip_eq_ok_iff`).
-/

namespace VibeScript

/-- Nothing but carriage returns (13) and line feeds (10). -/
def IsEmptyLine (line : Bytes) : Prop := ∀ b ∈ line, b = 13 ∨ b = 10

/-- A blank of ASCII. -/
def IsBlankByte (b : UInt8) : Prop := (9 ≤ b ∧ b ≤ 13) ∨ (28 ≤ b ∧ b ≤ 32)

instance (b : UInt8) : Decidable (IsBlankByte b) := inferInstanceAs (Decidable (_ ∨ _))

/-- Bytes with blanks around them. -/
def Padded (core padded : Bytes) : Prop :=
  ∃ front back, padded = front ++ (core ++ back) ∧ ∀ b ∈ front ++ back, IsBlankByte b

/-- A letter of ASCII in lower case. -/
def lowerByte (b : UInt8) : UInt8 := if 65 ≤ b ∧ b ≤ 90 then b + 32 else b

/-- A line with this value behind its first colon, which is the byte 58, and in front of it the
name that gives the length of a body, in letters of any case. -/
def NamesLength (line value : Bytes) : Prop :=
  ∃ name core, line = name ++ 58 :: value ∧ 58 ∉ name ∧ Padded core name ∧
    core.map lowerByte = asciiBytes "content-length"

/-- The number that ASCII digits denote. -/
def denoted (digits : Bytes) : Nat :=
  digits.foldl (fun value b => value * 10 + (b.toNat - 48)) 0

/-- A value that denotes a length: some digits, but not too many, and in front of them a plus (43),
a minus (45) or no sign.  Only zero can have a minus. -/
def DenotesLength (value : Bytes) (n : Nat) : Prop :=
  ∃ sign digits, Padded (sign ++ digits) value ∧ (sign = [] ∨ sign = [43] ∨ sign = [45]) ∧
    digits ≠ [] ∧ (∀ b ∈ digits, 48 ≤ b ∧ b ≤ 57) ∧ digits.length ≤ digitLimit ∧
    n = denoted digits ∧ (sign = [45] → n = 0)

/-- The character that a byte of a header stands for. -/
def headerChar (b : UInt8) : CodePoint :=
  if b < 0x80 then CodePoint.ofNat b.toNat else CodePoint.replacement

theorem headerText_eq_map (bytes : Bytes) : headerText bytes = bytes.map headerChar := rfl

/-- A text of ASCII characters. -/
def IsAscii (t : Text) : Prop := ∀ c ∈ t, c.val < 0x80

instance (t : Text) : Decidable (IsAscii t) := inferInstanceAs (Decidable (∀ c ∈ t, _))

theorem isAscii_append {s t : Text} (hs : IsAscii s) (ht : IsAscii t) : IsAscii (s ++ t) :=
  fun c hc => (List.mem_append.mp hc).elim (hs c) (ht c)

theorem CodePoint.utf8_of_ascii {c : CodePoint} (h : c.val < 0x80) :
    c.utf8 = [UInt8.ofNat c.val] := if_pos h

theorem asciiBytes_append (s t : Text) : asciiBytes (s ++ t) = asciiBytes s ++ asciiBytes t :=
  List.flatMap_append

theorem asciiBytes_cons {c : CodePoint} (h : c.val < 0x80) (t : Text) :
    asciiBytes (c :: t) = UInt8.ofNat c.val :: asciiBytes t := by
  rw [asciiBytes, List.flatMap_cons, CodePoint.utf8_of_ascii h]
  rfl

section HeaderChar

theorem val_headerChar (b : UInt8) :
    (headerChar b).val = if b.toNat < 0x80 then b.toNat else 0xFFFD := by
  rw [headerChar]
  simp only [UInt8.lt_iff_toNat_lt, UInt8.reduceToNat]
  by_cases h : b.toNat < 128
  · rw [if_pos h, if_pos h]
    exact CodePoint.val_ofNat (by omega)
  · rw [if_neg h, if_neg h]
    rfl

/-- An ASCII character stands for its own byte only. -/
theorem headerChar_eq_iff {c : CodePoint} (hc : c.val < 0x80) (b : UInt8) :
    headerChar b = c ↔ b = UInt8.ofNat c.val := by
  have hval := val_headerChar b
  have hbyte : (UInt8.ofNat c.val).toNat = c.val := by
    rw [UInt8.toNat_ofNat']
    omega
  rw [← UInt8.toNat_inj, hbyte]
  constructor
  · rintro rfl
    split at hval <;> omega
  · intro h
    rw [if_pos (by omega)] at hval
    exact CodePoint.ext_val (by omega)

theorem isHeaderBlank_headerChar (b : UInt8) :
    isHeaderBlank (headerChar b) = true ↔ IsBlankByte b := by
  simp only [isHeaderBlank, val_headerChar, IsBlankByte, UInt8.le_iff_toNat_le, Bool.or_eq_true,
    Bool.and_eq_true, decide_eq_true_eq, UInt8.reduceToNat]
  split <;> omega

theorem isAsciiDigit_headerChar (b : UInt8) :
    (headerChar b).isAsciiDigit = true ↔ 48 ≤ b ∧ b ≤ 57 := by
  simp only [CodePoint.isAsciiDigit, val_headerChar, UInt8.le_iff_toNat_le, Bool.and_eq_true,
    decide_eq_true_eq, UInt8.reduceToNat]
  split <;> omega

theorem digitValue_headerChar {b : UInt8} (h : 48 ≤ b ∧ b ≤ 57) :
    (headerChar b).digitValue = b.toNat - 48 := by
  simp only [UInt8.le_iff_toNat_le, UInt8.reduceToNat] at h
  rw [CodePoint.digitValue, val_headerChar, if_pos (by omega)]

theorem toNat_lowerByte (b : UInt8) :
    (lowerByte b).toNat =
      if 65 ≤ b.toNat ∧ b.toNat ≤ 90 then b.toNat + 32 else b.toNat := by
  simp only [lowerByte, UInt8.le_iff_toNat_le, UInt8.reduceToNat]
  split
  · have hsum : (b + 32).toNat = (b.toNat + 32) % 256 := UInt8.toNat_add b 32
    omega
  · rfl

theorem lowerAscii_headerChar (b : UInt8) :
    lowerAscii (headerChar b) = headerChar (lowerByte b) := by
  have hval (c : CodePoint) : (lowerAscii c).val =
      if 65 ≤ c.val ∧ c.val ≤ 90 then c.val + 32 else c.val := by
    rw [lowerAscii]
    split
    · exact CodePoint.val_ofNat (by omega)
    · rfl
  refine CodePoint.ext_val ?_
  rw [hval, val_headerChar, val_headerChar, toNat_lowerByte]
  by_cases hascii : b.toNat < 128
  · simp only [if_pos hascii]
    split
    · rw [if_pos (by omega)]
    · rfl
  · have hupper : ¬ (65 ≤ b.toNat ∧ b.toNat ≤ 90) := by omega
    simp [hascii, hupper]

end HeaderChar

section HeaderText

theorem mem_headerText {bytes : Bytes} {c : CodePoint} :
    c ∈ headerText bytes ↔ ∃ b ∈ bytes, headerChar b = c := List.mem_map

theorem headerText_append (first second : Bytes) :
    headerText (first ++ second) = headerText first ++ headerText second := List.map_append

theorem exists_of_headerText_eq_append {bytes : Bytes} {s t : Text}
    (h : headerText bytes = s ++ t) :
    ∃ first second, bytes = first ++ second ∧ headerText first = s ∧ headerText second = t :=
  List.map_eq_append_iff.mp h

/-- The bytes of an ASCII text are read as the text. -/
theorem headerText_asciiBytes {t : Text} (h : IsAscii t) : headerText (asciiBytes t) = t := by
  induction t with
  | nil => rfl
  | cons c rest ih =>
      have hc : c.val < 0x80 := h c List.mem_cons_self
      rw [asciiBytes_cons hc, headerText_eq_map, List.map_cons, (headerChar_eq_iff hc _).mpr rfl]
      exact congrArg (c :: ·) (ih fun d hd => h d (List.mem_cons_of_mem c hd))

/-- An ASCII text is the text of its own bytes only. -/
theorem headerText_eq_iff {t : Text} (ht : IsAscii t) (bytes : Bytes) :
    headerText bytes = t ↔ bytes = asciiBytes t := by
  constructor
  · intro h
    induction bytes generalizing t with
    | nil =>
        obtain rfl : t = [] := h.symm
        rfl
    | cons b rest ih =>
        rw [headerText_eq_map, List.map_cons] at h
        subst h
        have hb : (headerChar b).val < 0x80 := ht _ List.mem_cons_self
        have hbyte := (headerChar_eq_iff hb b).mp rfl
        rw [asciiBytes_cons hb, ← hbyte, ← ih (fun c hc => ht c (List.mem_cons_of_mem _ hc)) rfl]
  · rintro rfl
    exact headerText_asciiBytes ht

theorem headerText_map_lowerByte (bytes : Bytes) :
    headerText (bytes.map lowerByte) = (headerText bytes).map lowerAscii := by
  rw [headerText_eq_map, headerText_eq_map, List.map_map, List.map_map]
  exact List.map_congr_left fun b _ => (lowerAscii_headerChar b).symm

theorem readDecimal_headerText {digits : Bytes} (h : ∀ b ∈ digits, 48 ≤ b ∧ b ≤ 57) :
    readDecimal (headerText digits) = denoted digits := by
  rw [readDecimal, headerText_eq_map, List.foldl_map, denoted]
  generalize 0 = value
  induction digits generalizing value with
  | nil => rfl
  | cons b rest ih =>
      rw [List.foldl_cons, List.foldl_cons, digitValue_headerChar (h b List.mem_cons_self)]
      exact ih (fun d hd => h d (List.mem_cons_of_mem b hd)) _

end HeaderText

section Strip

variable {kind : CodePoint → Bool}

theorem dropTrailing_append {tail : Text} (h : ∀ c ∈ tail, kind c = true) (t : Text) :
    dropTrailing kind (t ++ tail) = dropTrailing kind t := by
  have htail : ∀ c ∈ tail.reverse, kind c = true := by
    intro c hc
    exact h c (List.mem_reverse.mp hc)
  rw [dropTrailing, dropTrailing, List.reverse_append, List.dropWhile_append_of_pos htail]

theorem dropTrailing_concat {c : CodePoint} (h : kind c = false) (t : Text) :
    dropTrailing kind (t ++ [c]) = t ++ [c] := by
  rw [dropTrailing, List.reverse_append, List.reverse_singleton, List.singleton_append,
    List.dropWhile_cons_of_neg (by simp [h]), List.reverse_cons, List.reverse_reverse]

theorem exists_dropTrailing (kind : CodePoint → Bool) (t : Text) :
    ∃ tail, t = dropTrailing kind t ++ tail ∧ ∀ c ∈ tail, kind c = true := by
  refine ⟨(t.reverse.takeWhile kind).reverse, ?_, fun c hc => ?_⟩
  · rw [dropTrailing, ← List.reverse_append, List.takeWhile_append_dropWhile, List.reverse_reverse]
  · exact List.all_eq_true.mp List.all_takeWhile c (List.mem_reverse.mp hc)

theorem dropTrailing_append_cons {c : CodePoint} (hc : kind c = false) (s t : Text) :
    dropTrailing kind (s ++ c :: t) = s ++ c :: dropTrailing kind t := by
  simp only [dropTrailing, List.reverse_append, List.reverse_cons, List.append_assoc,
    List.dropWhile_append, List.singleton_append, List.dropWhile_cons_of_neg (by simpa using hc)]
  split
  · next hempty => simp [List.isEmpty_iff.mp hempty]
  · simp

theorem dropTrailing_eq_self {t : Text} (h : ∀ c ∈ t, kind c = false) :
    dropTrailing kind t = t := by
  rcases List.eq_nil_or_concat t with rfl | ⟨init, c, rfl⟩
  · rfl
  · rw [List.concat_eq_append] at h ⊢
    exact dropTrailing_concat (h c (by simp)) init

theorem dropTrailing_eq_nil_iff {t : Text} :
    dropTrailing kind t = [] ↔ ∀ c ∈ t, kind c = true := by
  rw [dropTrailing, List.reverse_eq_nil_iff, List.dropWhile_eq_nil_iff]
  simp only [List.mem_reverse]

/-- A text without the blanks at its ends, and the blanks that were there. -/
theorem exists_strip (t : Text) :
    ∃ front back, t = front ++ (strip t ++ back) ∧ ∀ c ∈ front ++ back, isHeaderBlank c = true := by
  obtain ⟨back, hback, hblank⟩ := exists_dropTrailing isHeaderBlank (t.dropWhile isHeaderBlank)
  refine ⟨t.takeWhile isHeaderBlank, back, ?_, fun c hc => ?_⟩
  · rw [strip, ← hback, List.takeWhile_append_dropWhile]
  · rcases List.mem_append.mp hc with hc | hc
    · exact List.all_eq_true.mp List.all_takeWhile c hc
    · exact hblank c hc

/-- Blanks around a text without blanks are dropped, and nothing else is. -/
theorem strip_append {front core back : Text} (hblank : ∀ c ∈ front ++ back, isHeaderBlank c = true)
    (hcore : ∀ c ∈ core, isHeaderBlank c = false) : strip (front ++ (core ++ back)) = core := by
  have hfront : ∀ c ∈ front, isHeaderBlank c = true := fun c hc =>
    hblank c (List.mem_append_left back hc)
  have hback : ∀ c ∈ back, isHeaderBlank c = true := fun c hc =>
    hblank c (List.mem_append_right front hc)
  rw [strip, List.dropWhile_append_of_pos hfront]
  cases core with
  | nil =>
      rw [List.nil_append, List.dropWhile_eq_nil_iff.mpr hback]
      rfl
  | cons c rest =>
      have hc : ¬ isHeaderBlank c = true := by simp [hcore c List.mem_cons_self]
      rw [List.cons_append, List.dropWhile_cons_of_neg hc, ← List.cons_append,
        dropTrailing_append hback, dropTrailing_eq_self hcore]

/-- Blanks behind a text do not matter. -/
theorem strip_append_blanks {tail : Text} (htail : ∀ c ∈ tail, isHeaderBlank c = true) (t : Text) :
    strip (t ++ tail) = strip t := by
  rw [strip, strip, List.dropWhile_append]
  split
  · next hempty =>
      rw [List.isEmpty_iff.mp hempty, List.dropWhile_eq_nil_iff.mpr htail]
  · exact dropTrailing_append htail _

end Strip

section Padded

variable {core padded : Bytes}

theorem Padded.strip_eq (h : Padded core padded) (hcore : ∀ b ∈ core, ¬ IsBlankByte b) :
    strip (headerText padded) = headerText core := by
  obtain ⟨front, back, rfl, hblank⟩ := h
  rw [headerText_append, headerText_append]
  refine strip_append (fun c hc => ?_) fun c hc => ?_
  · rw [← headerText_append] at hc
    obtain ⟨b, hb, rfl⟩ := mem_headerText.mp hc
    exact (isHeaderBlank_headerChar b).mpr (hblank b hb)
  · obtain ⟨b, hb, rfl⟩ := mem_headerText.mp hc
    rw [← Bool.not_eq_true, isHeaderBlank_headerChar]
    exact hcore b hb

/-- What is left of bytes without the blanks at their ends. -/
theorem exists_padded (padded : Bytes) :
    ∃ core, Padded core padded ∧ headerText core = strip (headerText padded) := by
  obtain ⟨front, back, hsplit, hblank⟩ := exists_strip (headerText padded)
  obtain ⟨front, behind, rfl, rfl, hbehind⟩ := exists_of_headerText_eq_append hsplit
  obtain ⟨core, back, rfl, hcore, rfl⟩ := exists_of_headerText_eq_append hbehind
  refine ⟨core, ⟨front, back, rfl, fun b hb => ?_⟩, hcore⟩
  rw [← isHeaderBlank_headerChar]
  refine hblank _ ?_
  rw [← headerText_append]
  exact mem_headerText.mpr ⟨b, hb, rfl⟩

end Padded

/-- What a line holds without its end. -/
def lineContent (line : Bytes) : Text :=
  dropTrailing (fun c => c = CodePoint.carriageReturn || c = CodePoint.newline) (headerText line)

section LineContent

variable {line : Bytes}

theorem isLineEnd_headerChar (b : UInt8) :
    (decide (headerChar b = CodePoint.carriageReturn) ||
      decide (headerChar b = CodePoint.newline)) = true ↔ b = 13 ∨ b = 10 := by
  rw [Bool.or_eq_true, decide_eq_true_eq, decide_eq_true_eq, headerChar_eq_iff (by decide),
    headerChar_eq_iff (by decide)]
  rfl

theorem lineContent_eq_nil_iff : lineContent line = [] ↔ IsEmptyLine line := by
  rw [lineContent, dropTrailing_eq_nil_iff, headerText_eq_map, List.forall_mem_map]
  simp only [isLineEnd_headerChar, IsEmptyLine]

/-- The end of a line consists of blanks. -/
theorem exists_lineContent (line : Bytes) :
    ∃ tail, headerText line = lineContent line ++ tail ∧ ∀ c ∈ tail, isHeaderBlank c = true := by
  obtain ⟨tail, htail, hend⟩ := exists_dropTrailing
    (fun c => c = CodePoint.carriageReturn || c = CodePoint.newline) (headerText line)
  refine ⟨tail, htail, fun c hc => ?_⟩
  have hc := hend c hc
  rw [Bool.or_eq_true, decide_eq_true_eq, decide_eq_true_eq] at hc
  rcases hc with rfl | rfl <;> rfl

theorem strip_lineContent (line : Bytes) : strip (lineContent line) = strip (headerText line) := by
  obtain ⟨tail, htail, hblank⟩ := exists_lineContent line
  rw [htail, strip_append_blanks hblank]

theorem colon_mem_headerText_iff : CodePoint.colon ∈ headerText line ↔ 58 ∈ line := by
  rw [mem_headerText]
  constructor
  · rintro ⟨b, hb, hcolon⟩
    obtain rfl : b = 58 := (headerChar_eq_iff (by decide) b).mp hcolon
    exact hb
  · intro h
    exact ⟨58, h, by decide⟩

theorem lineContent_colon (name value : Bytes) :
    lineContent (name ++ 58 :: value) =
      headerText name ++ CodePoint.colon :: lineContent value := by
  have htext : headerText (name ++ 58 :: value) =
      headerText name ++ CodePoint.colon :: headerText value := headerText_append name (58 :: value)
  rw [lineContent, htext, dropTrailing_append_cons (by decide)]
  rfl

end LineContent

section HeaderLine

variable {line : Bytes}

theorem headerLine_eq_blank_iff : headerLine line = .blank ↔ IsEmptyLine line := by
  rw [← lineContent_eq_nil_iff]
  unfold headerLine lineContent
  simp only
  split
  · next h => simp [h]
  · next h =>
      simp only [h, iff_false]
      split
      · simp
      · split <;> simp

/-- A line with a name and a value. -/
theorem headerLine_of_colon {name : Bytes} (hname : 58 ∉ name) (value : Bytes) :
    headerLine (name ++ 58 :: value) =
      if (strip (headerText name)).map lowerAscii = text "content-length" then
        .contentLength (strip (headerText value)) else .other := by
  have hkeep : ∀ c ∈ headerText name, decide (c ≠ CodePoint.colon) = true := by
    intro c hc
    have hne : c ≠ CodePoint.colon := by
      rintro rfl
      exact hname (colon_mem_headerText_iff.mp hc)
    simpa using hne
  have hdrop (t : Text) : (headerText name ++ CodePoint.colon :: t).dropWhile
      (· ≠ CodePoint.colon) = CodePoint.colon :: t := by
    rw [List.dropWhile_append_of_pos hkeep]
    rfl
  have htake (t : Text) : (headerText name ++ CodePoint.colon :: t).takeWhile
      (· ≠ CodePoint.colon) = headerText name := by
    rw [List.takeWhile_append_of_pos hkeep]
    exact List.append_nil _
  have hcontent := lineContent_colon name value
  rw [lineContent] at hcontent
  unfold headerLine
  simp only [hcontent, List.append_eq_nil_iff, reduceCtorEq, and_false, ↓reduceIte, hdrop, htake,
    strip_lineContent]

theorem headerLine_of_not_mem (h : 58 ∉ line) (v : Text) : headerLine line ≠ .contentLength v := by
  obtain ⟨tail, htail, _⟩ := exists_lineContent line
  have hkeep : ∀ c ∈ lineContent line, decide (c ≠ CodePoint.colon) = true := by
    intro c hc
    have hne : c ≠ CodePoint.colon := by
      rintro rfl
      refine h (colon_mem_headerText_iff.mp ?_)
      rw [htail]
      exact List.mem_append_left tail hc
    simpa using hne
  rw [lineContent] at hkeep
  unfold headerLine
  simp only [List.dropWhile_eq_nil_iff.mpr hkeep]
  split <;> simp

/-- Letters and dashes are no blanks, in either case. -/
theorem not_isBlankByte_of_map_lowerByte {core : Bytes} {b : UInt8}
    (hcore : core.map lowerByte = asciiBytes "content-length") (hb : b ∈ core) :
    ¬ IsBlankByte b := by
  intro hblank
  have hsame : lowerByte b = b := by
    simp only [IsBlankByte, UInt8.le_iff_toNat_le, UInt8.reduceToNat] at hblank
    rw [← UInt8.toNat_inj, toNat_lowerByte, if_neg (by omega)]
  have hname : (asciiBytes "content-length").all (fun d => !decide (IsBlankByte d)) = true := by
    decide
  have hmem : b ∈ asciiBytes "content-length" := by
    rw [← hcore, ← hsame]
    exact List.mem_map_of_mem hb
  simpa [hblank] using List.all_eq_true.mp hname b hmem

/-- The name in front of a colon that gives the length of a body. -/
theorem isLengthName_iff {name : Bytes} :
    (strip (headerText name)).map lowerAscii = text "content-length" ↔
      ∃ core, Padded core name ∧ core.map lowerByte = asciiBytes "content-length" := by
  have hascii : IsAscii "content-length" := by decide
  constructor
  · intro h
    obtain ⟨core, hpadded, hcore⟩ := exists_padded name
    rw [← hcore, ← headerText_map_lowerByte, headerText_eq_iff hascii] at h
    exact ⟨core, hpadded, h⟩
  · rintro ⟨core, hpadded, hcore⟩
    have hblank : ∀ b ∈ core, ¬ IsBlankByte b := fun _ => not_isBlankByte_of_map_lowerByte hcore
    rw [hpadded.strip_eq hblank, ← headerText_map_lowerByte, headerText_eq_iff hascii, hcore]

/-- Which lines give a length, and the value they give. -/
theorem headerLine_eq_contentLength_iff {v : Text} :
    headerLine line = .contentLength v ↔
      ∃ value, NamesLength line value ∧ v = strip (headerText value) := by
  constructor
  · intro h
    by_cases hcolon : (58 : UInt8) ∈ line
    · obtain ⟨name, value, rfl, hname⟩ := List.eq_append_cons_of_mem hcolon
      rw [headerLine_of_colon hname] at h
      split at h
      · next hlength =>
          obtain ⟨core, hpadded, hcore⟩ := isLengthName_iff.mp hlength
          cases h
          exact ⟨value, ⟨name, core, rfl, hname, hpadded, hcore⟩, rfl⟩
      · cases h
    · exact absurd h (headerLine_of_not_mem hcolon v)
  · rintro ⟨value, ⟨name, core, rfl, hname, hpadded, hcore⟩, rfl⟩
    rw [headerLine_of_colon hname, if_pos (isLengthName_iff.mpr ⟨core, hpadded, hcore⟩)]

end HeaderLine

section DenotesLength

/-- The sign in front of the rest of a value, if there is one. -/
def IsSign (sign rest : Text) : Prop :=
  (sign = [] ∧ ¬ rest.head? = some '+' ∧ ¬ rest.head? = some '-') ∨ sign = "+" ∨ sign = "-"

theorem exists_isSign (t : Text) : ∃ sign rest, t = sign ++ rest ∧ IsSign sign rest := by
  by_cases hplus : t.head? = some '+'
  · obtain ⟨rest, rfl⟩ := List.head?_eq_some_iff.mp hplus
    exact ⟨"+", rest, rfl, Or.inr (Or.inl rfl)⟩
  · by_cases hminus : t.head? = some '-'
    · obtain ⟨rest, rfl⟩ := List.head?_eq_some_iff.mp hminus
      exact ⟨"-", rest, rfl, Or.inr (Or.inr rfl)⟩
    · exact ⟨[], t, rfl, Or.inl ⟨rfl, hplus, hminus⟩⟩

/-- A digit is no sign. -/
theorem isSign_of_digits {sign digits : Text} (hsign : sign = [] ∨ sign = "+" ∨ sign = "-")
    (hdigits : ∀ c ∈ digits, c.isAsciiDigit = true) : IsSign sign digits := by
  have hfirst {c : CodePoint} (hc : c.isAsciiDigit = false) : ¬ digits.head? = some c := by
    intro hhead
    rw [hdigits c (List.mem_of_head? hhead)] at hc
    cases hc
  exact hsign.imp_left fun hnil => ⟨hnil, hfirst (by decide), hfirst (by decide)⟩

/-- A value is read as its sign and what stands behind it. -/
theorem contentLength_append {sign rest : Text} (hsign : IsSign sign rest) :
    contentLength (sign ++ rest) =
      if rest = [] ∨ !rest.all (·.isAsciiDigit) then
        .error (.framing (.invalidLength (sign ++ rest)))
      else match readDecimalWithin rest with
        | .error e => .error (.tooManyDigits e)
        | .ok n =>
            if sign = "-" ∧ n ≠ 0 then .error (.framing (.invalidLength (sign ++ rest)))
            else .ok n := by
  rcases hsign with ⟨rfl, hplus, hminus⟩ | rfl | rfl
  · have hno : ¬ ([] : Text) = "-" := by decide
    unfold contentLength
    cases hread : readDecimalWithin rest <;> simp only [List.nil_append, hplus, hminus, hno,
      decide_false, Bool.or_false, Bool.false_eq_true, ↓reduceIte, false_and, hread]
  · rfl
  · have hhead : (text "-" ++ rest).head? = some '-' := rfl
    have htail : (text "-" ++ rest).tail = rest := rfl
    unfold contentLength
    cases hread : readDecimalWithin rest <;> simp only [hhead, htail, decide_true, Bool.or_true,
      ↓reduceIte, true_and, hread]

/-- Which texts are read as a length. -/
theorem contentLength_eq_ok_iff {t : Text} {n : Nat} :
    contentLength t = .ok n ↔ ∃ sign digits : Text, t = sign ++ digits ∧
      (sign = [] ∨ sign = "+" ∨ sign = "-") ∧ (∀ c ∈ digits, c.isAsciiDigit = true) ∧
      digits ≠ [] ∧ digits.length ≤ digitLimit ∧
      n = readDecimal digits ∧ (sign = "-" → n = 0) := by
  constructor
  · intro h
    obtain ⟨sign, digits, rfl, hsign⟩ := exists_isSign t
    rw [contentLength_append hsign] at h
    split at h
    · cases h
    · next hdigits =>
        simp only [not_or, Bool.not_eq_true, Bool.not_eq_false', List.all_eq_true] at hdigits
        split at h
        · cases h
        · next m hread =>
            split at h
            · cases h
            · next hzero =>
                cases h
                rw [readDecimalWithin] at hread
                split at hread
                · next hshort =>
                    cases hread
                    refine ⟨sign, digits, rfl, hsign.imp_left And.left, hdigits.2, hdigits.1,
                      hshort, rfl, fun hminus => ?_⟩
                    simpa [hminus] using hzero
                · cases hread
  · rintro ⟨sign, digits, rfl, hsign, hdigits, hne, hshort, rfl, hzero⟩
    have hnumeral : ¬ (digits = [] ∨ (!digits.all (·.isAsciiDigit)) = true) := by
      simpa [hne] using hdigits
    have hread : readDecimalWithin digits = .ok (readDecimal digits) := if_pos hshort
    rw [contentLength_append (isSign_of_digits hsign hdigits), if_neg hnumeral, hread]
    exact if_neg fun h => h.2 (hzero h.1)

/-- Which texts have too many digits for a length. -/
theorem contentLength_eq_tooManyDigits_iff {t : Text} {e : TooManyDigits} :
    contentLength t = .error (.tooManyDigits e) ↔ ∃ sign digits : Text, t = sign ++ digits ∧
      (sign = [] ∨ sign = "+" ∨ sign = "-") ∧ (∀ c ∈ digits, c.isAsciiDigit = true) ∧
      digitLimit < digits.length ∧ e = ⟨digits.length⟩ := by
  constructor
  · intro h
    obtain ⟨sign, digits, rfl, hsign⟩ := exists_isSign t
    rw [contentLength_append hsign] at h
    split at h
    · cases h
    · next hdigits =>
        simp only [not_or, Bool.not_eq_true, Bool.not_eq_false', List.all_eq_true] at hdigits
        split at h
        · next hread =>
            cases h
            rw [readDecimalWithin] at hread
            split at hread
            · cases hread
            · next hlong =>
                cases hread
                exact ⟨sign, digits, rfl, hsign.imp_left And.left, hdigits.2,
                  Nat.lt_of_not_le hlong, rfl⟩
        · split at h <;> cases h
  · rintro ⟨sign, digits, rfl, hsign, hdigits, hlong, rfl⟩
    have hne : digits ≠ [] := List.length_pos_iff.mp (Nat.lt_of_le_of_lt (Nat.zero_le _) hlong)
    have hnumeral : ¬ (digits = [] ∨ (!digits.all (·.isAsciiDigit)) = true) := by
      simpa [hne] using hdigits
    have hread : readDecimalWithin digits = .error ⟨digits.length⟩ :=
      if_neg (Nat.not_le.mpr hlong)
    rw [contentLength_append (isSign_of_digits hsign hdigits), if_neg hnumeral, hread]

/-- A text that is not read as a length has too many digits, or it is reported as it is. -/
theorem contentLength_error_cases {t : Text} {e : ReadError} (h : contentLength t = .error e) :
    e = .framing (.invalidLength t) ∨ ∃ digits, e = .tooManyDigits digits := by
  obtain ⟨sign, digits, rfl, hsign⟩ := exists_isSign t
  rw [contentLength_append hsign] at h
  split at h
  · cases h
    exact Or.inl rfl
  · split at h
    · cases h
      exact Or.inr ⟨_, rfl⟩
    · split at h
      · cases h
        exact Or.inl rfl
      · cases h

theorem sign_headerText_iff {sign : Bytes} :
    (headerText sign = [] ∨ headerText sign = text "+" ∨ headerText sign = text "-") ↔
      sign = [] ∨ sign = [43] ∨ sign = [45] := by
  rw [headerText_eq_iff (by decide), headerText_eq_iff (by decide), headerText_eq_iff (by decide)]
  rfl

theorem digits_headerText_iff {digits : Bytes} :
    (∀ c ∈ headerText digits, c.isAsciiDigit = true) ↔ ∀ b ∈ digits, 48 ≤ b ∧ b ≤ 57 := by
  rw [headerText_eq_map, List.forall_mem_map]
  simp only [isAsciiDigit_headerChar]

/-- Signs and digits are no blanks. -/
theorem not_isBlankByte_of_numeral {sign digits : Bytes}
    (hsign : sign = [] ∨ sign = [43] ∨ sign = [45]) (hdigits : ∀ b ∈ digits, 48 ≤ b ∧ b ≤ 57)
    {b : UInt8} (hb : b ∈ sign ++ digits) : ¬ IsBlankByte b := by
  rcases List.mem_append.mp hb with hb | hb
  · rcases hsign with rfl | rfl | rfl
    · cases hb
    · rw [List.mem_singleton.mp hb]
      decide
    · rw [List.mem_singleton.mp hb]
      decide
  · have hdigit := hdigits b hb
    simp only [IsBlankByte, UInt8.le_iff_toNat_le, UInt8.reduceToNat] at hdigit ⊢
    omega

/-- A stripped value is a numeral exactly if the bytes of one stand between the blanks. -/
theorem exists_numeral_strip_iff {value : Bytes} {p : Text → Text → Prop} :
    (∃ sign digits : Text, strip (headerText value) = sign ++ digits ∧
      (sign = [] ∨ sign = "+" ∨ sign = "-") ∧ (∀ c ∈ digits, c.isAsciiDigit = true) ∧
      p sign digits) ↔
    ∃ sign digits : Bytes, Padded (sign ++ digits) value ∧
      (sign = [] ∨ sign = [43] ∨ sign = [45]) ∧ (∀ b ∈ digits, 48 ≤ b ∧ b ≤ 57) ∧
      p (headerText sign) (headerText digits) := by
  constructor
  · rintro ⟨_, _, hsplit, hsign, hdigits, hp⟩
    obtain ⟨core, hpadded, hcore⟩ := exists_padded value
    rw [← hcore] at hsplit
    obtain ⟨sign, digits, rfl, rfl, rfl⟩ := exists_of_headerText_eq_append hsplit
    exact ⟨sign, digits, hpadded, sign_headerText_iff.mp hsign, digits_headerText_iff.mp hdigits,
      hp⟩
  · rintro ⟨sign, digits, hpadded, hsign, hdigits, hp⟩
    refine ⟨headerText sign, headerText digits, ?_, sign_headerText_iff.mpr hsign,
      digits_headerText_iff.mpr hdigits, hp⟩
    rw [hpadded.strip_eq fun b => not_isBlankByte_of_numeral hsign hdigits, headerText_append]

theorem length_headerText (bytes : Bytes) : (headerText bytes).length = bytes.length :=
  List.length_map ..

/-- Which values denote a length, and the length. -/
theorem contentLength_strip_eq_ok_iff {value : Bytes} {n : Nat} :
    contentLength (strip (headerText value)) = .ok n ↔ DenotesLength value n := by
  have hminus (sign : Bytes) : headerText sign = "-" ↔ sign = [45] :=
    headerText_eq_iff (by decide) sign
  rw [contentLength_eq_ok_iff, exists_numeral_strip_iff]
  refine exists_congr fun sign => exists_congr fun digits => and_congr_right fun _ =>
    and_congr_right fun _ => ?_
  rw [length_headerText, hminus]
  constructor
  · rintro ⟨hdigits, hne, hshort, hn, hzero⟩
    exact ⟨by simpa [headerText] using hne, hdigits, hshort,
      hn.trans (readDecimal_headerText hdigits), hzero⟩
  · rintro ⟨hne, hdigits, hshort, hn, hzero⟩
    exact ⟨hdigits, by simpa [headerText] using hne, hshort,
      hn.trans (readDecimal_headerText hdigits).symm, hzero⟩

/-- Which values have too many digits, and how many. -/
theorem contentLength_strip_eq_tooManyDigits_iff {value : Bytes} {e : TooManyDigits} :
    contentLength (strip (headerText value)) = .error (.tooManyDigits e) ↔
      ∃ sign digits, Padded (sign ++ digits) value ∧ (sign = [] ∨ sign = [43] ∨ sign = [45]) ∧
        (∀ b ∈ digits, 48 ≤ b ∧ b ≤ 57) ∧ digitLimit < digits.length ∧ e = ⟨digits.length⟩ := by
  rw [contentLength_eq_tooManyDigits_iff, exists_numeral_strip_iff]
  simp only [length_headerText]

end DenotesLength

end VibeScript
