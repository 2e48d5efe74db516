/-!
Text as a list of Unicode code points.

A text here may hold surrogate code points on their own, because a message can
spell them with escapes and a path can have them in the stead of bytes; they
count as characters like any other until the text has to be written as bytes.
That is why a character is a `CodePoint` and not a `Char`.
-/

namespace VibeScript

/-- A Unicode code point, surrogates included. -/
structure CodePoint where
  val : Nat
  val_lt : val < 0x110000
deriving DecidableEq

theorem CodePoint.ext_val {a b : CodePoint} (h : a.val = b.val) : a = b := by
  cases a
  cases b
  simp_all

/-- The code point of a character. -/
def CodePoint.ofChar (c : Char) : CodePoint :=
  ⟨c.val.toNat, by
    rcases c.valid with h | h
    · exact Nat.lt_trans h (by decide)
    · exact h.2⟩

instance : Coe Char CodePoint := ⟨CodePoint.ofChar⟩

/-- The code point with the given number; a number that is too large gives the
replacement character. -/
def CodePoint.ofNat (n : Nat) : CodePoint :=
  if h : n < 0x110000 then ⟨n, h⟩ else ⟨0xFFFD, by decide⟩

theorem CodePoint.val_ofNat {n : Nat} (h : n < 0x110000) : (CodePoint.ofNat n).val = n := by
  simp [CodePoint.ofNat, h]

instance : Inhabited CodePoint := ⟨CodePoint.ofNat 0xFFFD⟩

namespace CodePoint

/-- The line feed, which ends a line. -/
def newline : CodePoint := ⟨10, by decide⟩

def tab : CodePoint := ⟨9, by decide⟩

def carriageReturn : CodePoint := ⟨13, by decide⟩

def space : CodePoint := ⟨32, by decide⟩

def quote : CodePoint := ⟨34, by decide⟩

def apostrophe : CodePoint := ⟨39, by decide⟩

def slash : CodePoint := ⟨47, by decide⟩

def backslash : CodePoint := ⟨92, by decide⟩

def colon : CodePoint := ⟨58, by decide⟩

def equalsSign : CodePoint := ⟨61, by decide⟩

def comma : CodePoint := ⟨44, by decide⟩

def openBrace : CodePoint := ⟨123, by decide⟩

def closeBrace : CodePoint := ⟨125, by decide⟩

def openBracket : CodePoint := ⟨91, by decide⟩

def closeBracket : CodePoint := ⟨93, by decide⟩

/-- The replacement character U+FFFD. -/
def replacement : CodePoint := ⟨0xFFFD, by decide⟩

/-- One of the code points that stand for half of a UTF-16 pair. -/
def isSurrogate (c : CodePoint) : Bool := 0xD800 ≤ c.val && c.val ≤ 0xDFFF

def isHighSurrogate (c : CodePoint) : Bool := 0xD800 ≤ c.val && c.val ≤ 0xDBFF

def isLowSurrogate (c : CodePoint) : Bool := 0xDC00 ≤ c.val && c.val ≤ 0xDFFF

/-- One of the ten digits of ASCII. -/
def isAsciiDigit (c : CodePoint) : Bool := 48 ≤ c.val && c.val ≤ 57

/-- The value of an ASCII digit. -/
def digitValue (c : CodePoint) : Nat := c.val - 48

end CodePoint

/-- A text, its first character first. -/
abbrev Text := List CodePoint

instance : LawfulBEq Text := inferInstance

/-- The text that a string literal stands for. -/
def text (s : String) : Text := s.toList.map CodePoint.ofChar

instance : Coe String Text := ⟨text⟩

namespace Text

/-- Split a text at every occurrence of a character.  The separators are dropped, and there
is always at least one part. -/
def split (separator : CodePoint) (t : Text) : List Text :=
  t.foldr (fun c rest =>
    if c = separator then [] :: rest
    else match rest with
      | [] => [[c]]
      | part :: more => (c :: part) :: more) [[]]

@[simp] theorem split_nil (separator : CodePoint) : split separator [] = [[]] := rfl

theorem split_ne_nil (separator : CodePoint) (t : Text) : split separator t ≠ [] := by
  cases t with
  | nil => simp
  | cons c rest =>
      simp only [split, List.foldr_cons]
      split
      · simp
      · split <;> simp

/-- A separator opens a new part in front of the others. -/
theorem split_separator_cons (separator : CodePoint) (t : Text) :
    split separator (separator :: t) = [] :: split separator t := by
  simp [split]

/-- Any other character joins the first part. -/
theorem split_cons {separator c : CodePoint} (hc : c ≠ separator) (t : Text) :
    ∃ part more, split separator t = part :: more ∧
      split separator (c :: t) = (c :: part) :: more := by
  cases hparts : split separator t with
  | nil => exact absurd hparts (split_ne_nil separator t)
  | cons part more =>
      refine ⟨part, more, rfl, ?_⟩
      simp only [split, List.foldr_cons, hc, ↓reduceIte] at hparts ⊢
      rw [hparts]

/-- No part holds a separator. -/
theorem not_mem_of_mem_split {separator : CodePoint} {t part : Text}
    (h : part ∈ split separator t) : separator ∉ part := by
  induction t generalizing part with
  | nil =>
      rw [split_nil, List.mem_singleton] at h
      simp [h]
  | cons c rest ih =>
      by_cases hc : c = separator
      · subst hc
        rw [split_separator_cons, List.mem_cons] at h
        rcases h with rfl | h
        · exact List.not_mem_nil
        · exact ih h
      · obtain ⟨first, more, hrest, hparts⟩ := split_cons hc rest
        rw [hparts, List.mem_cons] at h
        rcases h with rfl | h
        · rw [List.mem_cons, not_or]
          exact ⟨Ne.symm hc, ih (hrest ▸ List.mem_cons_self ..)⟩
        · exact ih (hrest ▸ List.mem_cons_of_mem _ h)

/-- The lines of a text: what stands between its line feeds. -/
def lines (t : Text) : List Text := split CodePoint.newline t

@[simp] theorem lines_nil : lines [] = [[]] := rfl

theorem lines_newline_cons (t : Text) : lines (CodePoint.newline :: t) = [] :: lines t :=
  split_separator_cons _ t

theorem lines_cons {c : CodePoint} (hc : c ≠ CodePoint.newline) (t : Text) :
    ∃ line more, lines t = line :: more ∧ lines (c :: t) = (c :: line) :: more :=
  split_cons hc t

/-- A text whose lines all end with a line feed: a carriage return becomes one, and so does a
carriage return with the line feed behind it. -/
def withLineFeeds : Text → Text
  | [] => []
  | c :: rest =>
      if c = CodePoint.carriageReturn then
        if rest.head? = some CodePoint.newline then withLineFeeds rest
        else CodePoint.newline :: withLineFeeds rest
      else c :: withLineFeeds rest

/-- Join texts, with the given separator between each two of them. -/
def join (separator : Text) : List Text → Text
  | [] => []
  | [t] => t
  | t :: rest => t ++ separator ++ join separator rest

theorem join_cons_cons (separator t next : Text) (rest : List Text) :
    join separator (t :: next :: rest) = t ++ separator ++ join separator (next :: rest) := rfl

/-- Compare two texts by their code points, a shorter text before its own
extensions. -/
def le : Text → Text → Bool
  | [], _ => true
  | _ :: _, [] => false
  | a :: s, b :: t => a.val < b.val || (a.val == b.val && le s t)

end Text

end VibeScript
