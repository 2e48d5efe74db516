import VibeScript.Proofs.Json.Tree
import VibeScript.Proofs.Number.Literal
import VibeScript.Text.Utf8

/-!
Standard JSON: which texts spell which values.

The grammar knows nothing of a reader.  Blanks may stand around every value and around the
colon of a member, a character of a string may be spelled in several ways, and a pair of
escapes spells a character beyond the first 65536; an escape of half a pair spells none.
-/

namespace VibeScript

/-- The blanks of JSON. -/
def IsBlank (t : Text) : Prop :=
  ∀ c ∈ t, c ∈ [CodePoint.space, CodePoint.tab, CodePoint.newline, CodePoint.carriageReturn]

/-- A hexadecimal digit of either case. -/
def HexDigit (c : CodePoint) (d : Nat) : Prop :=
  (text "0123456789abcdef")[d]? = some c ∨ (text "0123456789ABCDEF")[d]? = some c

/-- Four hexadecimal digits, behind a backslash and a `u`. -/
inductive SpellsUnit : Nat → Text → Prop
  | intro {a b c d : CodePoint} {i j k l : Nat} (ha : HexDigit a i) (hb : HexDigit b j)
      (hc : HexDigit c k) (hd : HexDigit d l) :
      SpellsUnit (((i * 16 + j) * 16 + k) * 16 + l)
        [CodePoint.backslash, CodePoint.ofChar 'u', a, b, c, d]

/-- The characters with an escape of one letter. -/
def shortEscapes : List (CodePoint × CodePoint) :=
  [(CodePoint.quote, CodePoint.quote), (CodePoint.backslash, CodePoint.backslash),
    (CodePoint.ofChar '/', CodePoint.ofChar '/'), (CodePoint.ofChar 'b', CodePoint.ofNat 8),
    (CodePoint.ofChar 'f', CodePoint.ofNat 12), (CodePoint.ofChar 'n', CodePoint.newline),
    (CodePoint.ofChar 'r', CodePoint.carriageReturn), (CodePoint.ofChar 't', CodePoint.tab)]

/-- What a character of a string is spelled as. -/
inductive SpellsChar : CodePoint → Text → Prop
  | plain {c : CodePoint} (hcontrol : 0x20 ≤ c.val) (hquote : c ≠ CodePoint.quote)
      (hbackslash : c ≠ CodePoint.backslash) : SpellsChar c [c]
  | short {letter c : CodePoint} (h : (letter, c) ∈ shortEscapes) :
      SpellsChar c [CodePoint.backslash, letter]
  | unit {n : Nat} {t : Text} (h : SpellsUnit n t)
      (hwhole : (CodePoint.ofNat n).isSurrogate = false) : SpellsChar (CodePoint.ofNat n) t
  | pair {high low : Nat} {t u : Text} (ht : SpellsUnit high t) (hu : SpellsUnit low u)
      (hhigh : 0xD800 ≤ high ∧ high ≤ 0xDBFF) (hlow : 0xDC00 ≤ low ∧ low ≤ 0xDFFF) :
      SpellsChar (CodePoint.ofNat (0x10000 + (high - 0xD800) * 0x400 + (low - 0xDC00))) (t ++ u)

/-- What stands between the quotation marks of a string. -/
inductive SpellsChars : Text → Text → Prop
  | nil : SpellsChars [] []
  | cons {c : CodePoint} {s t u : Text} (hc : SpellsChar c t) (hs : SpellsChars s u) :
      SpellsChars (c :: s) (t ++ u)

/-- A text spells a string. -/
inductive SpellsString : Text → Text → Prop
  | intro {s t : Text} (h : SpellsChars s t) :
      SpellsString s (CodePoint.quote :: (t ++ [CodePoint.quote]))

mutual

/-- A text spells a value. -/
inductive Spells : JsonTree NumberLiteral → Text → Prop
  | nullName : Spells .null "null"
  | trueName : Spells (.bool true) "true"
  | falseName : Spells (.bool false) "false"
  | number (n : NumberLiteral) : Spells (.number n) n.text
  | str {s t : Text} (h : SpellsString s t) : Spells (.str s) t
  | emptyArray {t : Text} (h : IsBlank t) :
      Spells (.arr []) (CodePoint.openBracket :: (t ++ [CodePoint.closeBracket]))
  | arr {elements : List (JsonTree NumberLiteral)} {t : Text} (h : SpellsElements elements t) :
      Spells (.arr elements) (CodePoint.openBracket :: (t ++ [CodePoint.closeBracket]))
  | emptyObject {t : Text} (h : IsBlank t) :
      Spells (.obj []) (CodePoint.openBrace :: (t ++ [CodePoint.closeBrace]))
  | obj {members : List (Text × JsonTree NumberLiteral)} {t : Text}
      (h : SpellsMembers members t) :
      Spells (.obj members) (CodePoint.openBrace :: (t ++ [CodePoint.closeBrace]))

/-- Values with commas between them. -/
inductive SpellsElements : List (JsonTree NumberLiteral) → Text → Prop
  | last {x : JsonTree NumberLiteral} {before t after : Text} (hbefore : IsBlank before)
      (h : Spells x t) (hafter : IsBlank after) :
      SpellsElements [x] (before ++ (t ++ after))
  | more {x : JsonTree NumberLiteral} {rest : List (JsonTree NumberLiteral)}
      {before t after u : Text} (hbefore : IsBlank before) (h : Spells x t)
      (hafter : IsBlank after) (hrest : SpellsElements rest u) :
      SpellsElements (x :: rest) (before ++ (t ++ (after ++ CodePoint.comma :: u)))

/-- Members with commas between them: a key, a colon and a value each. -/
inductive SpellsMembers : List (Text × JsonTree NumberLiteral) → Text → Prop
  | last {key : Text} {x : JsonTree NumberLiteral} {before k behind ahead t after : Text}
      (hbefore : IsBlank before) (hkey : SpellsString key k) (hbehind : IsBlank behind)
      (hahead : IsBlank ahead) (h : Spells x t) (hafter : IsBlank after) :
      SpellsMembers [(key, x)]
        (before ++ (k ++ (behind ++ CodePoint.colon :: (ahead ++ (t ++ after)))))
  | more {key : Text} {x : JsonTree NumberLiteral}
      {rest : List (Text × JsonTree NumberLiteral)} {before k behind ahead t after u : Text}
      (hbefore : IsBlank before) (hkey : SpellsString key k) (hbehind : IsBlank behind)
      (hahead : IsBlank ahead) (h : Spells x t) (hafter : IsBlank after)
      (hrest : SpellsMembers rest u) :
      SpellsMembers ((key, x) :: rest)
        (before ++ (k ++ (behind ++ CodePoint.colon ::
          (ahead ++ (t ++ (after ++ CodePoint.comma :: u))))))

end

/-- A text is standard JSON: it spells a value, with blanks around it. -/
def SpellsText (tree : JsonTree NumberLiteral) (t : Text) : Prop :=
  ∃ before inner after, IsBlank before ∧ Spells tree inner ∧ IsBlank after ∧
    t = before ++ (inner ++ after)

/-- A payload is standard JSON: it is the UTF-8 form of such a text. -/
def SpellsPayload (tree : JsonTree NumberLiteral) (payload : Bytes) : Prop :=
  ∃ t, decodeUtf8 payload = .ok t ∧ SpellsText tree t

/-- The number literals of a value denote its numbers, and of the members with one key the last
one counts. -/
def JsonTree.value (tree : JsonTree NumberLiteral) : JsonTree ℚ :=
  tree.merged.map NumberLiteral.value

end VibeScript
