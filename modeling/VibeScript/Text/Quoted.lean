import VibeScript.Text.Numeral
import VibeScript.Text.Printable

/-!
Quoted text, as messages show it.

A text stands between apostrophes, or between quotation marks if it holds an
apostrophe and no quotation mark.  The enclosing mark and the backslash are
written after a backslash, and every character that cannot be printed is
written as an escape, so the quoted form stays on one line.
-/

namespace VibeScript

/-- The mark that encloses a text. -/
def enclosingMark (t : Text) : CodePoint :=
  if t.contains CodePoint.apostrophe && !t.contains CodePoint.quote then CodePoint.quote
  else CodePoint.apostrophe

/-- A character inside quoted text. -/
def quotedChar (mark c : CodePoint) : Text :=
  if c = mark ∨ c = CodePoint.backslash then [CodePoint.backslash, c]
  else if c = CodePoint.tab then [CodePoint.backslash, 't']
  else if c = CodePoint.newline then [CodePoint.backslash, 'n']
  else if c = CodePoint.carriageReturn then [CodePoint.backslash, 'r']
  else if c.isPrintable then [c]
  else if c.val < 0x100 then CodePoint.backslash :: 'x' :: hexadecimal 2 c.val
  else if c.val < 0x10000 then CodePoint.backslash :: 'u' :: hexadecimal 4 c.val
  else CodePoint.backslash :: 'U' :: hexadecimal 8 c.val

/-- The quoted form of a text. -/
def Text.quoted (t : Text) : Text :=
  let mark := enclosingMark t
  mark :: t.flatMap (quotedChar mark) ++ [mark]

end VibeScript
