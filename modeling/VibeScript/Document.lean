import VibeScript.Text.Basic

/-!
The documents that an editor has open.

Every change replaces the whole text of a document.  The documents keep the order in
which they were first opened.
-/

namespace VibeScript

/-- The version of a document, as its editor gave it: a number, or a truth value,
which counts as a number too. -/
inductive Version where
  | number (n : Int)
  | flag (b : Bool)
deriving DecidableEq

structure Document where
  uri : Text
  version : Option Version
  content : Text
deriving DecidableEq

/-- A line of a document, empty if there is no such line. -/
def Document.line (document : Document) (n : Int) : Text :=
  if n < 0 then [] else (document.content.lines[n.toNat]?).getD []

/-- The open documents, in the order in which they were opened. -/
abbrev Documents := List Document

namespace Documents

/-- The open document with the given name. -/
def get? (documents : Documents) (uri : Text) : Option Document :=
  documents.find? (·.uri = uri)

/-- Put a document in the place of the one with its name, or behind all others. -/
def insert (documents : Documents) (document : Document) : Documents :=
  match documents with
  | [] => [document]
  | first :: rest =>
      if first.uri = document.uri then document :: rest else first :: insert rest document

/-- Replace the text of a document, which is opened if it was not.  Without a new
version the document keeps the one it has. -/
def update (documents : Documents) (uri content : Text) (version : Option Version) :
    Documents :=
  documents.insert ⟨uri, version.or ((documents.get? uri).bind (·.version)), content⟩

/-- Forget a document. -/
def erase (documents : Documents) (uri : Text) : Documents :=
  documents.filter (·.uri ≠ uri)

/-- A document that was put in is found under its name. -/
theorem get?_insert_self (documents : Documents) (document : Document) :
    (documents.insert document).get? document.uri = some document := by
  induction documents with
  | nil => simp [insert, get?]
  | cons first rest ih =>
      by_cases h : first.uri = document.uri
      · simp [insert, get?, h]
      · simpa [insert, get?, h] using ih

/-- Putting a document in leaves those of other names alone. -/
theorem get?_insert_of_ne (documents : Documents) {document : Document} {uri : Text}
    (huri : uri ≠ document.uri) :
    (documents.insert document).get? uri = documents.get? uri := by
  induction documents with
  | nil => simp [insert, get?, Ne.symm huri]
  | cons first rest ih =>
      by_cases h : first.uri = document.uri
      · simp [insert, get?, h, Ne.symm huri]
      · simp only [insert, h, ↓reduceIte, get?, List.find?_cons] at ih ⊢
        rw [ih]

/-- A document that was forgotten is not found. -/
theorem get?_erase_self (documents : Documents) (uri : Text) :
    (documents.erase uri).get? uri = none := by
  simp [erase, get?]

/-- Forgetting a document leaves those of other names alone. -/
theorem get?_erase_of_ne (documents : Documents) {uri other : Text} (h : other ≠ uri) :
    (documents.erase uri).get? other = documents.get? other := by
  induction documents with
  | nil => rfl
  | cons first rest ih =>
      by_cases hfirst : first.uri = uri
      · have hother : first.uri ≠ other := fun heq => h (heq.symm.trans hfirst)
        simpa [erase, get?, hfirst, Ne.symm h] using ih
      · by_cases hother : first.uri = other
        · simp [erase, get?, h, hother]
        · simpa [erase, get?, hfirst, hother] using ih

end Documents

end VibeScript
