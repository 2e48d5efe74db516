import VibeScript.Proofs.Diagnostic.Reports

/-!
The diagnostics of a source, error by error.

The text of a failed compile is searched line by line, so nothing that is found there
belongs to two errors or to two lines.  For each error its own first line is found as a
whole, and then what its code frame holds when it is searched alone
(`diagnose_ok_iff_concat`).
-/

namespace VibeScript

/-- The errors with a place that are found in the code frame of an error, searched alone. -/
def SyntaxError.quoted (e : SyntaxError) (content : Text) : List PositionedError :=
  match findErrors defaultTemplate (e.frame content) with
  | .ok (.placed errors) => errors
  | _ => []

end VibeScript
