import VibeScript.Files
import VibeScript.Proofs.Text.Utf8

/-!
Which paths the system is asked for.

A path that cannot be encoded or holds a null character fails before anything is looked up, and
every other path gets an answer (`FileTree.read_unanswered_iff`).
-/

namespace VibeScript

/-- The failures that the system answers with. -/
def FileError.Answered (error : FileError) : Prop :=
  error ≠ .nullInPath ∧ ∀ e, error ≠ .unencodable e

theorem FileError.answered_iff {error : FileError} :
    error.Answered ↔ error.answer?.isSome = true := by
  cases error <;> simp [Answered, answer?]

namespace FileTree

variable {tree : FileTree} {path : Text} {error : FileError}

theorem answered_of_follow {place : Place} {names : List Bytes}
    (h : tree.follow place names = .error error) : error.Answered := by
  rw [FileError.answered_iff]
  induction names generalizing place with
  | nil => cases h
  | cons name rest ih =>
      rw [follow] at h
      split at h
      · cases h
        rfl
      · cases h
        rfl
      · split at h
        · cases h
          rfl
        · exact ih h

theorem route_unanswered_iff : (∃ error, route path = .error error ∧ ¬ error.Answered) ↔
    CodePoint.ofNat 0 ∈ path ∨ ¬ SurrogateRule.strayBytes.Writes path := by
  rw [← SurrogateRule.exists_encode_iff, route]
  cases SurrogateRule.strayBytes.encode path with
  | error e => simp [FileError.Answered]
  | ok bytes =>
      by_cases hnull : CodePoint.ofNat 0 ∈ path
      · simp [FileError.Answered, hnull]
      · simp only [hnull, ↓reduceIte, FileError.answered_iff]
        split
        · simp [FileError.answer?]
        · split <;> simp [FileError.answer?]

/-- Behind the route every failure is an answer of the system. -/
theorem answered_of_read {start : Place} {names : List Bytes}
    (hroute : route path = .ok (start, names)) (h : tree.read path = .error error) :
    error.Answered := by
  simp only [read, hroute, bind, Except.bind] at h
  split at h
  · next hfollow =>
      cases h
      exact answered_of_follow hfollow
  · rw [FileError.answered_iff]
    split at h <;> cases h <;> rfl

/-- A file is refused without asking the system exactly if its path cannot be encoded or holds a
null character. -/
theorem read_unanswered_iff (tree : FileTree) (path : Text) :
    (∃ error, tree.read path = .error error ∧ ¬ error.Answered) ↔
      CodePoint.ofNat 0 ∈ path ∨ ¬ SurrogateRule.strayBytes.Writes path := by
  rw [← route_unanswered_iff]
  cases hroute : route path with
  | error e => simp [read, hroute, bind, Except.bind]
  | ok route =>
      constructor
      · rintro ⟨error, hread, hunanswered⟩
        exact absurd (answered_of_read hroute hread) hunanswered
      · rintro ⟨error, herror, _⟩
        cases herror

end FileTree

end VibeScript
