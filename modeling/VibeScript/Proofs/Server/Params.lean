import VibeScript.Proofs.Rpc.Dispatch
import VibeScript.Proofs.Steps
import VibeScript.Server.Session

/-!
The messages about documents that are well formed.

`Members.Carries` says what such a message looks like and what it means for a document.
The readers of the server accept exactly these messages (`Members.carries_iff`).
-/

namespace VibeScript

/-- What a message means for a document. -/
inductive DocumentEvent where
  | opened (document : Document)
  | changed (document : Document)
  | closed (uri : Text)
deriving DecidableEq

/-- Which version the member of a document gives that is there for it.  A number without fraction
and exponent is a version and so is a truth value; anything else is none, and so is a member that
is not there. -/
inductive GivesVersion : Option Json → Option Version → Prop
  | number (n : Int) : GivesVersion (some (.int n)) (some (.number n))
  | flag (b : Bool) : GivesVersion (some (.bool b)) (some (.flag b))
  | absent : GivesVersion none none
  | other {value : Json} (hnumber : ∀ n, value ≠ .int n) (hflag : ∀ b, value ≠ .bool b) :
      GivesVersion (some value) none

/-- The messages about documents with params of the right form.  Members that are not
mentioned do not matter; of several changes the last one counts. -/
inductive Members.Carries (envelope : Members) : DocumentEvent → Prop
  | opened {params item : Members} {uri content : Text} {version : Option Version}
      (hmethod : envelope.get? "method" = some (.str "textDocument/didOpen"))
      (hparams : envelope.get? "params" = some (.obj params))
      (hitem : params.get? "textDocument" = some (.obj item))
      (huri : item.get? "uri" = some (.str uri))
      (htext : item.get? "text" = some (.str content))
      (hversion : GivesVersion (item.get? "version") version) :
      envelope.Carries (.opened ⟨uri, version, content⟩)
  | changed {params item latest : Members} {changes : List Json} {uri content : Text}
      {version : Option Version}
      (hmethod : envelope.get? "method" = some (.str "textDocument/didChange"))
      (hparams : envelope.get? "params" = some (.obj params))
      (hitem : params.get? "textDocument" = some (.obj item))
      (huri : item.get? "uri" = some (.str uri))
      (hchanges : params.get? "contentChanges" = some (.arr changes))
      (hlatest : changes.getLast? = some (.obj latest))
      (htext : latest.get? "text" = some (.str content))
      (hversion : GivesVersion (item.get? "version") version) :
      envelope.Carries (.changed ⟨uri, version, content⟩)
  | closed {params item : Members} {uri : Text}
      (hmethod : envelope.get? "method" = some (.str "textDocument/didClose"))
      (hparams : envelope.get? "params" = some (.obj params))
      (hitem : params.get? "textDocument" = some (.obj item))
      (huri : item.get? "uri" = some (.str uri)) :
      envelope.Carries (.closed uri)

theorem Members.get?_of_getD {members : Members} {key : Text} {value : Json}
    (h : members.getD key = value) (hvalue : value.isNull = false) :
    members.get? key = some value := by
  rw [getD] at h
  cases hget : members.get? key with
  | none =>
      rw [hget, Option.getD_none] at h
      rw [← h] at hvalue
      cases hvalue
  | some found => rw [← h, hget, Option.getD_some]

theorem Members.getD_of_get? {members : Members} {key : Text} {value : Json}
    (h : members.get? key = some value) : members.getD key = value := by
  rw [getD, h, Option.getD_some]

/-- A member is read as the version that it gives. -/
theorem givesVersion_iff {found : Option Json} {version : Option Version} :
    GivesVersion found version ↔ version = versionOf (found.getD .null) := by
  constructor
  · intro h
    cases h with
    | number n => rfl
    | flag b => rfl
    | absent => rfl
    | @other value hnumber hflag =>
        cases value with
        | int n => exact absurd rfl (hnumber n)
        | bool b => exact absurd rfl (hflag b)
        | null | real | str | arr | obj => rfl
  · rintro rfl
    cases found with
    | none => exact .absent
    | some value =>
        cases value with
        | int n => exact .number n
        | bool b => exact .flag b
        | null | real | str | arr | obj => exact .other nofun nofun

theorem requireObject_eq_ok_iff {what : Text} {value : Json} {members : Members} :
    requireObject what value = .ok members ↔ value = .obj members := by
  cases value <;> simp [requireObject]

theorem requireString_eq_ok_iff {members : Members} {key value : Text} :
    requireString members key .null = .ok value ↔ members.get? key = some (.str value) := by
  rw [requireString]
  cases members.get? key with
  | none => simp
  | some found => cases found <;> simp

/-- A document that has a member is one that is there. -/
theorem textDocument_of_get? {params value : Json} {item : Members} {key : Text}
    (h : textDocument params = .ok item) (hvalue : item.get? key = some value) :
    ∃ members : Members, params = .obj members ∧
      members.get? "textDocument" = some (.obj item) := by
  obtain ⟨members, hmembers, h⟩ := exists_of_bind_eq_ok h
  refine ⟨members, requireObject_eq_ok_iff.mp hmembers, ?_⟩
  unfold optionalObject at h
  split at h
  · cases h
    simp at hvalue
  · exact Members.get?_of_getD (requireObject_eq_ok_iff.mp h) rfl

theorem textDocument_obj {members item : Members}
    (h : members.get? "textDocument" = some (.obj item)) :
    textDocument (.obj members) = .ok item := by
  change optionalObject members "textDocument" = .ok item
  rw [optionalObject, Members.getD_of_get? h]
  rfl

/-- What the params of a document that is opened look like. -/
theorem openParams_eq_ok_iff {params : Json} {document : Document} :
    openParams params = .ok document ↔ ∃ members item : Members, params = .obj members ∧
      members.get? "textDocument" = some (.obj item) ∧
      item.get? "uri" = some (.str document.uri) ∧
      item.get? "text" = some (.str document.content) ∧
      GivesVersion (item.get? "version") document.version := by
  constructor
  · intro h
    obtain ⟨members, hmembers, h⟩ := exists_of_bind_eq_ok h
    obtain ⟨item, hitem, h⟩ := exists_of_bind_eq_ok h
    obtain ⟨uri, huri, h⟩ := exists_of_bind_eq_ok h
    obtain ⟨content, hcontent, h⟩ := exists_of_bind_eq_ok h
    cases h
    exact ⟨members, item, requireObject_eq_ok_iff.mp hmembers,
      Members.get?_of_getD (requireObject_eq_ok_iff.mp hitem) rfl,
      requireString_eq_ok_iff.mp huri, requireString_eq_ok_iff.mp hcontent,
      givesVersion_iff.mpr rfl⟩
  · rintro ⟨members, item, rfl, hitem, huri, hcontent, hversion⟩
    have hread : document.version = versionOf (item.getD "version") :=
      givesVersion_iff.mp hversion
    have hobject : requireObject "textDocument" (members.getD "textDocument") = .ok item :=
      requireObject_eq_ok_iff.mpr (Members.getD_of_get? hitem)
    rw [openParams]
    simp only [requireObject, bind, Except.bind] at hobject ⊢
    simp only [hobject, requireString_eq_ok_iff.mpr huri, requireString_eq_ok_iff.mpr hcontent,
      ← hread]
    rfl

/-- What the params of a change look like, if there is a change in them. -/
theorem changeParams_eq_ok_some_iff {params : Json} {document : Document} :
    changeParams params = .ok (some document) ↔ ∃ (members item latest : Members)
      (changes : List Json), params = .obj members ∧
      members.get? "textDocument" = some (.obj item) ∧
      item.get? "uri" = some (.str document.uri) ∧
      members.get? "contentChanges" = some (.arr changes) ∧
      changes.getLast? = some (.obj latest) ∧
      latest.get? "text" = some (.str document.content) ∧
      GivesVersion (item.get? "version") document.version := by
  constructor
  · intro h
    obtain ⟨item, hread, hdocument⟩ := exists_of_bind_eq_ok h
    obtain ⟨uri, hname, hcontents⟩ := exists_of_bind_eq_ok hdocument
    obtain ⟨members, hmembers, hchange⟩ := exists_of_bind_eq_ok hcontents
    have huri := requireString_eq_ok_iff.mp hname
    obtain ⟨found, hfound, hitem⟩ := textDocument_of_get? hread huri
    obtain rfl : members = found := by
      rw [requireObject_eq_ok_iff, hfound] at hmembers
      exact (Json.obj.inj hmembers).symm
    split at hchange
    · next changes hchanges =>
        split at hchange
        · cases hchange
        · next change hlast =>
            obtain ⟨latest, hlatest, htext⟩ := exists_of_bind_eq_ok hchange
            obtain ⟨content, hcontent, hresult⟩ := exists_of_bind_eq_ok htext
            cases hresult
            rw [requireObject_eq_ok_iff.mp hlatest] at hlast
            exact ⟨members, item, latest, changes, hfound, hitem, huri,
              Members.get?_of_getD hchanges rfl, hlast, requireString_eq_ok_iff.mp hcontent,
              givesVersion_iff.mpr rfl⟩
    · cases hchange
  · rintro ⟨members, item, latest, changes, rfl, hitem, huri, hchanges, hlast, hcontent,
      hversion⟩
    have hread : document.version = versionOf (item.getD "version") :=
      givesVersion_iff.mp hversion
    rw [changeParams, textDocument_obj hitem]
    simp only [bind, Except.bind, requireObject, requireString_eq_ok_iff.mpr huri,
      Members.getD_of_get? hchanges, hlast, requireString_eq_ok_iff.mpr hcontent, ← hread]
    rfl

/-- What the params of a document that is closed look like. -/
theorem closeParams_eq_ok_iff {params : Json} {uri : Text} :
    closeParams params = .ok uri ↔ ∃ members item : Members, params = .obj members ∧
      members.get? "textDocument" = some (.obj item) ∧
      item.get? "uri" = some (.str uri) := by
  constructor
  · intro h
    obtain ⟨item, hread, hname⟩ := exists_of_bind_eq_ok h
    have huri := requireString_eq_ok_iff.mp hname
    obtain ⟨members, hmembers, hitem⟩ := textDocument_of_get? hread huri
    exact ⟨members, item, hmembers, hitem, huri⟩
  · rintro ⟨members, item, rfl, hitem, huri⟩
    rw [closeParams, textDocument_obj hitem]
    exact requireString_eq_ok_iff.mpr huri

/-- What a message means for a document, as the server reads it. -/
def Members.documentEvent? (envelope : Members) : Option DocumentEvent :=
  envelope.method?.bind fun method =>
    let params := envelope.getD "params"
    if method = "textDocument/didOpen" then (openParams params).toOption.map .opened
    else if method = "textDocument/didChange" then
      ((changeParams params).toOption.bind id).map .changed
    else if method = "textDocument/didClose" then (closeParams params).toOption.map .closed
    else none

section Events

variable {envelope : Members}

theorem Members.documentEvent?_of_open
    (hmethod : envelope.get? "method" = some (.str "textDocument/didOpen")) :
    envelope.documentEvent? =
      (openParams (envelope.getD "params")).toOption.map .opened := by
  simp only [documentEvent?, method?_eq_some_iff.mpr hmethod, Option.bind_some, ↓reduceIte]

theorem Members.documentEvent?_of_change
    (hmethod : envelope.get? "method" = some (.str "textDocument/didChange")) :
    envelope.documentEvent? =
      ((changeParams (envelope.getD "params")).toOption.bind id).map .changed := by
  have hopen : ¬ ("textDocument/didChange" : Text) = "textDocument/didOpen" := by
    decide +kernel
  simp only [documentEvent?, method?_eq_some_iff.mpr hmethod, Option.bind_some, hopen,
    ↓reduceIte]

theorem Members.documentEvent?_of_close
    (hmethod : envelope.get? "method" = some (.str "textDocument/didClose")) :
    envelope.documentEvent? =
      (closeParams (envelope.getD "params")).toOption.map .closed := by
  have hopen : ¬ ("textDocument/didClose" : Text) = "textDocument/didOpen" := by
    decide +kernel
  have hchange : ¬ ("textDocument/didClose" : Text) = "textDocument/didChange" := by
    decide +kernel
  simp only [documentEvent?, method?_eq_some_iff.mpr hmethod, Option.bind_some, hopen, hchange,
    ↓reduceIte]

/-- The server reads exactly the messages that are well formed. -/
theorem Members.carries_iff {event : DocumentEvent} :
    envelope.Carries event ↔ envelope.documentEvent? = some event := by
  constructor
  · intro h
    cases h with
    | opened hmethod hparams hitem huri htext hversion =>
        rw [documentEvent?_of_open hmethod, Option.map_eq_some_iff]
        refine ⟨_, toOption_eq_some_iff.mpr (openParams_eq_ok_iff.mpr ?_), rfl⟩
        exact ⟨_, _, getD_of_get? hparams, hitem, huri, htext, hversion⟩
    | changed hmethod hparams hitem huri hchanges hlatest htext hversion =>
        rw [documentEvent?_of_change hmethod, Option.map_eq_some_iff]
        refine ⟨_, Option.bind_eq_some_iff.mpr ⟨_, toOption_eq_some_iff.mpr
          (changeParams_eq_ok_some_iff.mpr ?_), rfl⟩, rfl⟩
        exact ⟨_, _, _, _, getD_of_get? hparams, hitem, huri, hchanges, hlatest, htext,
          hversion⟩
    | closed hmethod hparams hitem huri =>
        rw [documentEvent?_of_close hmethod, Option.map_eq_some_iff]
        refine ⟨_, toOption_eq_some_iff.mpr (closeParams_eq_ok_iff.mpr ?_), rfl⟩
        exact ⟨_, _, getD_of_get? hparams, hitem, huri⟩
  · intro h
    obtain ⟨method, hmethod, hevent⟩ := Option.bind_eq_some_iff.mp h
    have hmethod := method?_eq_some_iff.mp hmethod
    simp only at hevent
    split at hevent
    · next hopen =>
        obtain ⟨document, hread, rfl⟩ := Option.map_eq_some_iff.mp hevent
        obtain ⟨members, item, hparams, hitem, huri, htext, hversion⟩ :=
          openParams_eq_ok_iff.mp (toOption_eq_some_iff.mp hread)
        rw [hopen] at hmethod
        exact .opened hmethod (get?_of_getD hparams rfl) hitem huri htext hversion
    split at hevent
    · next hchange =>
        obtain ⟨document, hread, rfl⟩ := Option.map_eq_some_iff.mp hevent
        obtain ⟨_, hread, rfl⟩ := Option.bind_eq_some_iff.mp hread
        obtain ⟨members, item, latest, changes, hparams, hitem, huri, hchanges, hlatest, htext,
          hversion⟩ := changeParams_eq_ok_some_iff.mp (toOption_eq_some_iff.mp hread)
        rw [hchange] at hmethod
        exact .changed hmethod (get?_of_getD hparams rfl) hitem huri hchanges hlatest htext
          hversion
    split at hevent
    · next hclose =>
        obtain ⟨uri, hread, rfl⟩ := Option.map_eq_some_iff.mp hevent
        obtain ⟨members, item, hparams, hitem, huri⟩ :=
          closeParams_eq_ok_iff.mp (toOption_eq_some_iff.mp hread)
        rw [hclose] at hmethod
        exact .closed hmethod (get?_of_getD hparams rfl) hitem huri
    · cases hevent

end Events

end VibeScript
