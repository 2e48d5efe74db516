import Mathlib.Data.List.Forall2
import VibeScript.CommandLine.Run
import VibeScript.Proofs.Files

/-!
Checking files one after the other.

A file is judged by what reading it gave (`JudgedAs`), and the verdict is reported in one line
(`ReportedAs`).  What can be checked gives one report, whatever the other files hold, and the report
on several files consists of those on each of them (`check_files_independent`).

Bytes that are not UTF-8 cannot be checked, and neither can a path that the system cannot be asked
for; and the path of a file that compiles may be one that standard output refuses to show.  The
first of them ends the checking (`checkFiles_append_cons_of_not_checkable`).
-/

namespace VibeScript

/-- The verdict on a file, by what reading it gave: a refusal by the system, or the UTF-8 form of
a text. -/
inductive JudgedAs : Except FileError Bytes → Verdict → Prop
  | unreadable {error : FileError} (hanswered : error.Answered) :
      JudgedAs (.error error) (.unreadable error)
  | rejected {bytes : Bytes} {t : Text} {error : CompileError} (ht : encodeUtf8 t = .ok bytes)
      (hcompile : compile t.withLineFeeds = .error error) :
      JudgedAs (.ok bytes) (.rejected error)
  | compiled {bytes : Bytes} {t : Text} {script : Script} (ht : encodeUtf8 t = .ok bytes)
      (hcompile : compile t.withLineFeeds = .ok script) :
      JudgedAs (.ok bytes) .compiled

/-- The report of a verdict: one line, or none if a quiet check finds nothing wrong. -/
inductive ReportedAs (stdout : SurrogateRule) (quiet : Bool) (path : Text) :
    Verdict → Report → Prop
  | unreadable (error : FileError) :
      ReportedAs stdout quiet path (.unreadable error)
        ⟨[], encodeUtf8Escaping (path ++ ": read script: " ++ error.message path ++ "\n"), true⟩
  | rejected (error : CompileError) :
      ReportedAs stdout quiet path (.rejected error)
        ⟨[], encodeUtf8Escaping (path ++ ": compile failed: " ++ error.message ++ "\n"), true⟩
  | silent (hquiet : quiet = true) : ReportedAs stdout quiet path .compiled ⟨[], [], false⟩
  | shown {line : Bytes} (hquiet : quiet = false)
      (hline : stdout.encode (path ++ ": ok\n") = .ok line) :
      ReportedAs stdout quiet path .compiled ⟨line, [], false⟩

/-- What reading the file of a path can give for the file to be checked and reported.  The path of
a file that compiles must be one that standard output can show, if it is to be shown. -/
def Checkable (stdout : SurrogateRule) (quiet : Bool) (path : Text) :
    Except FileError Bytes → Prop
  | .error error => error.Answered
  | .ok bytes => ∃ t, encodeUtf8 t = .ok bytes ∧
      (quiet = false → (∃ script, compile t.withLineFeeds = .ok script) → stdout.Writes path)

/-! One file. -/

theorem decodeSource_eq_ok_iff {bytes : Bytes} {source : Text} :
    decodeSource bytes = .ok source ↔
      ∃ t, encodeUtf8 t = .ok bytes ∧ t.withLineFeeds = source := by
  simp only [← decodeUtf8_eq_ok_iff, decodeSource]
  cases decodeUtf8 bytes <;> simp [Except.map]

section File

variable {stdout : SurrogateRule} {quiet : Bool} {path : Text}
  {content : Except FileError Bytes} {verdict : Verdict} {report : Report}

theorem checkFile_eq_ok_iff (path : Text) :
    checkFile path content = .ok verdict ↔ JudgedAs content verdict := by
  constructor
  · intro h
    cases content with
    | error error =>
        rw [checkFile] at h
        split at h
        · next hanswer =>
            cases h
            exact .unreadable (FileError.answered_iff.mpr hanswer)
        · cases h
    | ok bytes =>
        rw [checkFile] at h
        split at h
        · cases h
        · next source hsource =>
            obtain ⟨t, ht, rfl⟩ := decodeSource_eq_ok_iff.mp hsource
            split at h
            · next hcompile =>
                cases h
                exact .rejected ht hcompile
            · next hcompile =>
                cases h
                exact .compiled ht hcompile
  · intro h
    cases h with
    | unreadable hanswered => exact if_pos (FileError.answered_iff.mp hanswered)
    | rejected ht hcompile =>
        simp only [checkFile, decodeSource_eq_ok_iff.mpr ⟨_, ht, rfl⟩, hcompile]
    | compiled ht hcompile =>
        simp only [checkFile, decodeSource_eq_ok_iff.mpr ⟨_, ht, rfl⟩, hcompile]

theorem report_eq_ok_iff : verdict.report stdout quiet path = .ok report ↔
    ReportedAs stdout quiet path verdict report := by
  constructor
  · intro h
    cases verdict with
    | unreadable error =>
        cases h
        exact .unreadable error
    | rejected error =>
        cases h
        exact .rejected error
    | compiled =>
        rw [Verdict.report] at h
        split at h
        · next hquiet =>
            cases h
            exact .silent hquiet
        · next hquiet =>
            split at h
            · cases h
            · next line hline =>
                cases h
                exact .shown (Bool.eq_false_iff.mpr hquiet) hline
  · intro h
    cases h with
    | unreadable error => rfl
    | rejected error => rfl
    | silent hquiet => exact if_pos hquiet
    | shown hquiet hline => simp [Verdict.report, hquiet, hline]

/-- A file is reported by its verdict. -/
theorem reportFile_eq_ok_iff : reportFile stdout quiet path content = .ok report ↔
    ∃ verdict, JudgedAs content verdict ∧ ReportedAs stdout quiet path verdict report := by
  simp only [← report_eq_ok_iff, ← checkFile_eq_ok_iff path, reportFile]
  cases checkFile path content <;> simp

/-- Only the path decides whether the line of a file that compiles can be shown. -/
theorem exists_line_iff :
    (∃ line, stdout.encode (path ++ ": ok\n") = .ok line) ↔ stdout.Writes path := by
  rw [SurrogateRule.exists_encode_iff, SurrogateRule.writes_append_iff, and_iff_left]
  exact SurrogateRule.writes_of_encodable (by decide) stdout

/-- There is a report on exactly what can be checked. -/
theorem exists_reportFile_iff : (∃ report, reportFile stdout quiet path content = .ok report) ↔
    Checkable stdout quiet path content := by
  simp only [reportFile_eq_ok_iff]
  constructor
  · rintro ⟨report, verdict, hjudged, hreported⟩
    cases hjudged with
    | unreadable hanswered => exact hanswered
    | rejected ht hcompile =>
        refine ⟨_, ht, fun _ hscript => ?_⟩
        simp [hcompile] at hscript
    | compiled ht hcompile =>
        refine ⟨_, ht, fun hquiet _ => ?_⟩
        cases hreported with
        | silent hsilent => simp [hsilent] at hquiet
        | shown _ hline => exact exists_line_iff.mp ⟨_, hline⟩
  · intro h
    cases content with
    | error error => exact ⟨_, _, .unreadable h, .unreadable error⟩
    | ok bytes =>
        obtain ⟨t, ht, hshow⟩ := h
        cases hcompile : compile t.withLineFeeds with
        | error error => exact ⟨_, _, .rejected ht hcompile, .rejected error⟩
        | ok script =>
            cases quiet with
            | true => exact ⟨_, _, .compiled ht hcompile, .silent rfl⟩
            | false =>
                obtain ⟨line, hline⟩ := exists_line_iff.mpr (hshow rfl ⟨script, hcompile⟩)
                exact ⟨_, _, .compiled ht hcompile, .shown rfl hline⟩

end File

/-! Several files. -/

section Files

variable {read : Text → Except FileError Bytes} {stdout : SurrogateRule} {quiet : Bool}
  {paths : List Text}

/-- What can be checked does not end the checking, and what cannot does. -/
theorem checkFiles_completes_iff : (checkFiles read stdout quiet paths).2 = none ↔
    ∀ path ∈ paths, Checkable stdout quiet path (read path) := by
  induction paths with
  | nil => simp
  | cons path rest ih =>
      rw [List.forall_mem_cons, ← ih, ← exists_reportFile_iff]
      cases hfile : reportFile stdout quiet path (read path) with
      | error crash =>
          rw [checkFiles_cons_of_error hfile]
          simp
      | ok report =>
          rw [checkFiles_cons_of_ok hfile]
          simp

/-- Files behind others that end no checking add their report to theirs. -/
theorem checkFiles_append (h : (checkFiles read stdout quiet paths).2 = none)
    (after : List Text) :
    checkFiles read stdout quiet (paths ++ after) =
      ((checkFiles read stdout quiet paths).1 ++ (checkFiles read stdout quiet after).1,
        (checkFiles read stdout quiet after).2) := by
  induction paths with
  | nil => simp
  | cons path rest ih =>
      cases hfile : reportFile stdout quiet path (read path) with
      | error crash =>
          rw [checkFiles_cons_of_error hfile] at h
          cases h
      | ok report =>
          rw [checkFiles_cons_of_ok hfile] at h ⊢
          rw [List.cons_append, checkFiles_cons_of_ok hfile, ih h, Report.append_assoc]

/-- The first file that cannot be checked ends the checking: what was reported in front of it
stays, and the files behind it are not looked at. -/
theorem checkFiles_append_cons_of_not_checkable {before : List Text} {path : Text}
    (hbefore : ∀ earlier ∈ before, Checkable stdout quiet earlier (read earlier))
    (hpath : ¬ Checkable stdout quiet path (read path)) (after : List Text) : ∃ crash,
      checkFiles read stdout quiet (before ++ path :: after) =
        ((checkFiles read stdout quiet before).1, some crash) := by
  have hcompletes : (checkFiles read stdout quiet before).2 = none :=
    checkFiles_completes_iff.mpr hbefore
  rw [checkFiles_append hcompletes]
  cases hfile : reportFile stdout quiet path (read path) with
  | error crash =>
      rw [checkFiles_cons_of_error hfile, Report.append_empty]
      exact ⟨crash, rfl⟩
  | ok report => exact absurd (exists_reportFile_iff.mp ⟨report, hfile⟩) hpath

/-- Files that can be checked are each reported as if they were alone. -/
theorem checkFiles_of_checkable (h : ∀ path ∈ paths, Checkable stdout quiet path (read path)) :
    ∃ reports : List Report,
      List.Forall₂ (fun path report => (∃ verdict, JudgedAs (read path) verdict ∧
          ReportedAs stdout quiet path verdict report) ∧
        checkFiles read stdout quiet [path] = (report, none)) paths reports ∧
      checkFiles read stdout quiet paths = (⟨reports.flatMap (·.out), reports.flatMap (·.err),
        reports.any (·.failed)⟩, none) := by
  induction paths with
  | nil => exact ⟨[], .nil, rfl⟩
  | cons path rest ih =>
      obtain ⟨hpath, hrest⟩ := List.forall_mem_cons.mp h
      obtain ⟨report, hreport⟩ := exists_reportFile_iff.mpr hpath
      obtain ⟨reports, hreports, hall⟩ := ih hrest
      refine ⟨report :: reports, .cons ⟨reportFile_eq_ok_iff.mp hreport, ?_⟩ hreports, ?_⟩
      · rw [checkFiles_cons_of_ok hreport, checkFiles_nil, Report.append_empty]
      · rw [checkFiles_cons_of_ok hreport, hall, Report.append_def]
        rfl

/-- A check crashes exactly if it does not complete. -/
theorem perform_check_crashes_iff {program : Program} {files : FileTree} {input : Bytes} :
    (∃ crash, program.perform (.check quiet paths) files input stdout = .error crash) ↔
      (checkFiles files.read stdout quiet paths).2 ≠ none := by
  rw [Program.perform]
  obtain ⟨report, crash⟩ := checkFiles files.read stdout quiet paths
  cases crash <;> simp

end Files

/-- Checking files completes exactly if each of them can be checked.  Otherwise the program crashes
at the first that cannot: what was reported in front of it stays, and the files behind it are not
looked at.  If it completes, each file is reported alike whatever the others are, and the report on
all of them holds what is reported on each, in their order; the exit status is 1 if one of them
failed and 0 otherwise.  A path is refused without asking the system exactly if it cannot be encoded
or holds a null character. -/
theorem check_files_independent (read : Text → Except FileError Bytes) (stdout : SurrogateRule)
    (quiet : Bool) (paths : List Text) :
    ((checkFiles read stdout quiet paths).2 = none ↔
      ∀ path ∈ paths, Checkable stdout quiet path (read path)) ∧
    (∀ files input, FileTree.read files = read →
      ((∃ crash, Program.vibes.perform (.check quiet paths) files input stdout = .error crash) ↔
        ∃ path ∈ paths, ¬ Checkable stdout quiet path (read path))) ∧
    (∀ before path after, paths = before ++ path :: after →
      (∀ earlier ∈ before, Checkable stdout quiet earlier (read earlier)) →
      ¬ Checkable stdout quiet path (read path) → ∃ crash,
        checkFiles read stdout quiet paths =
          ((checkFiles read stdout quiet before).1, some crash)) ∧
    ((∀ path ∈ paths, Checkable stdout quiet path (read path)) →
      ∃ (reports : List Report) (report : Report),
      List.Forall₂ (fun path report => (∃ verdict, JudgedAs (read path) verdict ∧
          ReportedAs stdout quiet path verdict report) ∧
        checkFiles read stdout quiet [path] = (report, none)) paths reports ∧
      checkFiles read stdout quiet paths = (report, none) ∧
      report.out = reports.flatMap (·.out) ∧ report.err = reports.flatMap (·.err) ∧
      report.exitStatus = (if ∃ r ∈ reports, r.failed then 1 else 0) ∧
      ∀ files input, FileTree.read files = read →
        Program.vibes.perform (.check quiet paths) files input stdout =
          .ok ⟨report.exitStatus, report.out, report.err, files⟩) ∧
    ∀ (files : FileTree) (path : Text),
      (∃ error, files.read path = .error error ∧ ¬ error.Answered) ↔
        CodePoint.ofNat 0 ∈ path ∨ ¬ SurrogateRule.strayBytes.Writes path := by
  refine ⟨checkFiles_completes_iff, ?_, ?_, ?_, FileTree.read_unanswered_iff⟩
  · rintro files input rfl
    rw [perform_check_crashes_iff, Ne, checkFiles_completes_iff]
    push Not
    rfl
  · rintro before path after rfl hbefore hpath
    exact checkFiles_append_cons_of_not_checkable hbefore hpath after
  · intro h
    obtain ⟨reports, hreports, hall⟩ := checkFiles_of_checkable h
    refine ⟨reports, _, hreports, hall, rfl, rfl, ?_, ?_⟩
    · simp only [Report.exitStatus, List.any_eq_true]
    · rintro files input rfl
      simp only [Program.perform, hall]

/-- A file that is missing, one that does not compile, one that does, and one that does and has a
byte outside UTF-8 for a name. -/
theorem check_files_independent_mixed :
    let stray : Text := [CodePoint.ofNat 0xDC80]
    let files := FileTree.ofPaths [] [("bad.vibe", [0x65, 0x6E, 0x64]), ("good.vibe", []),
      (stray, [])]
    let paths : List Text := ["missing.vibe", "bad.vibe", "good.vibe", stray]
    (∀ path ∈ paths, Checkable .strayBytes false path (files.read path)) ∧
      ∃ outcome, Program.vibes.perform (.check false paths) files [] .strayBytes = .ok outcome ∧
        outcome.exitStatus = 1 ∧
        outcome.out = asciiBytes "good.vibe: ok\n" ++ 0x80 :: asciiBytes ": ok\n" := by
  intro stray files paths
  have hmissing : files.read "missing.vibe" = .error .missing := by decide +kernel
  have hbad : files.read "bad.vibe" = .ok [0x65, 0x6E, 0x64] := by decide +kernel
  have hgood : files.read "good.vibe" = .ok [] := by decide +kernel
  have hstray : files.read stray = .ok [] := by decide +kernel
  have hcheckable : ∀ path ∈ paths, Checkable .strayBytes false path (files.read path) := by
    simp only [paths, List.forall_mem_cons, hmissing, hbad, hgood, hstray]
    refine ⟨⟨nofun, nofun⟩, ⟨"end", ?_, fun _ _ => ?_⟩, ⟨[], rfl, fun _ _ => ?_⟩,
      ⟨[], rfl, fun _ _ => ?_⟩, nofun⟩
    all_goals decide +kernel
  refine ⟨hcheckable, ?_⟩
  obtain ⟨_, report, _, hreport, _, _, _, hprogram⟩ :=
    (check_files_independent files.read .strayBytes false paths).2.2.2.1 hcheckable
  have hout : (checkFiles files.read .strayBytes false paths).1.out =
      asciiBytes "good.vibe: ok\n" ++ 0x80 :: asciiBytes ": ok\n" := by decide +kernel
  have hstatus : (checkFiles files.read .strayBytes false paths).1.exitStatus = 1 := by
    decide +kernel
  rw [hreport] at hout hstatus
  exact ⟨_, hprogram files [] rfl, hstatus, hout⟩

/-- A file that is not UTF-8 keeps the one behind it from being checked. -/
theorem check_ends_at_undecodable :
    let files := FileTree.ofPaths [] [("bad.vibe", [0xFF]), ("good.vibe", [])]
    Program.vibes.run ["check", "bad.vibe", "good.vibe"] files [] .refused =
        .error (.undecodable ⟨.invalidStart, 0xFF, 0, 1⟩) ∧
      Program.vibes.run ["check", "good.vibe"] files [] .refused =
        .ok ⟨0, asciiBytes "good.vibe: ok\n", [], files⟩ := by
  intro files
  constructor
  · decide +kernel
  · decide +kernel

/-- A file that compiles ends the checking too if standard output refuses its path, but not if the
check is quiet. -/
example :
    let stray : Text := [CodePoint.ofNat 0xDC80]
    let files := FileTree.ofPaths [] [(stray, [])]
    Program.vibes.run ["check", stray] files [] .refused =
        .error (.unprintable ⟨0, 0, CodePoint.ofNat 0xDC80⟩) ∧
      Program.vibes.run ["check", "--quiet", stray] files [] .refused =
        .ok ⟨0, [], [], files⟩ := by
  decide +kernel

end VibeScript
