import VibeScript.Proofs.Framing.RoundTrip

/-!
The streams that a reader accepts.

A body is read from a stream exactly if the stream begins with a frame of it
(`readPayload_iff_framed`): lines of a header, among them one that gives the length, an empty line
and the body.  What other lines of the header hold does not matter.
-/

namespace VibeScript

/-- A line that has a value for the length of a body. -/
def IsLengthLine (line : Bytes) : Prop := ∃ value, NamesLength line value

/-- A line that gives the length of a body. -/
def GivesLength (line : Bytes) (n : Nat) : Prop :=
  ∃ value, NamesLength line value ∧ DenotesLength value n

/-- A line with the line feed (10) that ends it. -/
def IsTerminated (line : Bytes) : Prop := ∃ content, line = content ++ [10] ∧ 10 ∉ content

/-- The first line of a stream, in front of the other bytes: it ends with its line feed, unless it
is all that is left of the stream. -/
def IsFirstLine (line behind : Bytes) : Prop :=
  IsTerminated line ∨ (line ≠ [] ∧ 10 ∉ line ∧ behind = [])

/-- A line of a header. -/
def IsHeaderLine (line : Bytes) : Prop := IsTerminated line ∧ ¬ IsEmptyLine line

/-- A stream that begins with a frame of a body.  Its header goes up to the first empty line.  The
last line of the header that has a value for the length gives it, and every other such line gives
some length. -/
def Framed (stream body rest : Bytes) : Prop :=
  ∃ header empty, stream = List.flatten header ++ (empty ++ (body ++ rest)) ∧
    (∀ line ∈ header, IsHeaderLine line) ∧ IsEmptyLine empty ∧ IsFirstLine empty (body ++ rest) ∧
    (∀ line ∈ header, IsLengthLine line → ∃ n, GivesLength line n) ∧
    ∃ before last after, header = before ++ last :: after ∧ GivesLength last body.length ∧
      ∀ line ∈ after, ¬ IsLengthLine line

/-- The length that lines of a header lead to, given the length known in front of them. -/
inductive LeadsTo : Option Nat → List Bytes → Option Nat → Prop
  | done (found : Option Nat) : LeadsTo found [] found
  | gives {found last : Option Nat} {line : Bytes} {n : Nat} {lines : List Bytes}
      (h : GivesLength line n) (hlines : LeadsTo (some n) lines last) :
      LeadsTo found (line :: lines) last
  | passes {found last : Option Nat} {line : Bytes} {lines : List Bytes}
      (h : ¬ IsLengthLine line) (hlines : LeadsTo found lines last) :
      LeadsTo found (line :: lines) last

/-- Lines lead to the length that the last of them gives, or leave the one that was known. -/
theorem leadsTo_iff {found later : Option Nat} {header : List Bytes} :
    LeadsTo found header later ↔
      (∀ line ∈ header, IsLengthLine line → ∃ n, GivesLength line n) ∧
      ((∃ n before last after, header = before ++ last :: after ∧ GivesLength last n ∧
          later = some n ∧ ∀ line ∈ after, ¬ IsLengthLine line) ∨
        (∀ line ∈ header, ¬ IsLengthLine line) ∧ later = found) := by
  constructor
  · intro h
    induction h with
    | done found => exact ⟨by simp, Or.inr ⟨by simp, rfl⟩⟩
    | @gives found last line n lines hline _ ih =>
        refine ⟨List.forall_mem_cons.mpr ⟨fun _ => ⟨n, hline⟩, ih.1⟩, Or.inl ?_⟩
        rcases ih.2 with ⟨m, before, given, after, rfl, hgiven⟩ | ⟨hnone, rfl⟩
        · exact ⟨m, line :: before, given, after, rfl, hgiven⟩
        · exact ⟨n, [], line, lines, rfl, hline, rfl, hnone⟩
    | @passes found last line lines hline _ ih =>
        refine ⟨List.forall_mem_cons.mpr ⟨fun h => absurd h hline, ih.1⟩, ?_⟩
        rcases ih.2 with ⟨m, before, given, after, rfl, hgiven⟩ | ⟨hnone, rfl⟩
        · exact Or.inl ⟨m, line :: before, given, after, rfl, hgiven⟩
        · exact Or.inr ⟨List.forall_mem_cons.mpr ⟨hline, hnone⟩, rfl⟩
  · rintro ⟨hall, hlast⟩
    induction header generalizing found with
    | nil =>
        rcases hlast with ⟨_, before, _, _, hsplit, _⟩ | ⟨_, rfl⟩
        · simp at hsplit
        · exact .done _
    | cons line lines ih =>
        obtain ⟨hline, hlines⟩ := List.forall_mem_cons.mp hall
        rcases hlast with ⟨n, before, last, after, hsplit, hn, rfl, hnone⟩ | ⟨hnone, rfl⟩
        · cases before with
          | nil =>
              obtain ⟨rfl, rfl⟩ := List.cons.inj hsplit
              exact .gives hn (ih hlines (Or.inr ⟨hnone, rfl⟩))
          | cons b before =>
              obtain ⟨rfl, rfl⟩ := List.cons.inj hsplit
              by_cases hlength : IsLengthLine line
              · obtain ⟨m, hm⟩ := hline hlength
                exact .gives hm (ih hlines (Or.inl ⟨n, before, last, after, rfl, hn, rfl, hnone⟩))
              · exact .passes hlength
                  (ih hlines (Or.inl ⟨n, before, last, after, rfl, hn, rfl, hnone⟩))
        · obtain ⟨hfirst, hnone⟩ := List.forall_mem_cons.mp hnone
          exact .passes hfirst (ih hlines (Or.inr ⟨hnone, rfl⟩))

/-- What reading a header comes to at a line, unless it goes on behind it. -/
def HeaderStep.result? : HeaderStep → Option (Except ReadError (Option Nat))
  | .finished n => some (.ok (some n))
  | .next _ => none
  | .failed e => some (.error e)

section Steps

variable {found : Option Nat} {line : Bytes}

theorem HeaderStep.result?_eq_ok_iff {step : HeaderStep} {n : Nat} :
    step.result? = some (.ok (some n)) ↔ step = .finished n := by
  cases step <;> simp [HeaderStep.result?]

theorem HeaderStep.result?_eq_error_iff {step : HeaderStep} {e : ReadError} :
    step.result? = some (.error e) ↔ step = .failed e := by
  cases step <;> simp [HeaderStep.result?]

theorem isLengthLine_iff : IsLengthLine line ↔ ∃ v, headerLine line = .contentLength v := by
  simp only [IsLengthLine, headerLine_eq_contentLength_iff]
  constructor
  · rintro ⟨value, hvalue⟩
    exact ⟨_, value, hvalue, rfl⟩
  · rintro ⟨_, value, hvalue, _⟩
    exact ⟨value, hvalue⟩

theorem givesLength_iff {n : Nat} :
    GivesLength line n ↔ ∃ v, headerLine line = .contentLength v ∧ contentLength v = .ok n := by
  simp only [GivesLength, headerLine_eq_contentLength_iff]
  constructor
  · rintro ⟨value, hvalue, hn⟩
    exact ⟨_, ⟨value, hvalue, rfl⟩, contentLength_strip_eq_ok_iff.mpr hn⟩
  · rintro ⟨_, ⟨value, hvalue, rfl⟩, hn⟩
    exact ⟨value, hvalue, contentLength_strip_eq_ok_iff.mp hn⟩

theorem headerStep_eq_finished_iff {n : Nat} :
    headerStep found line = .finished n ↔ IsEmptyLine line ∧ found = some n := by
  rw [← headerLine_eq_blank_iff]
  unfold headerStep
  cases headerLine line with
  | blank => cases found <;> simp
  | contentLength v => cases hread : contentLength v <;> simp [hread]
  | other => simp

/-- With which lines a header goes on, and what is known behind them. -/
theorem headerStep_eq_next_iff {later : Option Nat} :
    headerStep found line = .next later ↔
      (∃ n, GivesLength line n ∧ later = some n) ∨
      (¬ IsEmptyLine line ∧ ¬ IsLengthLine line ∧ later = found) := by
  rw [← headerLine_eq_blank_iff, isLengthLine_iff]
  simp only [givesLength_iff]
  unfold headerStep
  cases headerLine line with
  | blank => cases found <;> simp
  | contentLength v => cases hread : contentLength v <;> simp [hread, eq_comm]
  | other => simp [eq_comm]

end Steps

section Lines

variable {line behind stream : Bytes}

theorem IsTerminated.takeLine? (h : IsTerminated line) (behind : Bytes) :
    (Input.ofBytes (line ++ behind)).takeLine? = some (line, Input.ofBytes behind) := by
  obtain ⟨content, rfl, hfeed⟩ := h
  rw [List.append_assoc, List.singleton_append]
  exact takeLine?_append_lineFeed hfeed behind

/-- Bytes without a line feed are one line. -/
theorem takeLine?_of_not_mem (h : 10 ∉ line) :
    (Input.ofBytes line).takeLine? = some (line, Input.ofBytes []) := by
  have hnone : line.dropWhile (· ≠ 10) = [] := by
    rw [List.dropWhile_eq_nil_iff]
    intro b hb
    have hne : b ≠ 10 := by
      rintro rfl
      exact h hb
    simpa using hne
  rw [Input.takeLine?, Input.ofBytes, splitLine, hnone]
  rfl

theorem IsFirstLine.takeLine? (h : IsFirstLine line behind) :
    (Input.ofBytes (line ++ behind)).takeLine? = some (line, Input.ofBytes behind) := by
  rcases h with hterminated | ⟨_, hfeed, rfl⟩
  · exact hterminated.takeLine? behind
  · rw [List.append_nil]
    exact takeLine?_of_not_mem hfeed

theorem IsFirstLine.ne_nil (h : IsFirstLine line behind) : line ≠ [] := by
  rcases h with ⟨content, rfl, _⟩ | ⟨hne, _⟩
  · simp
  · exact hne

theorem IsHeaderLine.isFirstLine (h : IsHeaderLine line) (behind : Bytes) :
    IsFirstLine line behind :=
  Or.inl h.1

theorem exists_isFirstLine (hne : stream ≠ []) :
    ∃ line behind, stream = line ++ behind ∧ IsFirstLine line behind := by
  by_cases hmem : (10 : UInt8) ∈ stream
  · obtain ⟨content, behind, rfl, hfeed⟩ := List.eq_append_cons_of_mem hmem
    exact ⟨content ++ [10], behind, by simp, Or.inl ⟨content, rfl, hfeed⟩⟩
  · exact ⟨stream, [], by simp, Or.inr ⟨hne, hmem, rfl⟩⟩

/-- A header is read line by line. -/
theorem IsFirstLine.readHeaders_append (h : IsFirstLine line behind) (found : Option Nat)
    (started : Bool) :
    readHeaders found started (Input.ofBytes (line ++ behind)) =
      match headerStep found line with
      | .finished n => (.ok (some n), Input.ofBytes behind)
      | .next found => readHeaders found true (Input.ofBytes behind)
      | .failed e => (.error e, Input.ofBytes behind) :=
  readHeaders_of_line h.takeLine? h.ne_nil found started

end Lines

section Headers

variable {header : List Bytes} {line behind stream : Bytes} {found : Option Nat}

/-- Lines of a header are read up to what they lead to. -/
theorem readHeaders_of_leadsTo {last : Option Nat} (hlead : LeadsTo found header last)
    (hheader : ∀ line ∈ header, IsHeaderLine line) (started : Bool) (behind : Bytes) :
    readHeaders found started (Input.ofBytes (header.flatten ++ behind)) =
      readHeaders last (started || !header.isEmpty) (Input.ofBytes behind) := by
  induction hlead generalizing started with
  | done found => rw [List.flatten_nil, List.nil_append, List.isEmpty_nil, Bool.not_true,
      Bool.or_false]
  | @gives found last line m lines hline _ ih =>
      obtain ⟨hheaderLine, hlines⟩ := List.forall_mem_cons.mp hheader
      have hstep : headerStep found line = .next (some m) :=
        headerStep_eq_next_iff.mpr (Or.inl ⟨m, hline, rfl⟩)
      rw [List.flatten_cons, List.append_assoc,
        (hheaderLine.isFirstLine _).readHeaders_append, hstep]
      simpa using ih hlines true
  | @passes found last line lines hline _ ih =>
      obtain ⟨hheaderLine, hlines⟩ := List.forall_mem_cons.mp hheader
      have hstep : headerStep found line = .next found :=
        headerStep_eq_next_iff.mpr (Or.inr ⟨hheaderLine.2, hline, rfl⟩)
      rw [List.flatten_cons, List.append_assoc,
        (hheaderLine.isFirstLine _).readHeaders_append, hstep]
      simpa using ih hlines true

/-- A header is read as what the line behind its lines comes to. -/
theorem readHeaders_of_result {last : Option Nat} {result : Except ReadError (Option Nat)}
    (hlead : LeadsTo found header last) (hheader : ∀ line ∈ header, IsHeaderLine line)
    (hfirst : IsFirstLine line behind) (hresult : (headerStep last line).result? = some result)
    (started : Bool) :
    readHeaders found started (Input.ofBytes (header.flatten ++ (line ++ behind))) =
      (result, Input.ofBytes behind) := by
  rw [readHeaders_of_leadsTo hlead hheader, hfirst.readHeaders_append]
  cases hstep : headerStep last line with
  | next later =>
      rw [hstep] at hresult
      cases hresult
  | finished _ | failed _ =>
      rw [hstep] at hresult
      cases hresult
      rfl

theorem not_isEmptyLine_of_headerStep {later : Option Nat}
    (h : headerStep found line = .next later) : ¬ IsEmptyLine line := by
  rcases headerStep_eq_next_iff.mp h with ⟨m, hm, _⟩ | ⟨hnot, _⟩
  · obtain ⟨v, hv, _⟩ := givesLength_iff.mp hm
    rw [← headerLine_eq_blank_iff, hv]
    simp
  · exact hnot

/-- The line that a header goes on with leads to what is known behind it. -/
theorem LeadsTo.of_headerStep {later last : Option Nat} {lines : List Bytes}
    (h : headerStep found line = .next later) (hlines : LeadsTo later lines last) :
    LeadsTo found (line :: lines) last := by
  rcases headerStep_eq_next_iff.mp h with ⟨m, hm, rfl⟩ | ⟨_, hline, rfl⟩
  · exact .gives hm hlines
  · exact .passes hline hlines

/-- Reading a header comes to the end of the stream, or to a line that ends it behind others that
do not. -/
theorem readHeaders_cases (found : Option Nat) (started : Bool) (stream : Bytes) :
    (readHeaders found started (Input.ofBytes stream)).1 = .ok none ∨
    (readHeaders found started (Input.ofBytes stream)).1 = .error (.framing .endInHeaders) ∨
    ∃ header last line behind result, stream = List.flatten header ++ (line ++ behind) ∧
      (∀ line ∈ header, IsHeaderLine line) ∧ LeadsTo found header last ∧
      IsFirstLine line behind ∧ (headerStep last line).result? = some result ∧
      readHeaders found started (Input.ofBytes stream) = (result, Input.ofBytes behind) := by
  induction hlength : stream.length using Nat.strongRecOn generalizing stream found started with
  | ind k ih =>
      by_cases hnil : stream = []
      · rw [hnil, readHeaders_of_end rfl]
        cases started <;> simp
      · obtain ⟨line, behind, rfl, hfirst⟩ := exists_isFirstLine hnil
        rw [hfirst.readHeaders_append]
        cases hstep : headerStep found line with
        | finished n =>
            exact Or.inr (Or.inr ⟨[], found, line, behind, .ok (some n), rfl, by simp, .done _,
              hfirst, by rw [hstep, HeaderStep.result?], rfl⟩)
        | failed e =>
            exact Or.inr (Or.inr ⟨[], found, line, behind, .error e, rfl, by simp, .done _,
              hfirst, by rw [hstep, HeaderStep.result?], rfl⟩)
        | next later =>
            have hpositive := List.length_pos_iff.mpr hfirst.ne_nil
            rw [List.length_append] at hlength
            rcases hfirst with hterminated | ⟨_, _, rfl⟩
            · refine (ih behind.length (by omega) later true behind rfl).imp_right
                (Or.imp_right ?_)
              rintro ⟨header, last, stop, rest, result, rfl, hheader, hlead, hstop, hresult, hread⟩
              exact ⟨line :: header, last, stop, rest, result, by simp,
                List.forall_mem_cons.mpr
                  ⟨⟨hterminated, not_isEmptyLine_of_headerStep hstep⟩, hheader⟩,
                hlead.of_headerStep hstep, hstop, hresult, hread⟩
            -- The line is all that is left of the stream.
            · exact Or.inr (Or.inl (congrArg Prod.fst (readHeaders_of_end rfl later true)))

/-- That a header has begun matters only at the end of the stream. -/
theorem readHeaders_started (hne : stream ≠ []) (found : Option Nat) (started : Bool) :
    readHeaders found started (Input.ofBytes stream) =
      readHeaders found true (Input.ofBytes stream) := by
  obtain ⟨line, behind, rfl, hfirst⟩ := exists_isFirstLine hne
  rw [hfirst.readHeaders_append, hfirst.readHeaders_append]

/-- A line of a header that has no value for the length is passed over. -/
theorem IsHeaderLine.readHeaders_of_not_length (h : IsHeaderLine line)
    (hlength : ¬ IsLengthLine line) (found : Option Nat) (started : Bool) (behind : Bytes) :
    readHeaders found started (Input.ofBytes (line ++ behind)) =
      readHeaders found true (Input.ofBytes behind) := by
  have hstep : headerStep found line = .next found :=
    headerStep_eq_next_iff.mpr (Or.inr ⟨h.2, hlength, rfl⟩)
  rw [(h.isFirstLine behind).readHeaders_append, hstep]

/-- It can be left out, unless nothing else is there. -/
theorem readHeaders_of_other_line (found : Option Nat) (started : Bool) {front : List Bytes}
    (hfront : ∀ line ∈ front, IsHeaderLine line) (hline : IsHeaderLine line)
    (hlength : ¬ IsLengthLine line) (hne : started = true ∨ front.flatten ++ behind ≠ []) :
    readHeaders found started (Input.ofBytes (front.flatten ++ (line ++ behind))) =
        readHeaders found started (Input.ofBytes (front.flatten ++ behind)) ∨
      ∃ e, (readHeaders found started (Input.ofBytes (front.flatten ++ (line ++ behind)))).1 =
          .error e ∧
        (readHeaders found started (Input.ofBytes (front.flatten ++ behind))).1 = .error e := by
  induction front generalizing found started with
  | nil =>
      rw [List.flatten_nil, List.nil_append] at hne
      rw [List.flatten_nil, List.nil_append, List.nil_append,
        hline.readHeaders_of_not_length hlength]
      rcases hne with rfl | hne
      · exact Or.inl rfl
      · exact Or.inl (readHeaders_started hne found started).symm
  | cons first front ih =>
      obtain ⟨hfirst, hfront⟩ := List.forall_mem_cons.mp hfront
      rw [List.flatten_cons, List.append_assoc, List.append_assoc,
        (hfirst.isFirstLine _).readHeaders_append,
        (hfirst.isFirstLine _).readHeaders_append]
      cases hstep : headerStep found first with
      | finished m => exact absurd (headerStep_eq_finished_iff.mp hstep).1 hfirst.2
      | next later => exact ih later true hfront (Or.inl rfl)
      | failed e => exact Or.inr ⟨e, rfl, rfl⟩

end Headers

section Payloads

variable {stream body rest : Bytes}

/-- Without a header nothing is read. -/
theorem readPayload_of_error {input : Input} {e : ReadError}
    (h : (readHeaders none false input).1 = .error e) : (readPayload input).1 = .failed e := by
  rw [readPayload_eq_readBehind, h, readBehind]

/-- A body is what the length in front of it takes. -/
theorem readPayload_eq_payload_iff :
    readPayload (Input.ofBytes stream) = (.payload body, Input.ofBytes rest) ↔
      body.length ≤ lengthLimit ∧
      readHeaders none false (Input.ofBytes stream) =
        (.ok (some body.length), Input.ofBytes (body ++ rest)) := by
  constructor
  · intro h
    unfold readPayload at h
    split at h
    · cases h
    · cases h
    · next n left hread =>
        simp only at h
        split at h
        · cases h
        · next hlimit =>
            split at h
            · cases h
            · next hlong =>
                obtain ⟨bytes, patience⟩ := left
                cases h
                have hlength : (bytes.take n).length = n :=
                  Nat.le_antisymm (List.length_take_le n bytes) (Nat.not_lt.mp hlong)
                rw [hread, hlength, List.take_append_drop]
                exact ⟨by omega, rfl⟩
  · rintro ⟨hlimit, hread⟩
    rw [readPayload, hread]
    simp only [Input.ofBytes, List.take_left, List.drop_left, Nat.not_lt.mpr hlimit,
      Nat.lt_irrefl, ↓reduceIte]

theorem readHeaders_iff_framed :
    readHeaders none false (Input.ofBytes stream) =
        (.ok (some body.length), Input.ofBytes (body ++ rest)) ↔
      Framed stream body rest := by
  constructor
  · intro h
    rcases readHeaders_cases none false stream with hend | hend |
      ⟨header, known, empty, behind, result, hstream, hheader, hlead, hfirst, hresult, hread⟩
    · rw [h] at hend
      cases hend
    · rw [h] at hend
      cases hend
    · rw [h] at hread
      cases hread
      have hstep := HeaderStep.result?_eq_ok_iff.mp hresult
      obtain ⟨hempty, rfl⟩ := headerStep_eq_finished_iff.mp hstep
      obtain ⟨hall, hlast⟩ := leadsTo_iff.mp hlead
      rcases hlast with ⟨n, before, last, after, hsplit, hn, hsome, hnone⟩ | ⟨_, hsome⟩
      · cases hsome
        exact ⟨header, empty, hstream, hheader, hempty, hfirst, hall, before, last, after, hsplit,
          hn, hnone⟩
      · cases hsome
  · rintro ⟨header, empty, rfl, hheader, hempty, hfirst, hall, before, last, after, hsplit, hn,
      hnone⟩
    have hlead : LeadsTo none header (some body.length) :=
      leadsTo_iff.mpr ⟨hall, Or.inl ⟨_, before, last, after, hsplit, hn, rfl, hnone⟩⟩
    have hstep : headerStep (some body.length) empty = .finished body.length :=
      headerStep_eq_finished_iff.mpr ⟨hempty, rfl⟩
    exact readHeaders_of_result hlead hheader hfirst (HeaderStep.result?_eq_ok_iff.mpr hstep) false

end Payloads

/-- Readings that come to the same: they take the same and leave the same, or they fail in the
same way. -/
def SameReading (first second : Reading × Input) : Prop :=
  first = second ∨ ∃ e, first.1 = .failed e ∧ second.1 = .failed e

theorem sameReading_of_other_line {front : List Bytes} {line behind : Bytes}
    (hfront : ∀ line ∈ front, IsHeaderLine line) (hline : IsHeaderLine line)
    (hlength : ¬ IsLengthLine line) (hne : front.flatten ++ behind ≠ []) :
    SameReading (readPayload (Input.ofBytes (front.flatten ++ (line ++ behind))))
      (readPayload (Input.ofBytes (front.flatten ++ behind))) := by
  rcases readHeaders_of_other_line none false hfront hline hlength (Or.inr hne) with
    hsame | ⟨e, hwith, hwithout⟩
  · left
    rw [readPayload, hsame]
    rfl
  · exact Or.inr ⟨e, readPayload_of_error hwith, readPayload_of_error hwithout⟩

/-- A reader accepts the streams that begin with a frame, and no others: it gives the body and
leaves what stands behind it.  No more than `lengthLimit` bytes can be asked for, which is the
length of the longest string of bytes.  A line of a header without a value for the length can be
left out, whatever it holds, as long as the stream has other bytes. -/
theorem readPayload_iff_framed :
    (∀ stream body rest, readPayload (Input.ofBytes stream) = (.payload body, Input.ofBytes rest) ↔
      body.length ≤ lengthLimit ∧ Framed stream body rest) ∧
    ∀ (front : List Bytes) (line behind : Bytes), (∀ line ∈ front, IsHeaderLine line) →
      IsHeaderLine line → ¬ IsLengthLine line → front.flatten ++ behind ≠ [] →
      SameReading (readPayload (Input.ofBytes (front.flatten ++ (line ++ behind))))
        (readPayload (Input.ofBytes (front.flatten ++ behind))) := by
  refine ⟨fun stream body rest => ?_, fun front line behind => sameReading_of_other_line⟩
  rw [readPayload_eq_payload_iff, readHeaders_iff_framed]

/-- Two lengths, the last one with a sign and between blanks, an undecodable line that can be left
out, and a body that reads like the end of a header. -/
theorem readPayload_iff_framed_mixed :
    let front : List Bytes :=
      [asciiBytes "Content-Length: 12\r\n", asciiBytes "\tcontent-LENGTH : +003 \r\r\n"]
    let line : Bytes := [58, 0xFF, 13, 10]
    let body : Bytes := [10, 13, 58]
    let rest := asciiBytes "Content-Length: x"
    let behind : Bytes := [13, 13, 10] ++ (body ++ rest)
    Framed (front.flatten ++ behind) body rest ∧
      SameReading (readPayload (Input.ofBytes (front.flatten ++ (line ++ behind))))
        (readPayload (Input.ofBytes (front.flatten ++ behind))) := by
  intro front line body rest behind
  have hread : readPayload (Input.ofBytes (front.flatten ++ behind)) =
      (.payload body, Input.ofBytes rest) := by decide +kernel
  have hfront : ∀ line ∈ front, IsHeaderLine line := by
    intro line hline
    simp only [front, List.mem_cons, List.not_mem_nil, or_false] at hline
    rcases hline with rfl | rfl
    · exact ⟨⟨asciiBytes "Content-Length: 12\r", by decide, by decide⟩,
        fun hempty => absurd (hempty 58 (by decide)) (by decide)⟩
    · exact ⟨⟨asciiBytes "\tcontent-LENGTH : +003 \r\r", by decide, by decide⟩,
        fun hempty => absurd (hempty 58 (by decide)) (by decide)⟩
  have hline : IsHeaderLine line := ⟨⟨[58, 0xFF, 13], rfl, by decide⟩,
    fun hempty => absurd (hempty 58 (by decide)) (by decide)⟩
  have hother : headerLine line = .other := by decide
  have hlength : ¬ IsLengthLine line := by simp [isLengthLine_iff, hother]
  obtain ⟨hframed, hsame⟩ := readPayload_iff_framed
  exact ⟨((hframed _ body rest).mp hread).2,
    hsame front line behind hfront hline hlength (by decide)⟩

end VibeScript
