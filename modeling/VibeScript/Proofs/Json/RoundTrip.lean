import VibeScript.Proofs.Json.Atoms
import VibeScript.Proofs.Json.Encoding
import VibeScript.Proofs.Json.Nesting
import VibeScript.Proofs.Json.Strings
import VibeScript.Proofs.Json.Tree
import VibeScript.Proofs.Text.Utf8

/-!
A value that is written as a payload is read back from it (`decodeEnvelope_encodeEnvelope`).

The reader keeps a stack of what is open around the value that it reads.  So the round trip
is stated for any stack and any rest of the text: behind what was written for a value, the
reader stands where it would stand with the value just completed
(`parseJsonFrom_render`).
-/

namespace VibeScript

mutual

/-- A value that a payload carries exactly.  It is built from null, truth values, integers
that do not have too many digits, texts without surrogates, arrays, and objects with
distinct keys. -/
def Json.Exact : Json → Prop
  | .null | .bool _ => True
  | .int n => n.natAbs < tenTo digitLimit
  | .real _ => False
  | .str s => s.Encodable
  | .arr elements => elementsExact elements
  | .obj members => (members.map (·.1)).Nodup ∧ membersExact members

def elementsExact : List Json → Prop
  | [] => True
  | x :: rest => x.Exact ∧ elementsExact rest

def membersExact : List (Text × Json) → Prop
  | [] => True
  | (key, value) :: rest => key.Encodable ∧ value.Exact ∧ membersExact rest

end

mutual

/-- How deep arrays and objects lie inside one another. -/
def Json.depth : Json → Nat
  | .arr elements => elementsDepth elements + 1
  | .obj members => membersDepth members + 1
  | _ => 0

def elementsDepth : List Json → Nat
  | [] => 0
  | x :: rest => max x.depth (elementsDepth rest)

def membersDepth : List (Text × Json) → Nat
  | [] => 0
  | (_, value) :: rest => max value.depth (membersDepth rest)

end

mutual

theorem Json.Exact.encodable : (value : Json) → value.Exact → value.Encodable
  | .null, _ | .bool _, _ => trivial
  | .int _, h | .str _, h => h
  | .arr elements, h => elementsExact_encodable elements h
  | .obj members, h => membersExact_encodable members h.2

theorem elementsExact_encodable : (elements : List Json) → elementsExact elements →
    elementsEncodable elements
  | [], _ => trivial
  | x :: rest, h => ⟨Json.Exact.encodable x h.1, elementsExact_encodable rest h.2⟩

theorem membersExact_encodable : (members : List (Text × Json)) → membersExact members →
    membersEncodable members
  | [], _ => trivial
  | (_, value) :: rest, h =>
      ⟨h.1, Json.Exact.encodable value h.2.1, membersExact_encodable rest h.2.2⟩

end

/-- Setting a member that is not there adds it behind the others. -/
theorem Members.set_of_not_mem {members : Members} {key : Text}
    (h : key ∉ members.map (·.1)) (value : Json) :
    members.set key value = members ++ [(key, value)] := by
  rw [Members.set_eq_setMember, setMember_of_not_mem h]

/-- A key that stands behind others that differ from it is none of them. -/
theorem key_not_mem_of_nodup {done more : Members} {key : Text} {value : Json}
    (h : ((done ++ (key, value) :: more).map (·.1)).Nodup) : key ∉ done.map (·.1) := by
  rw [List.map_append, List.nodup_append] at h
  intro hmem
  exact h.2.2 key hmem key List.mem_cons_self rfl

/-- A character that starts a named value or a number, as far as the reader can tell. -/
def StartsAtom (c : CodePoint) : Prop :=
  c.isJsonBlank = false ∧ c ∉ [CodePoint.quote, CodePoint.openBrace, CodePoint.openBracket,
    CodePoint.closeBracket]

instance (c : CodePoint) : Decidable (StartsAtom c) := inferInstanceAs (Decidable (_ ∧ _))

theorem startsAtom_of_digit {c : CodePoint} (h : c.isAsciiDigit = true) : StartsAtom c := by
  have hother : ∀ d ∈ [CodePoint.space, CodePoint.tab, CodePoint.newline,
      CodePoint.carriageReturn, CodePoint.quote, CodePoint.openBrace, CodePoint.openBracket,
      CodePoint.closeBracket], c ≠ d := by
    have hdigit : ∀ d ∈ [CodePoint.space, CodePoint.tab, CodePoint.newline,
        CodePoint.carriageReturn, CodePoint.quote, CodePoint.openBrace, CodePoint.openBracket,
        CodePoint.closeBracket], d.isAsciiDigit = false := by decide
    rintro d hd rfl
    rw [hdigit c hd] at h
    cases h
  simp only [List.forall_mem_cons, List.not_mem_nil, false_imp_iff, implies_true,
    and_true] at hother
  simp [StartsAtom, CodePoint.isJsonBlank, hother]

theorem exists_cons_decimalInt (n : Int) :
    ∃ c more, decimalInt n = c :: more ∧ StartsAtom c := by
  cases n with
  | ofNat n =>
      obtain ⟨c, more, hcons, hdigit⟩ := exists_cons_decimal n
      exact ⟨c, more, hcons, startsAtom_of_digit hdigit⟩
  | negSucc n => exact ⟨_, _, rfl, by decide⟩

/-- What is written for a value starts with no blank and no closing bracket. -/
theorem Json.Exact.exists_cons_render {value : Json} (h : value.Exact) :
    ∃ c more, value.render = c :: more ∧ c.isJsonBlank = false ∧ c ≠ CodePoint.closeBracket := by
  cases value with
  | null => exact ⟨_, _, rfl, by decide, by decide⟩
  | bool b => cases b <;> exact ⟨_, _, rfl, by decide, by decide⟩
  | int n =>
      obtain ⟨c, more, hcons, hblank, hbracket⟩ := exists_cons_decimalInt n
      refine ⟨c, more, hcons, hblank, ?_⟩
      rintro rfl
      exact hbracket (by decide)
  | real x => exact h.elim
  | str s => exact ⟨_, _, rfl, by decide, by decide⟩
  | arr elements => exact ⟨_, _, rfl, by decide, by decide⟩
  | obj members => exact ⟨_, _, rfl, by decide, by decide⟩

section Steps

variable {stack : List Parent} {rest : Text}

/-- The reader goes on as its step says. -/
theorem parseJsonFrom_next {expecting expecting' : Expecting} {c : CodePoint}
    {stack' : List Parent} {extra : Nat}
    (h : jsonStep stack expecting c rest = .next stack' expecting' extra) :
    parseJsonFrom stack expecting (c :: rest) =
      parseJsonFrom stack' expecting' (rest.drop extra) := by
  rw [parseJsonFrom, h]

theorem parseJsonFrom_next_char {expecting expecting' : Expecting} {c : CodePoint}
    {stack' : List Parent} (h : jsonStep stack expecting c rest = .next stack' expecting' 0) :
    parseJsonFrom stack expecting (c :: rest) = parseJsonFrom stack' expecting' rest :=
  parseJsonFrom_next h

theorem parseJsonFrom_atom {t : Text} {value : Json}
    (hstart : ∃ c more, t = c :: more ∧ StartsAtom c)
    (hscan : scanAtom? (t ++ rest) = some (value, t.length)) :
    parseJsonFrom stack .value (t ++ rest) = parseJsonFrom stack (.afterValue value) rest := by
  obtain ⟨c, more, rfl, hblank, hother⟩ := hstart
  simp only [List.mem_cons, List.not_mem_nil, or_false, not_or] at hother
  rw [List.cons_append] at hscan ⊢
  have hstep : jsonStep stack .value c (more ++ rest) =
      .next stack (.afterValue value) more.length := by
    simp [jsonStep, startValue, hblank, hother, hscan]
  rw [parseJsonFrom_next hstep, List.drop_left]

theorem parseJsonFrom_jsonString (s : Text) :
    parseJsonFrom stack .value (jsonString s ++ rest) =
      parseJsonFrom stack (.afterValue (.str s)) rest := by
  obtain ⟨length, htext, hscan, hdrop⟩ := scanJsonString_jsonString s rest
  have hblank : CodePoint.quote.isJsonBlank = false := by decide
  have hstep : jsonStep stack .value CodePoint.quote
      (s.flatMap jsonEscape ++ CodePoint.quote :: rest) =
        .next stack (.afterValue (.str s)) length := by
    simp [jsonStep, startValue, hblank, hscan]
  rw [htext, parseJsonFrom_next hstep, hdrop]

/-- A key is read together with its colon. -/
theorem parseJsonFrom_key (members : Members) (key : Text) :
    parseJsonFrom stack (.key members) (jsonString key ++ ":" ++ rest) =
      parseJsonFrom (.object members key :: stack) .value rest := by
  obtain ⟨length, htext, hscan, hdrop⟩ :=
    scanJsonString_jsonString key (CodePoint.colon :: rest)
  have hblank : CodePoint.quote.isJsonBlank = false := by decide
  have hkey : jsonStep stack (.key members) CodePoint.quote
      (key.flatMap jsonEscape ++ CodePoint.quote :: CodePoint.colon :: rest) =
        .next stack (.colon members key) length := by
    simp [jsonStep, hblank, hscan]
  have hsplit : jsonString key ++ ":" ++ rest = jsonString key ++ CodePoint.colon :: rest := by
    rw [List.append_assoc]
    rfl
  rw [hsplit, htext, parseJsonFrom_next hkey, hdrop]
  exact parseJsonFrom_next_char rfl

theorem parseJsonFrom_openBracket (h : stack.length < nestingLimit) :
    parseJsonFrom stack .value (CodePoint.openBracket :: rest) =
      parseJsonFrom stack .element rest := by
  have hstep := jsonStep_value_openBracket stack rest
  rw [if_pos h] at hstep
  exact parseJsonFrom_next_char hstep

theorem parseJsonFrom_openBrace (h : stack.length < nestingLimit) :
    parseJsonFrom stack .value (CodePoint.openBrace :: rest) =
      parseJsonFrom stack (.key []) rest := by
  have hstep : jsonStep stack .value CodePoint.openBrace rest =
      if stack.length < nestingLimit then .next stack (.key []) 0
      else .failed (.tooDeep .object) := rfl
  rw [if_pos h] at hstep
  exact parseJsonFrom_next_char hstep

/-- The first element of an array is read like any value. -/
theorem parseJsonFrom_element {value : Json} (h : value.Exact) :
    parseJsonFrom stack .element (value.render ++ rest) =
      parseJsonFrom (.array [] :: stack) .value (value.render ++ rest) := by
  obtain ⟨c, more, hcons, hblank, hbracket⟩ := h.exists_cons_render
  have hstep : jsonStep stack .element c (more ++ rest) =
      jsonStep (.array [] :: stack) .value c (more ++ rest) := by
    simp [jsonStep, hblank, hbracket]
  rw [hcons, List.cons_append, parseJsonFrom, hstep, ← parseJsonFrom]

/-! At a comma or a closing bracket the next character alone decides the step. -/

theorem parseJsonFrom_comma_array (elements : List Json) (value : Json) :
    parseJsonFrom (.array elements :: stack) (.afterValue value) (CodePoint.comma :: rest) =
      parseJsonFrom (.array (value :: elements) :: stack) .value rest :=
  parseJsonFrom_next_char rfl

theorem parseJsonFrom_close_array (elements : List Json) (value : Json) :
    parseJsonFrom (.array elements :: stack) (.afterValue value)
        (CodePoint.closeBracket :: rest) =
      parseJsonFrom stack (.afterValue (.arr (value :: elements).reverse)) rest :=
  parseJsonFrom_next_char rfl

theorem parseJsonFrom_close_element :
    parseJsonFrom stack .element (CodePoint.closeBracket :: rest) =
      parseJsonFrom stack (.afterValue (.arr [])) rest :=
  parseJsonFrom_next_char rfl

theorem parseJsonFrom_comma_object (members : Members) (key : Text) (value : Json) :
    parseJsonFrom (.object members key :: stack) (.afterValue value)
        (CodePoint.comma :: rest) =
      parseJsonFrom stack (.key (members.set key value)) rest :=
  parseJsonFrom_next_char rfl

theorem parseJsonFrom_close_object (members : Members) (key : Text) (value : Json) :
    parseJsonFrom (.object members key :: stack) (.afterValue value)
        (CodePoint.closeBrace :: rest) =
      parseJsonFrom stack (.afterValue (.obj (members.set key value))) rest :=
  parseJsonFrom_next_char rfl

theorem parseJsonFrom_close_key :
    parseJsonFrom stack (.key []) (CodePoint.closeBrace :: rest) =
      parseJsonFrom stack (.afterValue (.obj [])) rest :=
  parseJsonFrom_next_char rfl

end Steps

theorem exists_renderElements_cons (x : Json) (rest : List Json) :
    ∃ tail, renderElements (x :: rest) = x.render ++ tail := by
  cases rest with
  | nil => exact ⟨[], (List.append_nil x.render).symm⟩
  | cons y more => exact ⟨"," ++ renderElements (y :: more), by
      rw [renderElements_cons_cons, List.append_assoc]⟩

mutual

/-- Behind what was written for a value, the value is complete. -/
theorem parseJsonFrom_render : (value : Json) → value.Exact → (stack : List Parent) →
    stack.length + value.depth ≤ nestingLimit → (rest : Text) → FollowsValue rest →
    parseJsonFrom stack .value (value.render ++ rest) =
      parseJsonFrom stack (.afterValue value) rest
  | .null, _, _, _, _, _ => parseJsonFrom_atom ⟨_, _, rfl, by decide⟩ rfl
  | .bool true, _, _, _, _, _ => parseJsonFrom_atom ⟨_, _, rfl, by decide⟩ rfl
  | .bool false, _, _, _, _, _ => parseJsonFrom_atom ⟨_, _, rfl, by decide⟩ rfl
  | .int n, h, _, _, _, hrest =>
      parseJsonFrom_atom (exists_cons_decimalInt n) (scanAtom?_decimalInt h hrest)
  | .str s, _, _, _, _, _ => parseJsonFrom_jsonString s
  | .arr elements, h, stack, hdepth, rest, _ => by
      rw [Json.depth] at hdepth
      have hopen : stack.length < nestingLimit := by omega
      have htext : (Json.arr elements).render ++ rest = CodePoint.openBracket ::
          (renderElements elements ++ CodePoint.closeBracket :: rest) := by
        rw [Json.render, List.append_assoc, List.append_assoc]
        rfl
      rw [htext, parseJsonFrom_openBracket hopen]
      cases elements with
      | nil => exact parseJsonFrom_close_element
      | cons x more =>
          obtain ⟨tail, htail⟩ := exists_renderElements_cons x more
          have helements := parseJsonFrom_renderElements (x :: more) (List.cons_ne_nil x more) h
            [] stack (by omega) rest
          rw [htail, List.append_assoc] at helements ⊢
          exact (parseJsonFrom_element h.1).trans helements
  | .obj members, h, stack, hdepth, rest, _ => by
      rw [Json.depth] at hdepth
      have hopen : stack.length < nestingLimit := by omega
      have htext : (Json.obj members).render ++ rest = CodePoint.openBrace ::
          (renderMembers members ++ CodePoint.closeBrace :: rest) := by
        rw [Json.render, List.append_assoc, List.append_assoc]
        rfl
      rw [htext, parseJsonFrom_openBrace hopen]
      cases members with
      | nil => exact parseJsonFrom_close_key
      | cons first more =>
          exact parseJsonFrom_renderMembers (first :: more) (List.cons_ne_nil first more) h.2 []
            h.1 stack (by omega) rest

/-- Behind what was written for the elements of an array, its bracket completes it. -/
theorem parseJsonFrom_renderElements : (elements : List Json) → elements ≠ [] →
    elementsExact elements → (done : List Json) → (stack : List Parent) →
    stack.length + 1 + elementsDepth elements ≤ nestingLimit → (rest : Text) →
    parseJsonFrom (.array done :: stack) .value
        (renderElements elements ++ CodePoint.closeBracket :: rest) =
      parseJsonFrom stack (.afterValue (.arr (done.reverse ++ elements))) rest
  | [], hne, _, _, _, _, _ => absurd rfl hne
  | [x], _, h, done, stack, hdepth, rest => by
      have hx := parseJsonFrom_render x h.1 (.array done :: stack)
        (by rw [elementsDepth, elementsDepth] at hdepth; simpa using hdepth)
        (CodePoint.closeBracket :: rest) (followsValue_cons rest (by decide))
      rw [renderElements, hx, parseJsonFrom_close_array, List.reverse_cons]
  | x :: y :: more, _, h, done, stack, hdepth, rest => by
      rw [elementsDepth] at hdepth
      have hx := parseJsonFrom_render x h.1 (.array done :: stack)
        (by rw [List.length_cons]; omega)
        (CodePoint.comma :: (renderElements (y :: more) ++ CodePoint.closeBracket :: rest))
        (followsValue_cons _ (by decide))
      have hmore := parseJsonFrom_renderElements (y :: more) (List.cons_ne_nil y more) h.2
        (x :: done) stack (by omega) rest
      have htext : renderElements (x :: y :: more) ++ CodePoint.closeBracket :: rest =
          x.render ++ CodePoint.comma ::
            (renderElements (y :: more) ++ CodePoint.closeBracket :: rest) := by
        rw [renderElements_cons_cons, List.append_assoc, List.append_assoc]
        rfl
      rw [htext, hx, parseJsonFrom_comma_array, hmore, List.reverse_cons, List.append_assoc]
      rfl

/-- Behind what was written for the members of an object, its bracket completes it. -/
theorem parseJsonFrom_renderMembers : (members : List (Text × Json)) → members ≠ [] →
    membersExact members → (done : Members) → ((done ++ members).map (·.1)).Nodup →
    (stack : List Parent) → stack.length + 1 + membersDepth members ≤ nestingLimit →
    (rest : Text) →
    parseJsonFrom stack (.key done) (renderMembers members ++ CodePoint.closeBrace :: rest) =
      parseJsonFrom stack (.afterValue (.obj (done ++ members))) rest
  | [], hne, _, _, _, _, _, _ => absurd rfl hne
  | [(key, value)], _, h, done, hkeys, stack, hdepth, rest => by
      have hvalue := parseJsonFrom_render value h.2.1 (.object done key :: stack)
        (by rw [membersDepth, membersDepth] at hdepth; simpa using hdepth)
        (CodePoint.closeBrace :: rest) (followsValue_cons rest (by decide))
      rw [renderMembers, List.append_assoc, parseJsonFrom_key, hvalue,
        parseJsonFrom_close_object, Members.set_of_not_mem (key_not_mem_of_nodup hkeys)]
  | (key, value) :: second :: more, _, h, done, hkeys, stack, hdepth, rest => by
      rw [membersDepth] at hdepth
      have hvalue := parseJsonFrom_render value h.2.1 (.object done key :: stack)
        (by rw [List.length_cons]; omega)
        (CodePoint.comma :: (renderMembers (second :: more) ++ CodePoint.closeBrace :: rest))
        (followsValue_cons _ (by decide))
      have hlater : (((done ++ [(key, value)]) ++ second :: more).map (·.1)).Nodup := by
        rw [List.append_assoc]
        exact hkeys
      have hmore := parseJsonFrom_renderMembers (second :: more) (List.cons_ne_nil second more)
        h.2.2 (done ++ [(key, value)]) hlater stack (by omega) rest
      have htext : renderMembers ((key, value) :: second :: more) ++
            CodePoint.closeBrace :: rest =
          jsonString key ++ ":" ++ (value.render ++ CodePoint.comma ::
            (renderMembers (second :: more) ++ CodePoint.closeBrace :: rest)) := by
        rw [renderMembers_cons_cons]
        simp only [List.append_assoc]
        rfl
      rw [htext, parseJsonFrom_key, hvalue, parseJsonFrom_comma_object,
        Members.set_of_not_mem (key_not_mem_of_nodup hkeys), hmore, List.append_assoc]
      rfl

end

/-- A value is read back from its text. -/
theorem parseJson_render {value : Json} (h : value.Exact) (hdepth : value.depth ≤ nestingLimit) :
    parseJson value.render = .ok value := by
  have hread := parseJsonFrom_render value h [] (by rw [List.length_nil]; omega) []
    followsValue_nil
  rw [List.append_nil] at hread
  rw [parseJson, hread, parseJsonFrom]

/-- An object is read back from the payload that is written for it. -/
theorem decodeEnvelope_encodeEnvelope {members : Members} (h : (Json.obj members).Exact)
    (hdepth : (Json.obj members).depth ≤ nestingLimit) :
    encodeEnvelope (.obj members) =
        .ok ((Json.obj members).render.flatMap CodePoint.utf8) ∧
      decodeEnvelope ((Json.obj members).render.flatMap CodePoint.utf8) =
        .ok (some members) := by
  obtain ⟨hwritable, hencodable⟩ := (Json.encodable_iff_render _).mp (Json.Exact.encodable _ h)
  obtain ⟨hencode, hdecode⟩ := decodeUtf8_encodeUtf8 hencodable
  constructor
  · rw [encodeEnvelope, if_pos hwritable, hencode]
  · rw [decodeEnvelope, hdecode]
    simp only [parseJson_render h hdepth]

end VibeScript
