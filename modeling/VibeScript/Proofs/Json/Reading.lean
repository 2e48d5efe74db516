import VibeScript.Proofs.Json.RoundTrip
import VibeScript.Proofs.Json.Standard

/-!
Standard JSON is read as the value that it spells.

The reader goes from the start of a value to the state behind it, whatever is open around it
and whatever follows (`parseJsonFrom_spells`).  It fails only where a limit of its own is
exceeded: values nested too deeply, and integers of too many digits.
-/

namespace VibeScript

section Strings

theorem hexValue?_of_hexDigit {c : CodePoint} {d : Nat} (h : HexDigit c d) :
    c.hexValue? = some d := by
  have hlower : ∀ d < 16, (text "0123456789abcdef")[d]?.map (·.hexValue?) = some (some d) := by
    decide
  have hupper : ∀ d < 16, (text "0123456789ABCDEF")[d]?.map (·.hexValue?) = some (some d) := by
    decide
  rcases h with h | h
  · obtain ⟨hd, _⟩ := List.getElem?_eq_some_iff.mp h
    have hvalue := hlower d hd
    rw [h] at hvalue
    exact Option.some.inj hvalue
  · obtain ⟨hd, _⟩ := List.getElem?_eq_some_iff.mp h
    have hvalue := hupper d hd
    rw [h] at hvalue
    exact Option.some.inj hvalue

/-- The four digits of an escape are read as its number. -/
theorem exists_escape_of_spellsUnit {n : Nat} {t : Text} (h : SpellsUnit n t) :
    ∃ digits, t = CodePoint.backslash :: CodePoint.ofChar 'u' :: digits ∧ digits.length = 4 ∧
      ∀ rest, fourHex? (digits ++ rest) = some n := by
  cases h with
  | @intro a b c d i j k l ha hb hc hd =>
      refine ⟨[a, b, c, d], rfl, rfl, fun rest => ?_⟩
      simp [fourHex?, hexValue?_of_hexDigit ha, hexValue?_of_hexDigit hb,
        hexValue?_of_hexDigit hc, hexValue?_of_hexDigit hd]

/-- An escape of four digits is read as one character, or as half a pair if it is one. -/
theorem jsonUnescape?_four {n : Nat} {t rest : Text} (h : fourHex? t = some n)
    (hdrop : t.drop 4 = rest) :
    jsonUnescape? (CodePoint.ofChar 'u' :: t) =
      if (CodePoint.ofNat n).isHighSurrogate then
        match lowSurrogateEscape? rest with
        | some low => some (joinSurrogates (CodePoint.ofNat n) low, 11)
        | none => some (CodePoint.ofNat n, 5)
      else some (CodePoint.ofNat n, 5) := by
  have hother : ∀ d ∈ ([CodePoint.quote, CodePoint.backslash, '/', 'b', 'f', 'n', 'r', 't'] :
      List CodePoint), CodePoint.ofChar 'u' ≠ d := by decide
  simp only [List.forall_mem_cons, List.not_mem_nil, false_imp_iff, implies_true, and_true]
    at hother
  cases hhigh : (CodePoint.ofNat n).isHighSurrogate with
  | false => simp [jsonUnescape?, hother, h, hhigh]
  | true =>
      cases hlow : lowSurrogateEscape? rest <;>
        simp [jsonUnescape?, hother, h, hdrop, hhigh, hlow]

theorem isHighSurrogate_of_not_surrogate {c : CodePoint} (h : c.isSurrogate = false) :
    c.isHighSurrogate = false := by
  simp only [CodePoint.isSurrogate, CodePoint.isHighSurrogate, Bool.and_eq_false_iff,
    decide_eq_false_iff_not] at h ⊢
  omega

/-- A character is read from whatever spells it. -/
theorem scanJsonString_spellsChar {c : CodePoint} {t : Text} (h : SpellsChar c t)
    (done : Text) (length : Nat) (rest : Text) :
    scanJsonString done length (t ++ rest) =
      scanJsonString (c :: done) (length + t.length) rest := by
  cases h with
  | plain hcontrol hquote hbackslash =>
      rw [List.singleton_append, scanJsonString, if_neg hquote, if_neg hbackslash,
        if_neg (Nat.not_lt.mpr hcontrol)]
      rfl
  | @short letter _ hmem =>
      have hescape : jsonUnescape? (letter :: rest) = some (c, 1) := by
        simp only [shortEscapes, List.mem_cons, Prod.mk.injEq, List.not_mem_nil, or_false] at hmem
        rcases hmem with ⟨rfl, rfl⟩ | ⟨rfl, rfl⟩ | ⟨rfl, rfl⟩ | ⟨rfl, rfl⟩ | ⟨rfl, rfl⟩ |
          ⟨rfl, rfl⟩ | ⟨rfl, rfl⟩ | ⟨rfl, rfl⟩ <;> rfl
      exact @scanJsonString_escape c c 1 [letter] rest hescape rfl rfl done length
  | unit hunit hwhole =>
      obtain ⟨digits, rfl, hlength, hdigits⟩ := exists_escape_of_spellsUnit hunit
      have hescape := jsonUnescape?_four (hdigits rest) (List.drop_left' hlength)
      rw [isHighSurrogate_of_not_surrogate hwhole] at hescape
      exact scanJsonString_escape hescape (by simp [hlength]) rfl done length
  | @pair high low _ _ ht hu hhigh hlow =>
      obtain ⟨first, rfl, hfirst, hfirstDigits⟩ := exists_escape_of_spellsUnit ht
      obtain ⟨second, rfl, hsecond, hsecondDigits⟩ := exists_escape_of_spellsUnit hu
      have hhighValue : (CodePoint.ofNat high).val = high := CodePoint.val_ofNat (by omega)
      have hlowValue : (CodePoint.ofNat low).val = low := CodePoint.val_ofNat (by omega)
      have hlowEscape : lowSurrogateEscape?
          (CodePoint.backslash :: CodePoint.ofChar 'u' :: second ++ rest) =
            some (CodePoint.ofNat low) := by
        simp [lowSurrogateEscape?, hsecondDigits, CodePoint.isLowSurrogate, hlowValue, hlow]
      have hescape := jsonUnescape?_four
        (hfirstDigits (CodePoint.backslash :: CodePoint.ofChar 'u' :: second ++ rest))
        (List.drop_left' hfirst)
      have hishigh : (CodePoint.ofNat high).isHighSurrogate = true := by
        simp [CodePoint.isHighSurrogate, hhighValue, hhigh]
      rw [if_pos hishigh, hlowEscape] at hescape
      have hjoined : joinSurrogates (CodePoint.ofNat high) (CodePoint.ofNat low) =
          CodePoint.ofNat (0x10000 + (high - 0xD800) * 0x400 + (low - 0xDC00)) := by
        rw [joinSurrogates, hhighValue, hlowValue]
      exact @scanJsonString_escape _ _ 11
        (CodePoint.ofChar 'u' :: first ++ (CodePoint.backslash :: CodePoint.ofChar 'u' :: second))
        rest (by simpa using hescape) (by simp [hfirst, hsecond]) hjoined done length

/-- The characters of a string are read one after the other. -/
theorem scanJsonString_spellsChars {s t : Text} (h : SpellsChars s t) (done : Text)
    (length : Nat) (rest : Text) :
    scanJsonString done length (t ++ rest) =
      scanJsonString (s.reverse ++ done) (length + t.length) rest := by
  induction h generalizing done length with
  | nil => rfl
  | @cons c s t u hc _ ih =>
      rw [List.append_assoc, scanJsonString_spellsChar hc, ih, List.reverse_cons,
        List.append_assoc, List.length_append, Nat.add_assoc]
      rfl

/-- What follows the opening quotation mark of a string is read as the string, up to the
closing quotation mark. -/
theorem scanJsonString_spellsString {s t : Text} (h : SpellsString s t) (rest : Text) :
    ∃ inner length, t ++ rest = CodePoint.quote :: inner ∧
      scanJsonString [] 0 inner = some (s, length) ∧ inner.drop length = rest := by
  cases h with
  | @intro t h =>
      have hinner : t ++ [CodePoint.quote] ++ rest = t ++ CodePoint.quote :: rest := by simp
      refine ⟨t ++ [CodePoint.quote] ++ rest, (t ++ [CodePoint.quote]).length, rfl, ?_,
        List.drop_left⟩
      rw [hinner, scanJsonString_spellsChars h, scanJsonString, if_pos rfl]
      simp

end Strings

mutual

/-- The value that is read of a tree without merging its members. -/
def JsonTree.read : JsonTree NumberLiteral → Json
  | .null => .null
  | .bool value => .bool value
  | .number n => n.read
  | .str value => .str value
  | .arr elements => .arr (readElements elements)
  | .obj members => .obj (readMembers members)

def readElements : List (JsonTree NumberLiteral) → List Json
  | [] => []
  | x :: rest => x.read :: readElements rest

def readMembers : List (Text × JsonTree NumberLiteral) → List (Text × Json)
  | [] => []
  | (key, value) :: rest => (key, value.read) :: readMembers rest

end

mutual

/-- Whether a value is within the limits of the reader: its arrays and objects fit into the
room that is left for them, and its integers do not have too many digits. -/
def JsonTree.Within (room : Nat) : JsonTree NumberLiteral → Prop
  | .number n => n.Short
  | .arr elements => 0 < room ∧ elementsWithin (room - 1) elements
  | .obj members => 0 < room ∧ membersWithin (room - 1) members
  | _ => True

def elementsWithin (room : Nat) : List (JsonTree NumberLiteral) → Prop
  | [] => True
  | x :: rest => x.Within room ∧ elementsWithin room rest

def membersWithin (room : Nat) : List (Text × JsonTree NumberLiteral) → Prop
  | [] => True
  | (_, value) :: rest => value.Within room ∧ membersWithin room rest

end

theorem readMembers_eq_map (members : List (Text × JsonTree NumberLiteral)) :
    readMembers members = members.map (Prod.map id JsonTree.read) := by
  induction members with
  | nil => rfl
  | cons first rest ih => rw [readMembers, ih, List.map_cons, Prod.map, id]

theorem JsonTree.read_merged_obj (members : List (Text × JsonTree NumberLiteral)) :
    (JsonTree.obj members).merged.read =
      .obj (mergeMembers (readMembers (mergedMembers members))) := by
  rw [JsonTree.merged, JsonTree.read, readMembers_eq_map, ← mergeMembers_map,
    ← readMembers_eq_map]

/-- A reading comes to what another one does if a limit is kept, and it fails otherwise. -/
def ComesTo (limit : Prop) (reading target : Except JsonError Json) : Prop :=
  (limit → reading = target) ∧ (¬ limit → ∃ error, reading = .error error)

namespace ComesTo

variable {P Q : Prop} {first second third : Except JsonError Json}

theorem of_eq (h : first = second) : ComesTo True first second :=
  ⟨fun _ => h, fun hfalse => absurd trivial hfalse⟩

/-- The limits of two readings, one after the other, are kept together or not at all. -/
theorem trans (h : ComesTo P first second) (h' : P → ComesTo Q second third) :
    ComesTo (P ∧ Q) first third := by
  by_cases hp : P
  · have heq : first = second := h.1 hp
    constructor
    · intro hboth
      exact heq.trans ((h' hp).1 hboth.2)
    · intro hboth
      obtain ⟨error, herror⟩ := (h' hp).2 fun hq => hboth ⟨hp, hq⟩
      exact ⟨error, heq.trans herror⟩
  · exact ⟨fun hboth => absurd hboth.1 hp, fun _ => h.2 hp⟩

/-- A step that keeps no limit of its own may come first. -/
theorem of_eq_left (heq : first = second) (h : ComesTo P second third) :
    ComesTo P first third := by
  rw [heq]
  exact h

theorem of_eq_right (h : ComesTo P first second) (heq : second = third) :
    ComesTo P first third := by
  rw [← heq]
  exact h

end ComesTo

/-- A text that may follow a value, with blanks before its end or the next mark. -/
def EndsValue (t : Text) : Prop :=
  ∀ c ∈ t.head?, c ∈ [CodePoint.space, CodePoint.tab, CodePoint.newline,
    CodePoint.carriageReturn, CodePoint.comma, CodePoint.closeBracket, CodePoint.closeBrace]

theorem endsValue_nil : EndsValue [] := fun _ h => by cases h

theorem EndsValue.endsLiteral {t : Text} (h : EndsValue t) : EndsLiteral t := by
  have hall : ∀ c ∈ [CodePoint.space, CodePoint.tab, CodePoint.newline,
      CodePoint.carriageReturn, CodePoint.comma, CodePoint.closeBracket, CodePoint.closeBrace],
      c.isAsciiDigit = false ∧
        c ∉ [CodePoint.ofChar '.', CodePoint.ofChar 'e', CodePoint.ofChar 'E'] := by decide
  exact fun c hc => hall c (h c hc)

/-- Blanks may stand before the mark behind a value. -/
theorem endsValue_blank_append {blank rest : Text} (hblank : IsBlank blank)
    (hrest : EndsValue rest) : EndsValue (blank ++ rest) := by
  cases blank with
  | nil => exact hrest
  | cons c more =>
      intro d hd
      obtain rfl : c = d := Option.some.inj hd
      have hmem := hblank c List.mem_cons_self
      simp only [List.mem_cons, List.not_mem_nil, or_false] at hmem ⊢
      tauto

theorem endsValue_cons {c : CodePoint} (rest : Text)
    (h : c ∈ [CodePoint.comma, CodePoint.closeBracket, CodePoint.closeBrace]) :
    EndsValue (c :: rest) := by
  intro d hd
  obtain rfl : c = d := Option.some.inj hd
  exact List.mem_append_right [CodePoint.space, CodePoint.tab, CodePoint.newline,
    CodePoint.carriageReturn] h

section Steps

variable {stack : List Parent} {rest : Text}

/-- Blanks change nothing, wherever the reader stands. -/
theorem parseJsonFrom_blank {blank : Text} (h : IsBlank blank) (expecting : Expecting) :
    parseJsonFrom stack expecting (blank ++ rest) = parseJsonFrom stack expecting rest := by
  have hall : ∀ c ∈ [CodePoint.space, CodePoint.tab, CodePoint.newline,
      CodePoint.carriageReturn], c.isJsonBlank = true := by decide
  induction blank with
  | nil => rfl
  | cons c more ih =>
      have hc : c.isJsonBlank = true := hall c (h c List.mem_cons_self)
      have hstep : jsonStep stack expecting c (more ++ rest) = .next stack expecting 0 := by
        simp [jsonStep, hc]
      rw [List.cons_append, parseJsonFrom_next_char hstep]
      exact ih fun d hd => h d (List.mem_cons_of_mem c hd)

/-- A string is read from whatever spells it. -/
theorem parseJsonFrom_string {s t : Text} (h : SpellsString s t) :
    parseJsonFrom stack .value (t ++ rest) = parseJsonFrom stack (.afterValue (.str s)) rest := by
  obtain ⟨inner, length, htext, hscan, hdrop⟩ := scanJsonString_spellsString h rest
  have hblank : CodePoint.quote.isJsonBlank = false := by decide
  have hstep : jsonStep stack .value CodePoint.quote inner =
      .next stack (.afterValue (.str s)) length := by
    simp [jsonStep, startValue, hblank, hscan]
  rw [htext, parseJsonFrom_next hstep, hdrop]

/-- A key is read together with its colon and the blanks around it. -/
theorem parseJsonFrom_keyString {key k behind ahead : Text} (h : SpellsString key k)
    (hbehind : IsBlank behind) (hahead : IsBlank ahead) (members : Members) :
    parseJsonFrom stack (.key members) (k ++ (behind ++ CodePoint.colon :: (ahead ++ rest))) =
      parseJsonFrom (.object members key :: stack) .value rest := by
  obtain ⟨inner, length, htext, hscan, hdrop⟩ :=
    scanJsonString_spellsString h (behind ++ CodePoint.colon :: (ahead ++ rest))
  have hblank : CodePoint.quote.isJsonBlank = false := by decide
  have hkey : jsonStep stack (.key members) CodePoint.quote inner =
      .next stack (.colon members key) length := by
    simp [jsonStep, hblank, hscan]
  have hcolon : parseJsonFrom stack (.colon members key) (CodePoint.colon :: (ahead ++ rest)) =
      parseJsonFrom (.object members key :: stack) .value (ahead ++ rest) :=
    parseJsonFrom_next_char rfl
  rw [htext, parseJsonFrom_next hkey, hdrop, parseJsonFrom_blank hbehind, hcolon,
    parseJsonFrom_blank hahead]

/-- An array or an object is opened if there is room for it. -/
theorem parseJsonFrom_open {c : CodePoint} {inside : Expecting}
    (h : c = CodePoint.openBracket ∧ inside = .element ∨
      c = CodePoint.openBrace ∧ inside = .key []) :
    ComesTo (0 < nestingLimit - stack.length) (parseJsonFrom stack .value (c :: rest))
      (parseJsonFrom stack inside rest) := by
  rcases h with ⟨rfl, rfl⟩ | ⟨rfl, rfl⟩
  · refine ⟨fun hroom => parseJsonFrom_openBracket (by omega), fun hroom => ?_⟩
    have hstep := jsonStep_value_openBracket stack rest
    rw [if_neg (by omega)] at hstep
    exact ⟨.tooDeep .array, by rw [parseJsonFrom, hstep]⟩
  · refine ⟨fun hroom => parseJsonFrom_openBrace (by omega), fun hroom => ?_⟩
    have hstep : jsonStep stack .value CodePoint.openBrace rest =
        if stack.length < nestingLimit then .next stack (.key []) 0
        else .failed (.tooDeep .object) := rfl
    rw [if_neg (by omega)] at hstep
    exact ⟨.tooDeep .object, by rw [parseJsonFrom, hstep]⟩

/-- A number is read if it is not an integer of too many digits. -/
theorem parseJsonFrom_number (n : NumberLiteral) (hrest : EndsValue rest) :
    ComesTo n.Short (parseJsonFrom stack .value (n.text ++ rest))
      (parseJsonFrom stack (.afterValue n.read) rest) := by
  have hscan := n.scanAtom?_text hrest.endsLiteral
  have hstart : ∃ c more, n.text = c :: more ∧ StartsAtom c := by
    obtain ⟨c, more, htext, hc⟩ := n.exists_cons_text
    refine ⟨c, more, htext, ?_⟩
    rcases hc with rfl | hdigit
    · decide
    · exact startsAtom_of_digit hdigit
  constructor
  · intro hshort
    rw [if_pos hshort] at hscan
    exact parseJsonFrom_atom hstart hscan
  · intro hlong
    obtain ⟨c, more, htext, hblank, hother⟩ := hstart
    simp only [List.mem_cons, List.not_mem_nil, or_false, not_or] at hother
    rw [if_neg hlong, htext, List.cons_append] at hscan
    have hstep : jsonStep stack .value c (more ++ rest) = .failed .malformed := by
      simp [jsonStep, startValue, hblank, hother, hscan]
    rw [htext, List.cons_append, parseJsonFrom, hstep]
    exact ⟨_, rfl⟩

end Steps

/-- What spells a value starts with no blank and no closing bracket. -/
theorem Spells.exists_cons {tree : JsonTree NumberLiteral} {t : Text} (h : Spells tree t) :
    ∃ c more, t = c :: more ∧ c.isJsonBlank = false ∧ c ≠ CodePoint.closeBracket := by
  cases h with
  | number n =>
      obtain ⟨c, more, htext, hc⟩ := n.exists_cons_text
      refine ⟨c, more, htext, ?_⟩
      rcases hc with rfl | hdigit
      · decide
      · obtain ⟨hblank, hother⟩ := startsAtom_of_digit hdigit
        refine ⟨hblank, ?_⟩
        rintro rfl
        exact hother (by decide)
  | str h => cases h; exact ⟨_, _, rfl, by decide, by decide⟩
  | _ => exact ⟨_, _, rfl, by decide, by decide⟩

/-- The first element of an array is read like any value. -/
theorem parseJsonFrom_element_spells {elements : List (JsonTree NumberLiteral)} {t : Text}
    (h : SpellsElements elements t) (stack : List Parent) (rest : Text) :
    parseJsonFrom stack .element (t ++ rest) =
      parseJsonFrom (.array [] :: stack) .value (t ++ rest) := by
  have hvalue : ∀ {x : JsonTree NumberLiteral} {before t : Text}, IsBlank before →
      Spells x t → ∀ rest, parseJsonFrom stack .element (before ++ (t ++ rest)) =
        parseJsonFrom (.array [] :: stack) .value (before ++ (t ++ rest)) := by
    intro x before t hbefore hx rest
    obtain ⟨c, more, rfl, hblank, hbracket⟩ := hx.exists_cons
    have hstep : jsonStep stack .element c (more ++ rest) =
        jsonStep (.array [] :: stack) .value c (more ++ rest) := by
      simp [jsonStep, hblank, hbracket]
    rw [parseJsonFrom_blank hbefore, parseJsonFrom_blank hbefore, List.cons_append,
      parseJsonFrom, hstep, ← parseJsonFrom]
  cases h with
  | last hbefore hx _ =>
      rw [List.append_assoc, List.append_assoc]
      exact hvalue hbefore hx _
  | more hbefore hx _ _ =>
      rw [List.append_assoc, List.append_assoc]
      exact hvalue hbefore hx _

mutual

/-- Behind what spells a value, the value is complete, within the limits of the reader. -/
theorem parseJsonFrom_spells : (tree : JsonTree NumberLiteral) → {t : Text} → Spells tree t →
    (stack : List Parent) → {rest : Text} → EndsValue rest →
    ComesTo (tree.Within (nestingLimit - stack.length))
      (parseJsonFrom stack .value (t ++ rest))
      (parseJsonFrom stack (.afterValue tree.merged.read) rest)
  | .null, _, h, _, _, _ => by
      cases h
      exact .of_eq (parseJsonFrom_atom ⟨_, _, rfl, by decide⟩ rfl)
  | .bool value, _, h, _, _, _ => by
      cases h <;> exact .of_eq (parseJsonFrom_atom ⟨_, _, rfl, by decide⟩ rfl)
  | .number n, _, h, _, _, hrest => by
      cases h
      exact parseJsonFrom_number n hrest
  | .str s, _, h, _, _, _ => by
      cases h with
      | str h => exact .of_eq (parseJsonFrom_string h)
  | .arr elements, _, h, stack, rest, _ => by
      cases h with
      | @emptyArray t hblank =>
          have hinner : parseJsonFrom stack .element (t ++ CodePoint.closeBracket :: rest) =
              parseJsonFrom stack (.afterValue (.arr [])) rest := by
            rw [parseJsonFrom_blank hblank, parseJsonFrom_close_element]
          rw [List.cons_append, List.append_assoc]
          exact (parseJsonFrom_open (.inl ⟨rfl, rfl⟩)).trans fun _ => .of_eq hinner
      | @arr _ t helements =>
          have hinner := parseJsonFrom_spellsElements elements helements [] stack rest
          rw [List.cons_append, List.append_assoc]
          refine (parseJsonFrom_open (.inl ⟨rfl, rfl⟩)).trans fun _ => .of_eq_left ?_ hinner
          exact parseJsonFrom_element_spells helements stack _
  | .obj members, _, h, stack, rest, _ => by
      rw [JsonTree.read_merged_obj]
      cases h with
      | @emptyObject t hblank =>
          have hinner : parseJsonFrom stack (.key []) (t ++ CodePoint.closeBrace :: rest) =
              parseJsonFrom stack (.afterValue (.obj [])) rest := by
            rw [parseJsonFrom_blank hblank, parseJsonFrom_close_key]
          rw [List.cons_append, List.append_assoc]
          exact (parseJsonFrom_open (.inr ⟨rfl, rfl⟩)).trans fun _ => .of_eq hinner
      | @obj _ t hmembers =>
          have hinner := parseJsonFrom_spellsMembers members hmembers [] stack rest
          rw [List.cons_append, List.append_assoc]
          exact (parseJsonFrom_open (.inr ⟨rfl, rfl⟩)).trans fun _ => hinner

/-- Behind what spells the elements of an array, its bracket completes it. -/
theorem parseJsonFrom_spellsElements : (elements : List (JsonTree NumberLiteral)) →
    {t : Text} → SpellsElements elements t → (done : List Json) → (stack : List Parent) →
    (rest : Text) →
    ComesTo (elementsWithin (nestingLimit - stack.length - 1) elements)
      (parseJsonFrom (.array done :: stack) .value (t ++ CodePoint.closeBracket :: rest))
      (parseJsonFrom stack
        (.afterValue (.arr (done.reverse ++ readElements (mergedElements elements)))) rest)
  | [], _, h, _, _, _ => by cases h
  | x :: more, _, h, done, stack, rest => by
      have hroom : nestingLimit - (Parent.array done :: stack).length =
          nestingLimit - stack.length - 1 := by rw [List.length_cons]; omega
      cases h with
      | @last _ before t after hbefore hx hafter =>
          have hvalue := parseJsonFrom_spells x hx (.array done :: stack)
            (endsValue_blank_append hafter
              (endsValue_cons (c := CodePoint.closeBracket) rest (by decide)))
          rw [hroom] at hvalue
          refine .trans (.of_eq_left ?_ hvalue) fun _ => .of_eq ?_
          · simp only [List.append_assoc]
            exact parseJsonFrom_blank hbefore _
          · rw [parseJsonFrom_blank hafter, parseJsonFrom_close_array, List.reverse_cons]
            rfl
      | @more _ _ before t after u hbefore hx hafter hmore =>
          have hvalue := parseJsonFrom_spells x hx (.array done :: stack)
            (endsValue_blank_append hafter (endsValue_cons (c := CodePoint.comma)
              (u ++ CodePoint.closeBracket :: rest) (by decide)))
          have hrest := parseJsonFrom_spellsElements more hmore (x.merged.read :: done) stack rest
          rw [hroom] at hvalue
          rw [List.reverse_cons, List.append_assoc] at hrest
          refine .trans (.of_eq_left ?_ hvalue) fun _ => .of_eq_left ?_ hrest
          · simp only [List.append_assoc, List.cons_append]
            exact parseJsonFrom_blank hbefore _
          · rw [parseJsonFrom_blank hafter, parseJsonFrom_comma_array]

/-- Behind what spells the members of an object, its bracket completes it. -/
theorem parseJsonFrom_spellsMembers : (members : List (Text × JsonTree NumberLiteral)) →
    {t : Text} → SpellsMembers members t → (done : Members) → (stack : List Parent) →
    (rest : Text) →
    ComesTo (membersWithin (nestingLimit - stack.length - 1) members)
      (parseJsonFrom stack (.key done) (t ++ CodePoint.closeBrace :: rest))
      (parseJsonFrom stack (.afterValue (.obj ((readMembers (mergedMembers members)).foldl
        (fun done member => setMember done member.1 member.2) done))) rest)
  | [], _, h, _, _, _ => by cases h
  | (key, x) :: more, _, h, done, stack, rest => by
      have hroom : nestingLimit - (Parent.object done key :: stack).length =
          nestingLimit - stack.length - 1 := by rw [List.length_cons]; omega
      cases h with
      | last hbefore hkey hbehind hahead hx hafter =>
          have hvalue := parseJsonFrom_spells x hx (.object done key :: stack)
            (endsValue_blank_append hafter
              (endsValue_cons (c := CodePoint.closeBrace) rest (by decide)))
          rw [hroom] at hvalue
          refine .trans (.of_eq_left ?_ hvalue) fun _ => .of_eq ?_
          · simp only [List.append_assoc, List.cons_append]
            rw [parseJsonFrom_blank hbefore, parseJsonFrom_keyString hkey hbehind hahead]
          · rw [parseJsonFrom_blank hafter, parseJsonFrom_close_object,
              Members.set_eq_setMember]
            rfl
      | @more _ _ _ before k behind ahead t after u hbefore hkey hbehind hahead hx hafter
          hmore =>
          have hvalue := parseJsonFrom_spells x hx (.object done key :: stack)
            (endsValue_blank_append hafter (endsValue_cons (c := CodePoint.comma)
              (u ++ CodePoint.closeBrace :: rest) (by decide)))
          have hrest := parseJsonFrom_spellsMembers more hmore
            (setMember done key x.merged.read) stack rest
          rw [hroom] at hvalue
          refine .trans (.of_eq_left ?_ hvalue) fun _ => .of_eq_left ?_ hrest
          · simp only [List.append_assoc, List.cons_append]
            rw [parseJsonFrom_blank hbefore, parseJsonFrom_keyString hkey hbehind hahead]
          · rw [parseJsonFrom_blank hafter, parseJsonFrom_comma_object,
              Members.set_eq_setMember]

end

/-- Standard JSON is read as the value that it stands for, within the limits of the reader. -/
theorem parseJson_spells {tree : JsonTree NumberLiteral} {t : Text} (h : SpellsText tree t) :
    ComesTo (tree.Within nestingLimit) (parseJson t) (.ok tree.merged.read) := by
  obtain ⟨before, inner, after, hbefore, hinner, hafter, rfl⟩ := h
  have hread := parseJsonFrom_spells tree hinner []
    (endsValue_blank_append hafter endsValue_nil)
  rw [List.append_nil] at hread
  refine .of_eq_left ?_ (hread.of_eq_right ?_)
  · exact parseJsonFrom_blank hbefore _
  · have hend : parseJsonFrom [] (.afterValue tree.merged.read) (after ++ []) =
        parseJsonFrom [] (.afterValue tree.merged.read) [] := parseJsonFrom_blank hafter _
    rw [List.append_nil] at hend
    rw [hend, parseJsonFrom]

/-- The envelope in a payload of standard JSON is the object that it stands for. -/
theorem decodeEnvelope_spells {tree : JsonTree NumberLiteral} {payload : Bytes}
    {envelope : Members} (h : SpellsPayload tree payload)
    (hdecode : decodeEnvelope payload = .ok (some envelope)) :
    tree.merged.read = .obj envelope := by
  obtain ⟨t, htext, hspells⟩ := h
  have hparse := parseJson_spells hspells
  simp only [decodeEnvelope, htext] at hdecode
  by_cases hwithin : tree.Within nestingLimit
  · rw [hparse.1 hwithin] at hdecode
    cases hvalue : tree.merged.read <;> simp_all
  · obtain ⟨error, herror⟩ := hparse.2 hwithin
    rw [herror] at hdecode
    cases error <;> simp at hdecode

/-- The members that are read of an object. -/
theorem JsonTree.get?_of_read {tree : JsonTree NumberLiteral} {members : Members}
    (h : tree.read = .obj members) (key : Text) :
    members.get? key = (tree.member? key).map JsonTree.read := by
  cases tree with
  | obj trees =>
      rw [JsonTree.read, Json.obj.injEq, readMembers_eq_map] at h
      rw [JsonTree.member?, ← h, Members.get?, List.find?_map, Option.map_map, Option.map_map]
      rfl
  | number n =>
      rw [JsonTree.read, NumberLiteral.read] at h
      split at h <;> cases h
  | _ => cases h

end VibeScript
