import VibeScript.Proofs.Json.Encoding
import VibeScript.Proofs.Json.Standard
import VibeScript.Proofs.Number.Written
import VibeScript.Proofs.Text.Utf8

/-!
What is written of a value is standard JSON exactly if all its doubles are finite.

Such a value is spelled with its integers exact and its doubles as their shortest digits
(`Json.exists_spells_render`).  The names of the other doubles have capitals outside of strings,
and standard JSON has none there (`Json.through?_render`).
-/

namespace VibeScript

section Strings

theorem hexDigit_hexChar {d : Nat} (h : d < 16) : HexDigit (hexChar d) d := by
  have hall : ∀ d < 16, (text "0123456789abcdef")[d]? = some (hexChar d) := by decide
  exact .inl (hall d h)

/-- An escape of four digits spells its number. -/
theorem spellsUnit_hexadecimal {n : Nat} (h : n < 65536) :
    SpellsUnit n (CodePoint.backslash :: CodePoint.ofChar 'u' :: hexadecimal 4 n) := by
  have hdigit (m : Nat) : HexDigit (hexChar (m % 16)) (m % 16) :=
    hexDigit_hexChar (Nat.mod_lt m (by decide))
  have hspells := SpellsUnit.intro (hdigit (n / 16 / 16 / 16)) (hdigit (n / 16 / 16))
    (hdigit (n / 16)) (hdigit n)
  have hvalue : ((n / 16 / 16 / 16 % 16 * 16 + n / 16 / 16 % 16) * 16 + n / 16 % 16) * 16 +
      n % 16 = n := by omega
  rw [hvalue] at hspells
  exact hspells

/-- A character is spelled by its escape. -/
theorem spellsChar_jsonEscape (c : CodePoint) : SpellsChar c (jsonEscape c) := by
  unfold jsonEscape
  split
  case isTrue hquote => rw [hquote]; exact .short (by decide)
  case isFalse hquote =>
  split
  case isTrue hbackslash => rw [hbackslash]; exact .short (by decide)
  case isFalse hbackslash =>
  split
  case isTrue hplain => exact .plain hplain hquote hbackslash
  case isFalse hcontrol =>
    have hself {n : Nat} (h : c.val = n) (hn : n < 0x110000) : CodePoint.ofNat n = c :=
      CodePoint.ext_val ((CodePoint.val_ofNat hn).trans h.symm)
    -- the control characters with an escape of one letter, and then all others
    split
    case isTrue h => rw [← hself h (by decide)]; exact .short (by decide)
    split
    case isTrue h => rw [← hself h (by decide)]; exact .short (by decide)
    split
    case isTrue h => rw [← hself h (by decide)]; exact .short (by decide)
    split
    case isTrue h => rw [← hself h (by decide)]; exact .short (by decide)
    split
    case isTrue h => rw [← hself h (by decide)]; exact .short (by decide)
    have hwhole : (CodePoint.ofNat c.val).isSurrogate = false := by
      rw [hself rfl c.val_lt]
      simp only [CodePoint.isSurrogate, Bool.and_eq_false_iff, decide_eq_false_iff_not]
      omega
    have hspells := SpellsChar.unit (spellsUnit_hexadecimal (n := c.val) (by omega)) hwhole
    rw [hself rfl c.val_lt] at hspells
    exact hspells

theorem spellsChars_flatMap (s : Text) : SpellsChars s (s.flatMap jsonEscape) := by
  induction s with
  | nil => exact .nil
  | cons c rest ih =>
      rw [List.flatMap_cons]
      exact .cons (spellsChar_jsonEscape c) ih

/-- A string is spelled by what is written for it. -/
theorem spellsString_jsonString (s : Text) : SpellsString s (jsonString s) :=
  .intro (spellsChars_flatMap s)

end Strings

mutual

/-- The value that is written, with the numbers that its literals denote. -/
def Json.denoted : Json → JsonTree ℚ
  | .null => .null
  | .bool value => .bool value
  | .int n => .number n
  | .real x => .number x.writtenValue
  | .str value => .str value
  | .arr elements => .arr (elementsDenoted elements)
  | .obj members => .obj (membersDenoted members)

def elementsDenoted : List Json → List (JsonTree ℚ)
  | [] => []
  | x :: rest => x.denoted :: elementsDenoted rest

def membersDenoted : List (Text × Json) → List (Text × JsonTree ℚ)
  | [] => []
  | (key, value) :: rest => (key, value.denoted) :: membersDenoted rest

end

def Binary64.isFinite : Binary64 → Bool
  | .finite _ _ => true
  | _ => false

mutual

/-- Whether all doubles in a value are finite. -/
def Json.isFinite : Json → Bool
  | .real x => x.isFinite
  | .arr elements => elementsFinite elements
  | .obj members => membersFinite members
  | _ => true

def elementsFinite : List Json → Bool
  | [] => true
  | x :: rest => x.isFinite && elementsFinite rest

def membersFinite : List (Text × Json) → Bool
  | [] => true
  | (_, value) :: rest => value.isFinite && membersFinite rest

end

section Blanks

variable {x : JsonTree NumberLiteral} {t u : Text}

theorem isBlank_nil : IsBlank [] := fun _ hc => by cases hc

theorem Spells.spellsText (h : Spells x t) : SpellsText x t :=
  ⟨[], t, [], isBlank_nil, h, isBlank_nil, (List.append_nil t).symm⟩

/-! Elements and members may be spelled without blanks. -/

theorem SpellsElements.single (h : Spells x t) : SpellsElements [x] t := by
  have hspells := SpellsElements.last isBlank_nil h isBlank_nil
  rwa [List.nil_append, List.append_nil] at hspells

theorem SpellsElements.cons {rest : List (JsonTree NumberLiteral)} (h : Spells x t)
    (hrest : SpellsElements rest u) : SpellsElements (x :: rest) (t ++ "," ++ u) := by
  have hspells := SpellsElements.more isBlank_nil h isBlank_nil hrest
  rw [List.append_assoc]
  exact hspells

variable {key k : Text} (hkey : SpellsString key k)
include hkey

theorem SpellsMembers.single (h : Spells x t) : SpellsMembers [(key, x)] (k ++ ":" ++ t) := by
  have hspells := SpellsMembers.last isBlank_nil hkey isBlank_nil isBlank_nil h isBlank_nil
  rw [List.append_nil] at hspells
  rw [List.append_assoc]
  exact hspells

theorem SpellsMembers.cons {rest : List (Text × JsonTree NumberLiteral)} (h : Spells x t)
    (hrest : SpellsMembers rest u) :
    SpellsMembers ((key, x) :: rest) (k ++ ":" ++ t ++ "," ++ u) := by
  have hspells := SpellsMembers.more isBlank_nil hkey isBlank_nil isBlank_nil h isBlank_nil hrest
  rw [List.append_assoc, List.append_assoc, List.append_assoc]
  exact hspells

end Blanks

mutual

/-- What is written of a value with finite doubles is spelled by its literals. -/
theorem Json.exists_spells_render : (value : Json) → value.isFinite = true →
    ∃ tree, Spells tree value.render ∧ tree.map NumberLiteral.value = value.denoted
  | .null, _ => ⟨.null, .nullName, rfl⟩
  | .bool true, _ => ⟨.bool true, .trueName, rfl⟩
  | .bool false, _ => ⟨.bool false, .falseName, rfl⟩
  | .int i, _ => by
      obtain ⟨n, htext, hvalue⟩ := exists_literal_decimalInt i
      refine ⟨.number n, ?_, by rw [JsonTree.map, hvalue, Json.denoted]⟩
      rw [Json.render, ← htext]
      exact .number n
  | .real (.finite negative units), _ => by
      obtain ⟨n, htext, hvalue⟩ := exists_literal_write negative units
      refine ⟨.number n, ?_, by rw [JsonTree.map, hvalue, Json.denoted]⟩
      rw [Json.render, ← htext]
      exact .number n
  | .str s, _ => ⟨.str s, .str (spellsString_jsonString s), rfl⟩
  | .arr [], _ => ⟨.arr [], .emptyArray isBlank_nil, rfl⟩
  | .arr (x :: rest), h => by
      obtain ⟨trees, hspells, hvalue⟩ := exists_spells_renderElements (x :: rest)
        (List.cons_ne_nil x rest) h
      exact ⟨.arr trees, .arr hspells, congrArg JsonTree.arr hvalue⟩
  | .obj [], _ => ⟨.obj [], .emptyObject isBlank_nil, rfl⟩
  | .obj (first :: rest), h => by
      obtain ⟨trees, hspells, hvalue⟩ := exists_spells_renderMembers (first :: rest)
        (List.cons_ne_nil first rest) h
      exact ⟨.obj trees, .obj hspells, congrArg JsonTree.obj hvalue⟩

theorem exists_spells_renderElements : (elements : List Json) → elements ≠ [] →
    elementsFinite elements = true → ∃ trees, SpellsElements trees (renderElements elements) ∧
      mapElements NumberLiteral.value trees = elementsDenoted elements
  | [], hne, _ => absurd rfl hne
  | [x], _, h => by
      obtain ⟨tree, hspells, hvalue⟩ := Json.exists_spells_render x (Bool.and_eq_true_iff.mp h).1
      exact ⟨[tree], .single hspells, congrArg (fun y => [y]) hvalue⟩
  | x :: y :: rest, _, h => by
      obtain ⟨hx, hrest⟩ := Bool.and_eq_true_iff.mp h
      obtain ⟨tree, hspells, hvalue⟩ := Json.exists_spells_render x hx
      obtain ⟨trees, hmore, hvalues⟩ := exists_spells_renderElements (y :: rest)
        (List.cons_ne_nil y rest) hrest
      rw [renderElements_cons_cons]
      exact ⟨tree :: trees, .cons hspells hmore, congrArg₂ List.cons hvalue hvalues⟩

theorem exists_spells_renderMembers : (members : List (Text × Json)) → members ≠ [] →
    membersFinite members = true → ∃ trees, SpellsMembers trees (renderMembers members) ∧
      mapMembers NumberLiteral.value trees = membersDenoted members
  | [], hne, _ => absurd rfl hne
  | [(key, value)], _, h => by
      obtain ⟨tree, hspells, hvalue⟩ :=
        Json.exists_spells_render value (Bool.and_eq_true_iff.mp h).1
      exact ⟨[(key, tree)], .single (spellsString_jsonString key) hspells,
        congrArg (fun y => [(key, y)]) hvalue⟩
  | (key, value) :: second :: rest, _, h => by
      obtain ⟨hfirst, hrest⟩ := Bool.and_eq_true_iff.mp h
      obtain ⟨tree, hspells, hvalue⟩ := Json.exists_spells_render value hfirst
      obtain ⟨trees, hmore, hvalues⟩ := exists_spells_renderMembers (second :: rest)
        (List.cons_ne_nil second rest) hrest
      rw [renderMembers_cons_cons]
      exact ⟨(key, tree) :: trees, .cons (spellsString_jsonString key) hspells hmore,
        congrArg₂ List.cons (congrArg (Prod.mk key) hvalue) hvalues⟩

end

/-- Where a character of a JSON text stands. -/
inductive Quoting where
  | outside
  | inside
  | escaped
deriving DecidableEq

/-- Where the next character stands.  Outside of strings there may be no capital of `Infinity`
or `NaN`. -/
def Quoting.next? : Quoting → CodePoint → Option Quoting
  | .outside, c =>
      if c = CodePoint.quote then some .inside
      else if c = CodePoint.ofChar 'I' ∨ c = CodePoint.ofChar 'N' then none
      else some .outside
  | .inside, c =>
      if c = CodePoint.quote then some .outside
      else if c = CodePoint.backslash then some .escaped
      else some .inside
  | .escaped, _ => some .inside

/-- Where the character behind a text stands. -/
def Quoting.through? (start : Quoting) (t : Text) : Option Quoting :=
  t.foldlM Quoting.next? start

theorem Quoting.through?_append (start : Quoting) (s t : Text) :
    start.through? (s ++ t) = (start.through? s).bind (·.through? t) :=
  List.foldlM_append

/-- A text that leads from outside of strings to outside of strings again. -/
def Neutral (t : Text) : Prop := Quoting.outside.through? t = some .outside

instance (t : Text) : Decidable (Neutral t) := inferInstanceAs (Decidable (_ = _))

section Neutral

variable {s t : Text}

theorem Neutral.through?_append (hs : Neutral s) (t : Text) :
    Quoting.outside.through? (s ++ t) = Quoting.outside.through? t := by
  rw [Quoting.through?_append, hs, Option.bind_some]

theorem through?_append_eq_none (hs : Quoting.outside.through? s = none) (t : Text) :
    Quoting.outside.through? (s ++ t) = none := by
  rw [Quoting.through?_append, hs, Option.bind_none]

theorem Neutral.append (hs : Neutral s) (ht : Neutral t) : Neutral (s ++ t) :=
  (hs.through?_append t).trans ht

theorem Neutral.cons {c : CodePoint} (hc : Neutral [c]) (ht : Neutral t) : Neutral (c :: t) :=
  Neutral.append hc ht

/-- Characters that neither open a string nor are such a capital. -/
theorem neutral_of_forall
    (h : ∀ c ∈ t, c ∉ [CodePoint.quote, CodePoint.ofChar 'I', CodePoint.ofChar 'N']) :
    Neutral t := by
  induction t with
  | nil => rfl
  | cons c rest ih =>
      obtain ⟨hc, hrest⟩ := List.forall_mem_cons.mp h
      simp only [List.mem_cons, List.not_mem_nil, or_false, not_or] at hc
      have hnext : Neutral [c] := by
        simp [Neutral, Quoting.through?, Quoting.next?, hc]
      exact hnext.cons (ih hrest)

theorem neutral_blank (h : IsBlank t) : Neutral t := by
  have hall : ∀ c ∈ [CodePoint.space, CodePoint.tab, CodePoint.newline,
      CodePoint.carriageReturn],
      c ∉ [CodePoint.quote, CodePoint.ofChar 'I', CodePoint.ofChar 'N'] := by decide
  exact neutral_of_forall fun c hc => hall c (h c hc)

theorem NumberLiteral.neutral_text (n : NumberLiteral) : Neutral n.text := by
  have hall : ∀ c ∈ [CodePoint.quote, CodePoint.ofChar 'I', CodePoint.ofChar 'N'],
      c.isAsciiDigit = false ∧ c ∉ ("-+.eE" : Text) := by decide
  refine neutral_of_forall fun c hc hmem => ?_
  rcases n.of_mem_text hc with hdigit | hmark
  · rw [(hall c hmem).1] at hdigit
    cases hdigit
  · exact (hall c hmem).2 hmark

theorem next?_inside {c : CodePoint} (hquote : c ≠ CodePoint.quote)
    (hbackslash : c ≠ CodePoint.backslash) : Quoting.inside.next? c = some .inside := by
  rw [Quoting.next?, if_neg hquote, if_neg hbackslash]

theorem next?_inside_of_hexDigit {c : CodePoint} {d : Nat} (h : HexDigit c d) :
    Quoting.inside.next? c = some .inside := by
  have hall : ∀ c ∈ text "0123456789abcdef" ++ text "0123456789ABCDEF",
      Quoting.inside.next? c = some .inside := by decide
  refine hall c (List.mem_append.mpr ?_)
  exact h.imp List.mem_of_getElem? List.mem_of_getElem?

/-- An escape of four digits stays inside of its string. -/
theorem through?_inside_of_spellsUnit {n : Nat} (h : SpellsUnit n t) :
    Quoting.inside.through? t = some .inside := by
  cases h with
  | intro ha hb hc hd =>
      have hescape : Quoting.inside.next? CodePoint.backslash = some .escaped := by decide
      simp [Quoting.through?, hescape, Quoting.next?.eq_3, next?_inside_of_hexDigit ha,
        next?_inside_of_hexDigit hb, next?_inside_of_hexDigit hc, next?_inside_of_hexDigit hd]

theorem through?_inside_of_spellsChar {c : CodePoint} (h : SpellsChar c t) :
    Quoting.inside.through? t = some .inside := by
  cases h with
  | plain _ hquote hbackslash =>
      simp [Quoting.through?, next?_inside hquote hbackslash]
  | short _ => rfl
  | unit h _ => exact through?_inside_of_spellsUnit h
  | pair ht hu _ _ =>
      rw [Quoting.through?_append, through?_inside_of_spellsUnit ht]
      exact through?_inside_of_spellsUnit hu

theorem through?_inside_of_spellsChars (h : SpellsChars s t) :
    Quoting.inside.through? t = some .inside := by
  induction h with
  | nil => rfl
  | cons hc _ ih =>
      rw [Quoting.through?_append, through?_inside_of_spellsChar hc]
      exact ih

theorem SpellsString.neutral (h : SpellsString s t) : Neutral t := by
  cases h with
  | @intro t h =>
      have hopen : Quoting.outside.through? [CodePoint.quote] = some .inside := rfl
      have hclose : Quoting.inside.through? [CodePoint.quote] = some .outside := rfl
      rw [Neutral, ← List.singleton_append, Quoting.through?_append, hopen, Option.bind_some,
        Quoting.through?_append, through?_inside_of_spellsChars h, Option.bind_some, hclose]

end Neutral

mutual

/-- Standard JSON has no such capitals outside of strings. -/
theorem Spells.neutral : (tree : JsonTree NumberLiteral) → {t : Text} → Spells tree t → Neutral t
  | .null, _, h => by cases h; decide
  | .bool _, _, h => by cases h <;> decide
  | .number n, _, h => by cases h; exact n.neutral_text
  | .str _, _, h => by
      cases h with
      | str h => exact h.neutral
  | .arr elements, _, h => by
      cases h with
      | emptyArray hblank =>
          exact .cons rfl ((neutral_blank hblank).append rfl)
      | arr helements =>
          exact .cons rfl ((SpellsElements.neutral elements helements).append rfl)
  | .obj members, _, h => by
      cases h with
      | emptyObject hblank =>
          exact .cons rfl ((neutral_blank hblank).append rfl)
      | obj hmembers =>
          exact .cons rfl ((SpellsMembers.neutral members hmembers).append rfl)

theorem SpellsElements.neutral : (elements : List (JsonTree NumberLiteral)) → {t : Text} →
    SpellsElements elements t → Neutral t
  | [], _, h => by cases h
  | x :: rest, _, h => by
      cases h with
      | last hbefore hx hafter =>
          exact (neutral_blank hbefore).append
            ((Spells.neutral x hx).append (neutral_blank hafter))
      | more hbefore hx hafter hrest =>
          exact (neutral_blank hbefore).append ((Spells.neutral x hx).append
            ((neutral_blank hafter).append (.cons rfl (SpellsElements.neutral rest hrest))))

theorem SpellsMembers.neutral : (members : List (Text × JsonTree NumberLiteral)) → {t : Text} →
    SpellsMembers members t → Neutral t
  | [], _, h => by cases h
  | (_, x) :: rest, _, h => by
      cases h with
      | last hbefore hkey hbehind hahead hx hafter =>
          exact (neutral_blank hbefore).append (hkey.neutral.append
            ((neutral_blank hbehind).append (.cons rfl ((neutral_blank hahead).append
              ((Spells.neutral x hx).append (neutral_blank hafter))))))
      | more hbefore hkey hbehind hahead hx hafter hrest =>
          exact (neutral_blank hbefore).append (hkey.neutral.append
            ((neutral_blank hbehind).append (.cons rfl ((neutral_blank hahead).append
              ((Spells.neutral x hx).append ((neutral_blank hafter).append
                (.cons rfl (SpellsMembers.neutral rest hrest))))))))

end

/-- What is written of a value with finite doubles has no such capital. -/
theorem Json.neutral_render {value : Json} (h : value.isFinite = true) : Neutral value.render := by
  obtain ⟨tree, hspells, _⟩ := value.exists_spells_render h
  exact hspells.neutral

mutual

/-- A double that is not finite is written with such a capital outside of strings. -/
theorem Json.through?_render : (value : Json) → value.isFinite = false →
    Quoting.outside.through? value.render = none
  | .real .nan, _ | .real (.infinity true), _ | .real (.infinity false), _ => by rfl
  | .arr elements, h => by
      have hopen : Neutral "[" := by decide
      rw [Json.render, List.append_assoc, hopen.through?_append]
      exact through?_append_eq_none (through?_renderElements elements h) _
  | .obj members, h => by
      have hopen : Neutral [CodePoint.openBrace] := by decide
      rw [Json.render, List.append_assoc, hopen.through?_append]
      exact through?_append_eq_none (through?_renderMembers members h) _

theorem through?_renderElements : (elements : List Json) → elementsFinite elements = false →
    Quoting.outside.through? (renderElements elements) = none
  | [], h => by cases h
  | [x], h => by
      rw [elementsFinite, elementsFinite, Bool.and_true] at h
      exact Json.through?_render x h
  | x :: y :: rest, h => by
      have hcomma : Neutral "," := by decide
      rw [renderElements_cons_cons, List.append_assoc]
      cases hx : x.isFinite with
      | false => exact through?_append_eq_none (Json.through?_render x hx) _
      | true =>
          rw [elementsFinite, hx, Bool.true_and] at h
          rw [(Json.neutral_render hx).through?_append, hcomma.through?_append]
          exact through?_renderElements (y :: rest) h

theorem through?_renderMembers : (members : List (Text × Json)) →
    membersFinite members = false → Quoting.outside.through? (renderMembers members) = none
  | [], h => by cases h
  | [(key, value)], h => by
      have hkey : Neutral (jsonString key ++ ":") :=
        (spellsString_jsonString key).neutral.append (by decide)
      rw [membersFinite, membersFinite, Bool.and_true] at h
      rw [renderMembers, hkey.through?_append]
      exact Json.through?_render value h
  | (key, value) :: second :: rest, h => by
      have hkey : Neutral (jsonString key ++ ":") :=
        (spellsString_jsonString key).neutral.append (by decide)
      have hcomma : Neutral "," := by decide
      rw [renderMembers_cons_cons, List.append_assoc, List.append_assoc, hkey.through?_append]
      cases hvalue : value.isFinite with
      | false => exact through?_append_eq_none (Json.through?_render value hvalue) _
      | true =>
          rw [membersFinite, hvalue, Bool.true_and] at h
          rw [(Json.neutral_render hvalue).through?_append, hcomma.through?_append]
          exact through?_renderMembers (second :: rest) h

end

/-- What is written of a value with a double that is not finite is not standard JSON. -/
theorem Json.isFinite_of_spellsText {value : Json} {tree : JsonTree NumberLiteral}
    (h : SpellsText tree value.render) : value.isFinite = true := by
  obtain ⟨before, inner, after, hbefore, hspells, hafter, htext⟩ := h
  have hneutral : Neutral value.render := by
    rw [htext]
    exact (neutral_blank hbefore).append ((hspells.neutral).append (neutral_blank hafter))
  by_contra hfinite
  rw [Neutral, value.through?_render (Bool.eq_false_of_not_eq_true hfinite)] at hneutral
  cases hneutral

theorem decodeUtf8_of_encodeEnvelope {value : Json} {body : Bytes}
    (h : encodeEnvelope value = .ok body) : decodeUtf8 body = .ok value.render := by
  obtain ⟨hwritable, hencodable⟩ :=
    value.encodable_iff_render.mp ((encodeEnvelope_ok_iff value).mp ⟨body, h⟩)
  obtain ⟨hencode, hdecode⟩ := decodeUtf8_encodeUtf8 hencodable
  rw [encodeEnvelope, if_pos hwritable, hencode] at h
  obtain rfl := Except.ok.inj h
  exact hdecode

/-- A body of a value with finite doubles denotes it with its integers exact and its doubles as
their shortest digits. -/
theorem exists_spellsPayload_encodeEnvelope {value : Json} {body : Bytes}
    (h : encodeEnvelope value = .ok body) (hfinite : value.isFinite = true) :
    ∃ tree, SpellsPayload tree body ∧ tree.map NumberLiteral.value = value.denoted := by
  obtain ⟨tree, hspells, hvalue⟩ := value.exists_spells_render hfinite
  exact ⟨tree, ⟨value.render, decodeUtf8_of_encodeEnvelope h, hspells.spellsText⟩, hvalue⟩

/-- A body that is written is standard JSON exactly if all doubles of its value are finite. -/
theorem spellsPayload_encodeEnvelope_iff {value : Json} {body : Bytes}
    (h : encodeEnvelope value = .ok body) :
    (∃ tree, SpellsPayload tree body) ↔ value.isFinite = true := by
  have hdecode := decodeUtf8_of_encodeEnvelope h
  constructor
  · rintro ⟨tree, t, htext, hspells⟩
    obtain rfl : value.render = t := Except.ok.inj (hdecode.symm.trans htext)
    exact Json.isFinite_of_spellsText hspells
  · intro hfinite
    obtain ⟨tree, hspells, _⟩ := exists_spellsPayload_encodeEnvelope h hfinite
    exact ⟨tree, hspells⟩

end VibeScript
