import VibeScript.Proofs.Json.Reading

/-!
A text of standard JSON denotes one value (`spellsText_value_unique`).

Blanks and all other parts go as far as they can: the part in front of a rest is the same, and so
is the rest, however the text is spelled.
-/

namespace VibeScript

variable {r r' : Text}

section Numbers

/-- A literal is as long, and counts for as much, as any other in its place. -/
theorem NumberLiteral.value_unique {n n' : NumberLiteral} (hr : EndsLiteral r)
    (hr' : EndsLiteral r') (h : n.text ++ r = n'.text ++ r') : n.value = n'.value ∧ r = r' := by
  have htext (n : NumberLiteral) : n.text = n.signText ++ n.unsigned := rfl
  obtain ⟨c, more, hcons, hdigit⟩ := n.exists_cons_unsigned
  obtain ⟨c', more', hcons', hdigit'⟩ := n'.exists_cons_unsigned
  have hminus : (CodePoint.ofChar '-').isAsciiDigit = false := by decide
  -- only a sign makes the first character something else than a digit
  have hnegative : n.negative = n'.negative := by
    rw [htext, htext, NumberLiteral.signText, NumberLiteral.signText, hcons, hcons'] at h
    cases hn : n.negative <;> cases hn' : n'.negative <;> simp [hn, hn'] at h ⊢
    · rw [h.1, hminus] at hdigit
      cases hdigit
    · rw [← h.1, hminus] at hdigit'
      cases hdigit'
  have hunsigned : n.unsigned ++ r = n'.unsigned ++ r' := by
    rw [htext, htext, NumberLiteral.signText, NumberLiteral.signText, hnegative,
      List.append_assoc, List.append_assoc] at h
    exact List.append_cancel_left h
  have hwhole : n.whole = n'.whole := by
    rw [← n.takeWhile_unsigned hr, hunsigned, n'.takeWhile_unsigned hr']
  have hbehind : n.fractionText ++ (n.exponentText ++ r) =
      n'.fractionText ++ (n'.exponentText ++ r') := by
    simp only [NumberLiteral.unsigned, List.append_assoc, hwhole] at hunsigned
    exact List.append_cancel_left hunsigned
  have hfraction : n.fraction = n'.fraction := by
    rw [← n.fractionDigits_literal hr, hbehind, n'.fractionDigits_literal hr']
  have hexponentText : n.exponentText ++ r = n'.exponentText ++ r' := by
    rw [NumberLiteral.fractionText, NumberLiteral.fractionText, hfraction] at hbehind
    exact List.append_cancel_left hbehind
  have hexponent : n.exponent.map (fun e => (e.power, e.text.length)) =
      n'.exponent.map fun e => (e.power, e.text.length) := by
    rw [← n.exponentPart?_literal hr, hexponentText, n'.exponentPart?_literal hr']
  have hpower : n.exponent.map (·.power) = n'.exponent.map (·.power) := by
    have hfirst := congrArg (Option.map Prod.fst) hexponent
    simp only [Option.map_map] at hfirst
    exact hfirst
  have hlength : n.exponentText.length = n'.exponentText.length := by
    have hsecond := congrArg (Option.map Prod.snd) hexponent
    simp only [Option.map_map] at hsecond
    have hlengths (n : NumberLiteral) : n.exponentText.length =
        (n.exponent.map (Prod.snd ∘ fun e => (e.power, e.text.length))).getD 0 := by
      rw [NumberLiteral.exponentText]
      cases n.exponent <;> rfl
    rw [hlengths, hlengths, hsecond]
  refine ⟨?_, (List.append_inj hexponentText hlength).2⟩
  rw [NumberLiteral.value, NumberLiteral.value, NumberLiteral.digits, NumberLiteral.digits,
    NumberLiteral.power, NumberLiteral.power, hnegative, hwhole, hfraction, hpower]

end Numbers

/-- A string is as long as any other in its place, and the same. -/
theorem SpellsString.unique {s s' t t' : Text} (h : SpellsString s t) (h' : SpellsString s' t')
    (heq : t ++ r = t' ++ r') : s = s' ∧ r = r' := by
  obtain ⟨inner, length, htext, hscan, hdrop⟩ := scanJsonString_spellsString h r
  obtain ⟨inner', length', htext', hscan', hdrop'⟩ := scanJsonString_spellsString h' r'
  rw [heq, htext'] at htext
  obtain rfl : inner' = inner := (List.cons.inj htext).2
  rw [hscan] at hscan'
  obtain ⟨rfl, rfl⟩ := Prod.mk.inj (Option.some.inj hscan')
  exact ⟨rfl, hdrop.symm.trans hdrop'⟩

section Blanks

/-- Blanks go up to the next character that is none. -/
theorem dropWhile_blank_append {blank : Text} (h : IsBlank blank) {c : CodePoint}
    (hc : c.isJsonBlank = false) (rest : Text) :
    (blank ++ c :: rest).dropWhile (·.isJsonBlank) = c :: rest := by
  have hall : ∀ c ∈ [CodePoint.space, CodePoint.tab, CodePoint.newline,
      CodePoint.carriageReturn], c.isJsonBlank = true := by decide
  rw [List.dropWhile_append_of_pos fun d hd => hall d (h d hd), List.dropWhile_cons_of_neg]
  simp [hc]

theorem blank_unique {blank blank' : Text} (h : IsBlank blank) (h' : IsBlank blank')
    {c c' : CodePoint} (hc : c.isJsonBlank = false) (hc' : c'.isJsonBlank = false)
    (heq : blank ++ c :: r = blank' ++ c' :: r') : c = c' ∧ r = r' := by
  have hdrop := congrArg (List.dropWhile (·.isJsonBlank)) heq
  rw [dropWhile_blank_append h hc, dropWhile_blank_append h' hc'] at hdrop
  exact List.cons.inj hdrop

end Blanks

/-- The kinds of values, as far as their first characters tell them apart. -/
inductive JsonKind where
  | null
  | truth (value : Bool)
  | number
  | str
  | arr
  | obj

/-- The kind of a value that starts with a character. -/
def JsonKind.ofChar (c : CodePoint) : JsonKind :=
  if c = CodePoint.ofChar 'n' then .null
  else if c = CodePoint.ofChar 't' then .truth true
  else if c = CodePoint.ofChar 'f' then .truth false
  else if c = CodePoint.quote then .str
  else if c = CodePoint.openBracket then .arr
  else if c = CodePoint.openBrace then .obj
  else .number

def JsonTree.kind : JsonTree NumberLiteral → JsonKind
  | .null => .null
  | .bool value => .truth value
  | .number _ => .number
  | .str _ => .str
  | .arr _ => .arr
  | .obj _ => .obj

theorem NumberLiteral.kind_of_start {c : CodePoint}
    (h : c = CodePoint.ofChar '-' ∨ c.isAsciiDigit = true) : JsonKind.ofChar c = .number := by
  have hall : ∀ d ∈ [CodePoint.ofChar 'n', CodePoint.ofChar 't', CodePoint.ofChar 'f',
      CodePoint.quote, CodePoint.openBracket, CodePoint.openBrace],
      ¬ (d = CodePoint.ofChar '-' ∨ d.isAsciiDigit = true) := by decide
  have hother : ∀ d ∈ [CodePoint.ofChar 'n', CodePoint.ofChar 't', CodePoint.ofChar 'f',
      CodePoint.quote, CodePoint.openBracket, CodePoint.openBrace], c ≠ d := by
    rintro d hd rfl
    exact hall c hd h
  simp only [List.forall_mem_cons, List.not_mem_nil, false_imp_iff, implies_true,
    and_true] at hother
  simp [JsonKind.ofChar, hother]

theorem Spells.kind_of_start {tree : JsonTree NumberLiteral} {t : Text} (h : Spells tree t) :
    ∃ c more, t = c :: more ∧ JsonKind.ofChar c = tree.kind := by
  cases h with
  | number n =>
      obtain ⟨c, more, htext, hc⟩ := n.exists_cons_text
      exact ⟨c, more, htext, NumberLiteral.kind_of_start hc⟩
  | str h => cases h; exact ⟨_, _, rfl, rfl⟩
  | _ => exact ⟨_, _, rfl, rfl⟩

/-- Two values in one place are of one kind. -/
theorem Spells.kind_unique {tree tree' : JsonTree NumberLiteral} {t t' : Text}
    (h : Spells tree t) (h' : Spells tree' t') (heq : t ++ r = t' ++ r') :
    tree.kind = tree'.kind := by
  obtain ⟨c, more, rfl, hkind⟩ := h.kind_of_start
  obtain ⟨c', more', rfl, hkind'⟩ := h'.kind_of_start
  obtain rfl : c = c' := (List.cons.inj heq).1
  exact hkind.symm.trans hkind'

/-- Behind blanks, a value starts where any other does. -/
theorem Spells.padded_unique {x x' : JsonTree NumberLiteral} {before before' t t' : Text}
    (h : Spells x t) (h' : Spells x' t') (hbefore : IsBlank before) (hbefore' : IsBlank before')
    (heq : before ++ (t ++ r) = before' ++ (t' ++ r')) : t ++ r = t' ++ r' := by
  obtain ⟨c, more, rfl, hc, _⟩ := h.exists_cons
  obtain ⟨c', more', rfl, hc', _⟩ := h'.exists_cons
  obtain ⟨rfl, hrest⟩ := blank_unique hbefore hbefore' hc hc' heq
  exact congrArg (c :: ·) hrest

/-- Behind blanks, a string starts where any other does. -/
theorem SpellsString.padded_unique {s s' before before' t t' : Text} (h : SpellsString s t)
    (h' : SpellsString s' t') (hbefore : IsBlank before) (hbefore' : IsBlank before')
    (heq : before ++ (t ++ r) = before' ++ (t' ++ r')) : s = s' ∧ r = r' :=
  h.unique h' ((Spells.str h).padded_unique (.str h') hbefore hbefore' heq)

/-- Behind blanks, the mark behind a value is where any other is. -/
theorem mark_unique {after after' : Text} (hafter : IsBlank after) (hafter' : IsBlank after')
    {c c' : CodePoint}
    (hc : c ∈ [CodePoint.comma, CodePoint.closeBracket, CodePoint.closeBrace])
    (hc' : c' ∈ [CodePoint.comma, CodePoint.closeBracket, CodePoint.closeBrace])
    (heq : after ++ c :: r = after' ++ c' :: r') : c = c' ∧ r = r' := by
  have hall : ∀ c ∈ [CodePoint.comma, CodePoint.closeBracket, CodePoint.closeBrace],
      c.isJsonBlank = false := by decide
  exact blank_unique hafter hafter' (hall c hc) (hall c' hc') heq

/-- What comes behind the first of some parts: the end, or a comma and the other parts. -/
def Continues {α : Type} (parts : List α → Text → Prop) (close : CodePoint) (rest : List α)
    (r tail : Text) (mark : CodePoint) : Prop :=
  (rest = [] ∧ mark = close ∧ tail = r) ∨
    (mark = CodePoint.comma ∧ ∃ u, parts rest u ∧ tail = u ++ close :: r)

theorem SpellsElements.exists_first {x : JsonTree NumberLiteral}
    {rest : List (JsonTree NumberLiteral)} {t : Text} (h : SpellsElements (x :: rest) t)
    (r : Text) : ∃ before u after mark tail, IsBlank before ∧ Spells x u ∧ IsBlank after ∧
      Continues SpellsElements CodePoint.closeBracket rest r tail mark ∧
      t ++ CodePoint.closeBracket :: r = before ++ (u ++ (after ++ mark :: tail)) := by
  cases h with
  | last hbefore hx hafter =>
      exact ⟨_, _, _, _, _, hbefore, hx, hafter, .inl ⟨rfl, rfl, rfl⟩,
        by simp only [List.append_assoc]⟩
  | more hbefore hx hafter hrest =>
      exact ⟨_, _, _, _, _, hbefore, hx, hafter, .inr ⟨rfl, _, hrest, rfl⟩,
        by simp only [List.append_assoc, List.cons_append]⟩

theorem SpellsMembers.exists_first {key : Text} {x : JsonTree NumberLiteral}
    {rest : List (Text × JsonTree NumberLiteral)} {t : Text}
    (h : SpellsMembers ((key, x) :: rest) t) (r : Text) :
    ∃ before k behind ahead u after mark tail, IsBlank before ∧ SpellsString key k ∧
      IsBlank behind ∧ IsBlank ahead ∧ Spells x u ∧ IsBlank after ∧
      Continues SpellsMembers CodePoint.closeBrace rest r tail mark ∧
      t ++ CodePoint.closeBrace :: r = before ++ (k ++ (behind ++ CodePoint.colon ::
        (ahead ++ (u ++ (after ++ mark :: tail))))) := by
  cases h with
  | last hbefore hkey hbehind hahead hx hafter =>
      exact ⟨_, _, _, _, _, _, _, _, hbefore, hkey, hbehind, hahead, hx, hafter,
        .inl ⟨rfl, rfl, rfl⟩, by simp only [List.append_assoc, List.cons_append]⟩
  | more hbefore hkey hbehind hahead hx hafter hrest =>
      exact ⟨_, _, _, _, _, _, _, _, hbefore, hkey, hbehind, hahead, hx, hafter,
        .inr ⟨rfl, _, hrest, rfl⟩, by simp only [List.append_assoc, List.cons_append]⟩

/-- The mark behind a part is a comma or a closing bracket. -/
theorem Continues.mark_mem {α : Type} {parts : List α → Text → Prop} {close mark : CodePoint}
    {rest : List α} {r tail : Text} (h : Continues parts close rest r tail mark)
    (hclose : close ∈ [CodePoint.closeBracket, CodePoint.closeBrace]) :
    mark ∈ [CodePoint.comma, CodePoint.closeBracket, CodePoint.closeBrace] := by
  rcases h with ⟨_, rfl, _⟩ | ⟨rfl, _⟩
  · exact List.mem_cons_of_mem _ hclose
  · exact List.mem_cons_self

/-- Elements do not start like the end of an empty array. -/
theorem SpellsElements.ne_close {elements : List (JsonTree NumberLiteral)} {t blank : Text}
    (h : SpellsElements elements t) (hblank : IsBlank blank) :
    blank ++ CodePoint.closeBracket :: r ≠ t ++ CodePoint.closeBracket :: r' := by
  intro heq
  cases elements with
  | nil => cases h
  | cons x rest =>
      obtain ⟨before, u, after, mark, tail, hbefore, hx, _, _, htext⟩ := h.exists_first r'
      obtain ⟨c, more, rfl, hc, hne⟩ := hx.exists_cons
      exact hne (blank_unique hblank hbefore (by decide) hc (heq.trans htext)).1.symm

/-- Members do not start like the end of an empty object. -/
theorem SpellsMembers.ne_close {members : List (Text × JsonTree NumberLiteral)} {t blank : Text}
    (h : SpellsMembers members t) (hblank : IsBlank blank) :
    blank ++ CodePoint.closeBrace :: r ≠ t ++ CodePoint.closeBrace :: r' := by
  intro heq
  cases members with
  | nil => cases h
  | cons first rest =>
      obtain ⟨before, k, _, _, _, _, _, _, hbefore, hkey, _, _, _, _, _, htext⟩ :=
        h.exists_first r'
      cases hkey with
      | intro _ =>
          have hsame :=
            (blank_unique hblank hbefore (by decide) (by decide) (heq.trans htext)).1
          exact absurd hsame (by decide)

mutual

/-- A value is as long as any other in its place, and denotes the same. -/
theorem Spells.value_unique : (tree : JsonTree NumberLiteral) → {t : Text} → Spells tree t →
    {tree' : JsonTree NumberLiteral} → {t' : Text} → Spells tree' t' → {r r' : Text} →
    EndsValue r → EndsValue r' → t ++ r = t' ++ r' →
    tree.map NumberLiteral.value = tree'.map NumberLiteral.value ∧ r = r'
  | .null, _, h, tree', _, h', _, _, _, _, heq => by
      have hkind := h.kind_unique h' heq
      cases h
      cases h' <;> simp only [JsonTree.kind, reduceCtorEq] at hkind
      exact ⟨rfl, List.append_cancel_left heq⟩
  | .bool value, _, h, tree', _, h', _, _, _, _, heq => by
      have hkind := h.kind_unique h' heq
      cases h <;> cases h' <;>
        simp only [JsonTree.kind, reduceCtorEq, JsonKind.truth.injEq] at hkind
      · exact ⟨rfl, List.append_cancel_left heq⟩
      · exact ⟨rfl, List.append_cancel_left heq⟩
  | .number n, _, h, tree', _, h', _, _, hr, hr', heq => by
      have hkind := h.kind_unique h' heq
      cases h
      cases h' <;> simp only [JsonTree.kind, reduceCtorEq] at hkind
      obtain ⟨hvalue, hrest⟩ :=
        NumberLiteral.value_unique hr.endsLiteral hr'.endsLiteral heq
      exact ⟨congrArg JsonTree.number hvalue, hrest⟩
  | .str s, _, h, tree', _, h', _, _, _, _, heq => by
      have hkind := h.kind_unique h' heq
      cases h with
      | str h =>
          cases h' <;> simp only [JsonTree.kind, reduceCtorEq] at hkind
          next h' =>
            obtain ⟨rfl, hrest⟩ := h.unique h' heq
            exact ⟨rfl, hrest⟩
  | .arr elements, _, h, tree', _, h', _, _, _, _, heq => by
      have hkind := h.kind_unique h' heq
      cases h with
      | emptyArray hblank =>
          cases h' <;> simp only [JsonTree.kind, reduceCtorEq] at hkind <;>
            simp only [List.cons_append, List.append_assoc, List.cons.injEq, true_and,
              List.nil_append] at heq
          · next hblank' =>
              exact ⟨rfl, (mark_unique hblank hblank' (by decide) (by decide) heq).2⟩
          · next helements' => exact absurd heq (helements'.ne_close hblank)
      | arr helements =>
          cases h' <;> simp only [JsonTree.kind, reduceCtorEq] at hkind <;>
            simp only [List.cons_append, List.append_assoc, List.cons.injEq, true_and,
              List.nil_append] at heq
          · next hblank' => exact absurd heq.symm (helements.ne_close hblank')
          · next helements' =>
              obtain ⟨hvalue, hrest⟩ :=
                SpellsElements.value_unique elements helements helements' heq
              exact ⟨congrArg JsonTree.arr hvalue, hrest⟩
  | .obj members, _, h, tree', _, h', _, _, _, _, heq => by
      have hkind := h.kind_unique h' heq
      cases h with
      | emptyObject hblank =>
          cases h' <;> simp only [JsonTree.kind, reduceCtorEq] at hkind <;>
            simp only [List.cons_append, List.append_assoc, List.cons.injEq, true_and,
              List.nil_append] at heq
          · next hblank' =>
              exact ⟨rfl, (mark_unique hblank hblank' (by decide) (by decide) heq).2⟩
          · next hmembers' => exact absurd heq (hmembers'.ne_close hblank)
      | obj hmembers =>
          cases h' <;> simp only [JsonTree.kind, reduceCtorEq] at hkind <;>
            simp only [List.cons_append, List.append_assoc, List.cons.injEq, true_and,
              List.nil_append] at heq
          · next hblank' => exact absurd heq.symm (hmembers.ne_close hblank')
          · next hmembers' =>
              obtain ⟨hvalue, hrest⟩ := SpellsMembers.value_unique members hmembers hmembers' heq
              exact ⟨congrArg JsonTree.obj hvalue, hrest⟩

theorem SpellsElements.value_unique : (elements : List (JsonTree NumberLiteral)) → {t : Text} →
    SpellsElements elements t → {elements' : List (JsonTree NumberLiteral)} → {t' : Text} →
    SpellsElements elements' t' → {r r' : Text} →
    t ++ CodePoint.closeBracket :: r = t' ++ CodePoint.closeBracket :: r' →
    mapElements NumberLiteral.value elements = mapElements NumberLiteral.value elements' ∧ r = r'
  | [], _, h, _, _, _, _, _, _ => by cases h
  | x :: rest, _, h, [], _, h', _, _, _ => by cases h'
  | x :: rest, _, h, x' :: rest', _, h', r, r', heq => by
      obtain ⟨before, u, after, mark, tail, hbefore, hx, hafter, hcontinues, htext⟩ :=
        h.exists_first r
      obtain ⟨before', u', after', mark', tail', hbefore', hx', hafter', hcontinues', htext'⟩ :=
        h'.exists_first r'
      have hmark := hcontinues.mark_mem (by decide)
      have hmark' := hcontinues'.mark_mem (by decide)
      obtain ⟨hvalue, hbehind⟩ := Spells.value_unique x hx hx'
        (endsValue_blank_append hafter (endsValue_cons tail hmark))
        (endsValue_blank_append hafter' (endsValue_cons tail' hmark'))
        (hx.padded_unique hx' hbefore hbefore' (htext.symm.trans (heq.trans htext')))
      obtain ⟨rfl, rfl⟩ := mark_unique hafter hafter' hmark hmark' hbehind
      rcases hcontinues with ⟨rfl, rfl, rfl⟩ | ⟨rfl, w, hrest, rfl⟩
      · rcases hcontinues' with ⟨rfl, _, rfl⟩ | ⟨hcomma, _⟩
        · exact ⟨congrArg (fun y => [y]) hvalue, rfl⟩
        · exact absurd hcomma (by decide)
      · rcases hcontinues' with ⟨_, hclose, _⟩ | ⟨_, w', hrest', htail⟩
        · exact absurd hclose (by decide)
        · obtain ⟨hvalues, hr⟩ := SpellsElements.value_unique rest hrest hrest' htail
          exact ⟨congrArg₂ List.cons hvalue hvalues, hr⟩

theorem SpellsMembers.value_unique : (members : List (Text × JsonTree NumberLiteral)) →
    {t : Text} → SpellsMembers members t →
    {members' : List (Text × JsonTree NumberLiteral)} → {t' : Text} →
    SpellsMembers members' t' → {r r' : Text} →
    t ++ CodePoint.closeBrace :: r = t' ++ CodePoint.closeBrace :: r' →
    mapMembers NumberLiteral.value members = mapMembers NumberLiteral.value members' ∧ r = r'
  | [], _, h, _, _, _, _, _, _ => by cases h
  | (key, x) :: rest, _, h, [], _, h', _, _, _ => by cases h'
  | (key, x) :: rest, _, h, (key', x') :: rest', _, h', r, r', heq => by
      obtain ⟨before, k, behind, ahead, u, after, mark, tail, hbefore, hkey, hbehind, hahead, hx,
        hafter, hcontinues, htext⟩ := h.exists_first r
      obtain ⟨before', k', behind', ahead', u', after', mark', tail', hbefore', hkey', hbehind',
        hahead', hx', hafter', hcontinues', htext'⟩ := h'.exists_first r'
      have hmark := hcontinues.mark_mem (by decide)
      have hmark' := hcontinues'.mark_mem (by decide)
      obtain ⟨rfl, hcolon⟩ := hkey.padded_unique hkey' hbefore hbefore'
        (htext.symm.trans (heq.trans htext'))
      have hfirst := (blank_unique hbehind hbehind' (by decide) (by decide) hcolon).2
      obtain ⟨hvalue, hend⟩ := Spells.value_unique x hx hx'
        (endsValue_blank_append hafter (endsValue_cons tail hmark))
        (endsValue_blank_append hafter' (endsValue_cons tail' hmark'))
        (hx.padded_unique hx' hahead hahead' hfirst)
      obtain ⟨rfl, rfl⟩ := mark_unique hafter hafter' hmark hmark' hend
      rcases hcontinues with ⟨rfl, rfl, rfl⟩ | ⟨rfl, w, hrest, rfl⟩
      · rcases hcontinues' with ⟨rfl, _, rfl⟩ | ⟨hcomma, _⟩
        · exact ⟨congrArg (fun y => [(key, y)]) hvalue, rfl⟩
        · exact absurd hcomma (by decide)
      · rcases hcontinues' with ⟨_, hclose, _⟩ | ⟨_, w', hrest', htail⟩
        · exact absurd hclose (by decide)
        · obtain ⟨hvalues, hr⟩ := SpellsMembers.value_unique rest hrest hrest' htail
          exact ⟨congrArg₂ List.cons (congrArg (Prod.mk key) hvalue) hvalues, hr⟩

end

/-- However a text of standard JSON is spelled, it denotes one value. -/
theorem spellsText_value_unique {tree tree' : JsonTree NumberLiteral} {t : Text}
    (h : SpellsText tree t) (h' : SpellsText tree' t) :
    tree.map NumberLiteral.value = tree'.map NumberLiteral.value := by
  obtain ⟨before, u, after, hbefore, hspells, hafter, rfl⟩ := h
  obtain ⟨before', u', after', hbefore', hspells', hafter', htext⟩ := h'
  have hends : ∀ {blank : Text}, IsBlank blank → EndsValue blank := fun {blank} hblank => by
    simpa using endsValue_blank_append hblank endsValue_nil
  exact (Spells.value_unique tree hspells hspells' (hends hafter) (hends hafter')
    (hspells.padded_unique hspells' hbefore hbefore' htext)).1

theorem spellsPayload_value_unique {tree tree' : JsonTree NumberLiteral} {payload : Bytes}
    (h : SpellsPayload tree payload) (h' : SpellsPayload tree' payload) :
    tree.value = tree'.value := by
  obtain ⟨t, htext, hspells⟩ := h
  obtain ⟨t', htext', hspells'⟩ := h'
  obtain rfl : t = t' := Except.ok.inj (htext.symm.trans htext')
  rw [JsonTree.value, JsonTree.value, ← JsonTree.merged_map, ← JsonTree.merged_map,
    spellsText_value_unique hspells hspells']

end VibeScript
