import Mathlib.Data.List.Basic
import VibeScript.Proofs.Json.Encoding

/-!
UTF-8 that was written is read back (`decodeUtf8_encodeUtf8`), and nothing else is read
(`decodeUtf8_eq_ok_iff`).

A character is read from its own bytes, whatever follows them.  That it is no surrogate
matters for three bytes only: there it keeps the second one in the narrower range behind
the byte 0xED.  The other way round the narrower ranges keep what is read in the numbers that
are written with so many bytes.

What can be written under a rule for surrogates is decided by the characters of a text one by one
(`SurrogateRule.exists_encode_iff`).
-/

namespace VibeScript

theorem toNat_ofNat_of_lt {n : Nat} (h : n < 256) : (UInt8.ofNat n).toNat = n := by
  rw [UInt8.toNat_ofNat']
  exact Nat.mod_eq_of_lt h

/-- A byte that goes on with a character is read for its six low bits. -/
theorem utf8Continue_ofNat {low high extra value byte n : Nat} {rest : Bytes}
    (hbyte : byte < 256) (hlow : low ≤ byte) (hhigh : byte ≤ high)
    (h : utf8Continue 0x80 0xBF extra (value * 64 + (byte - 0x80)) rest = .ok n) :
    utf8Continue low high (extra + 1) value (UInt8.ofNat byte :: rest) = .ok n := by
  rw [utf8Continue, toNat_ofNat_of_lt hbyte, if_pos ⟨hlow, hhigh⟩, h]

/-- A first byte and those that it announces make a character. -/
theorem decodeUtf8From_lead {first : Nat} {lead : Utf8Lead} {tail rest : Bytes} {c : CodePoint}
    (hfirst : 0x80 ≤ first ∧ first < 256) (hlead : utf8Lead? first = some lead)
    (hlength : tail.length = lead.extra)
    (h : utf8Continue lead.low lead.high lead.extra lead.bits (tail ++ rest) = .ok c.val)
    (position : Nat) (done : Text) :
    decodeUtf8From position done (UInt8.ofNat first :: tail ++ rest) =
      decodeUtf8From (position + (UInt8.ofNat first :: tail).length) (c :: done) rest := by
  have hself : CodePoint.ofNat c.val = c := CodePoint.ext_val (CodePoint.val_ofNat c.val_lt)
  have hposition : position + 1 + lead.extra =
      position + (UInt8.ofNat first :: tail).length := by
    rw [List.length_cons, hlength]
    omega
  rw [List.cons_append, decodeUtf8From, toNat_ofNat_of_lt hfirst.2,
    if_neg (Nat.not_lt.mpr hfirst.1)]
  simp only [hlead, h, hself, hposition]
  rw [← hlength, List.drop_left]

/-- A character that is no surrogate is read from its bytes. -/
theorem decodeUtf8From_utf8 {c : CodePoint} (hc : c.isSurrogate = false) (position : Nat)
    (done : Text) (rest : Bytes) :
    decodeUtf8From position done (c.utf8 ++ rest) =
      decodeUtf8From (position + c.utf8.length) (c :: done) rest := by
  have hlt := c.val_lt
  simp only [CodePoint.isSurrogate, Bool.and_eq_false_iff, decide_eq_false_iff_not] at hc
  unfold CodePoint.utf8
  dsimp only
  split
  case isTrue hone =>
    have hself : CodePoint.ofNat c.val = c := CodePoint.ext_val (CodePoint.val_ofNat c.val_lt)
    rw [List.singleton_append, decodeUtf8From, toNat_ofNat_of_lt (by omega), if_pos hone, hself]
    rfl
  split
  case isTrue htwo =>
    have hlead : utf8Lead? (0xC0 + c.val / 64) = some ⟨1, 0x80, 0xBF, c.val / 64⟩ := by
      rw [utf8Lead?, if_neg (by omega), if_pos (by omega), Nat.add_sub_cancel_left]
    apply decodeUtf8From_lead (by omega) hlead rfl
    apply utf8Continue_ofNat (by omega) (by dsimp only; omega) (by dsimp only; omega)
    rw [utf8Continue]
    exact congrArg _ (by dsimp only; omega)
  split
  case isTrue hthree =>
    have hlead : utf8Lead? (0xE0 + c.val / 4096) = some ⟨2,
        if 0xE0 + c.val / 4096 = 0xE0 then 0xA0 else 0x80,
        if 0xE0 + c.val / 4096 = 0xED then 0x9F else 0xBF, c.val / 4096⟩ := by
      rw [utf8Lead?, if_neg (by omega), if_neg (by omega), if_pos (by omega),
        Nat.add_sub_cancel_left]
    apply decodeUtf8From_lead (by omega) hlead rfl
    apply utf8Continue_ofNat (by omega) (by dsimp only; split <;> omega)
      (by dsimp only; split <;> omega)
    apply utf8Continue_ofNat (by omega) (by omega) (by omega)
    rw [utf8Continue]
    exact congrArg _ (by dsimp only; omega)
  case isFalse hfour =>
    have hlead : utf8Lead? (0xF0 + c.val / 262144) = some ⟨3,
        if 0xF0 + c.val / 262144 = 0xF0 then 0x90 else 0x80,
        if 0xF0 + c.val / 262144 = 0xF4 then 0x8F else 0xBF, c.val / 262144⟩ := by
      rw [utf8Lead?, if_neg (by omega), if_neg (by omega), if_neg (by omega),
        if_pos (by omega), Nat.add_sub_cancel_left]
    apply decodeUtf8From_lead (by omega) hlead rfl
    apply utf8Continue_ofNat (by omega) (by dsimp only; split <;> omega)
      (by dsimp only; split <;> omega)
    apply utf8Continue_ofNat (by omega) (by omega) (by omega)
    apply utf8Continue_ofNat (by omega) (by omega) (by omega)
    rw [utf8Continue]
    exact congrArg _ (by dsimp only; omega)

theorem decodeUtf8From_flatMap {t : Text} (h : t.Encodable) (position : Nat) (done : Text) :
    decodeUtf8From position done (t.flatMap CodePoint.utf8) = .ok (done.reverse ++ t) := by
  induction t generalizing position done with
  | nil => simp [decodeUtf8From]
  | cons c rest ih =>
      obtain ⟨hc, hrest⟩ := Text.encodable_cons_iff.mp h
      rw [List.flatMap_cons, decodeUtf8From_utf8 hc, ih hrest]
      simp

/-- A text without surrogates has a UTF-8 form, and it is read back from it. -/
theorem decodeUtf8_encodeUtf8 {t : Text} (h : t.Encodable) :
    encodeUtf8 t = .ok (t.flatMap CodePoint.utf8) ∧
      decodeUtf8 (t.flatMap CodePoint.utf8) = .ok t := by
  constructor
  · rw [encodeUtf8, surrogateRun?_eq_none_iff.mpr h]
  · exact decodeUtf8From_flatMap h 0 []

/-! Only what is written can be read. -/

theorem ofNat_eq_of_toNat {b : UInt8} {n : Nat} (h : b.toNat = n) : UInt8.ofNat n = b := by
  rw [← h, UInt8.ofNat_toNat]

/-- What goes on with a character starts with a byte in range, and the others go on from there. -/
theorem exists_of_utf8Continue {low high extra value n : Nat} {bytes : Bytes}
    (h : utf8Continue low high (extra + 1) value bytes = .ok n) :
    ∃ b rest, bytes = b :: rest ∧ low ≤ b.toNat ∧ b.toNat ≤ high ∧
      utf8Continue 0x80 0xBF extra (value * 64 + (b.toNat - 0x80)) rest = .ok n := by
  cases bytes with
  | nil => cases h
  | cons b rest =>
      by_cases hrange : low ≤ b.toNat ∧ b.toNat ≤ high
      · rw [utf8Continue, if_pos hrange] at h
        refine ⟨b, rest, rfl, hrange.1, hrange.2, ?_⟩
        cases hrest : utf8Continue 0x80 0xBF extra (value * 64 + (b.toNat - 0x80)) rest with
        | ok m =>
            rw [hrest] at h
            exact h
        | error fault =>
            rw [hrest] at h
            cases h
      · rw [utf8Continue, if_neg hrange] at h
        cases h

/-- What a first byte and those that it announces are read as is a character that is no
surrogate, and they are its bytes. -/
theorem utf8_of_lead {b : UInt8} {lead : Utf8Lead} {n : Nat} {rest : Bytes}
    (hlead : utf8Lead? b.toNat = some lead)
    (h : utf8Continue lead.low lead.high lead.extra lead.bits rest = .ok n) :
    (CodePoint.ofNat n).isSurrogate = false ∧
      b :: rest = (CodePoint.ofNat n).utf8 ++ rest.drop lead.extra := by
  have hself {n : Nat} (hn : n < 0x110000) : (CodePoint.ofNat n).val = n := CodePoint.val_ofNat hn
  simp only [CodePoint.isSurrogate, Bool.and_eq_false_iff, decide_eq_false_iff_not]
  unfold CodePoint.utf8
  unfold utf8Lead? at hlead
  split at hlead
  · cases hlead
  split at hlead
  case isTrue htwo =>
    cases hlead
    obtain ⟨b₁, rest, rfl, hlow, hhigh, h⟩ := exists_of_utf8Continue h
    have hn := Except.ok.inj h
    dsimp only at hlow hhigh hn ⊢
    rw [hself (by omega), if_neg (by omega), if_pos (by omega),
      ofNat_eq_of_toNat (b := b) (by omega), ofNat_eq_of_toNat (b := b₁) (by omega)]
    exact ⟨by omega, rfl⟩
  split at hlead
  case isTrue hthree =>
    cases hlead
    obtain ⟨b₁, rest, rfl, hlow, hhigh, h⟩ := exists_of_utf8Continue h
    obtain ⟨b₂, rest, rfl, hlow₂, hhigh₂, h⟩ := exists_of_utf8Continue h
    have hn := Except.ok.inj h
    dsimp only at hlow hhigh hn ⊢
    -- the narrower ranges rule out what two bytes can write, and the surrogates
    have hlong : 0x80 ≤ b₁.toNat ∧ 0x800 ≤ n := by split at hlow <;> omega
    have hplain : b₁.toNat ≤ 0xBF ∧ (¬0xD800 ≤ n ∨ ¬n ≤ 0xDFFF) := by split at hhigh <;> omega
    rw [hself (by omega), if_neg (by omega), if_neg (by omega), if_pos (by omega),
      ofNat_eq_of_toNat (b := b) (by omega), ofNat_eq_of_toNat (b := b₁) (by omega),
      ofNat_eq_of_toNat (b := b₂) (by omega)]
    exact ⟨hplain.2, rfl⟩
  split at hlead
  case isTrue hfour =>
    cases hlead
    obtain ⟨b₁, rest, rfl, hlow, hhigh, h⟩ := exists_of_utf8Continue h
    obtain ⟨b₂, rest, rfl, hlow₂, hhigh₂, h⟩ := exists_of_utf8Continue h
    obtain ⟨b₃, rest, rfl, hlow₃, hhigh₃, h⟩ := exists_of_utf8Continue h
    have hn := Except.ok.inj h
    dsimp only at hlow hhigh hn ⊢
    -- the narrower ranges rule out what three bytes can write, and what is no code point
    have hlong : 0x80 ≤ b₁.toNat ∧ 0x10000 ≤ n := by split at hlow <;> omega
    have hshort : b₁.toNat ≤ 0xBF ∧ n < 0x110000 := by split at hhigh <;> omega
    rw [hself hshort.2, if_neg (by omega), if_neg (by omega), if_neg (by omega),
      ofNat_eq_of_toNat (b := b) (by omega), ofNat_eq_of_toNat (b := b₁) (by omega),
      ofNat_eq_of_toNat (b := b₂) (by omega), ofNat_eq_of_toNat (b := b₃) (by omega)]
    exact ⟨by omega, rfl⟩
  · cases hlead

/-- A byte of its own is read as a character that is no surrogate, and it is its only byte. -/
theorem utf8_of_single {b : UInt8} (h : b.toNat < 0x80) :
    (CodePoint.ofNat b.toNat).isSurrogate = false ∧ (CodePoint.ofNat b.toNat).utf8 = [b] := by
  have hself : (CodePoint.ofNat b.toNat).val = b.toNat := CodePoint.val_ofNat (by omega)
  constructor
  · simp only [CodePoint.isSurrogate, Bool.and_eq_false_iff, decide_eq_false_iff_not]
    omega
  · unfold CodePoint.utf8
    dsimp only
    rw [hself, if_pos h, UInt8.ofNat_toNat]

/-- Bytes that are read are those of the characters that they are read as. -/
theorem flatMap_of_decodeUtf8From {position : Nat} {done t : Text} {bytes : Bytes}
    (h : decodeUtf8From position done bytes = .ok t) :
    ∃ read : Text, t = done.reverse ++ read ∧ read.Encodable ∧
      bytes = read.flatMap CodePoint.utf8 := by
  fun_induction decodeUtf8From position done bytes with
  | case1 position done =>
      cases h
      exact ⟨[], (List.append_nil _).symm, Text.encodable_nil, rfl⟩
  | case2 position done b rest hsingle ih =>
      obtain ⟨hplain, hbyte⟩ := utf8_of_single hsingle
      obtain ⟨read, rfl, hread, rfl⟩ := ih h
      refine ⟨CodePoint.ofNat b.toNat :: read, by simp,
        Text.encodable_cons_iff.mpr ⟨hplain, hread⟩, ?_⟩
      rw [List.flatMap_cons, hbyte]
      rfl
  | case4 position done b rest hsingle lead hlead n hn ih =>
      obtain ⟨hplain, hbytes⟩ := utf8_of_lead hlead hn
      obtain ⟨read, rfl, hread, hrest⟩ := ih h
      refine ⟨CodePoint.ofNat n :: read, by simp,
        Text.encodable_cons_iff.mpr ⟨hplain, hread⟩, ?_⟩
      rw [List.flatMap_cons, hbytes, hrest]
  | case3 => cases h
  | case5 => cases h

theorem encodeUtf8_eq_ok_iff {t : Text} {bytes : Bytes} :
    encodeUtf8 t = .ok bytes ↔ t.Encodable ∧ t.flatMap CodePoint.utf8 = bytes := by
  rw [← surrogateRun?_eq_none_iff, encodeUtf8]
  cases surrogateRun? t <;> simp

/-- Bytes are read as a text exactly if they are its UTF-8 form. -/
theorem decodeUtf8_eq_ok_iff {bytes : Bytes} {t : Text} :
    decodeUtf8 bytes = .ok t ↔ encodeUtf8 t = .ok bytes := by
  rw [encodeUtf8_eq_ok_iff]
  constructor
  · intro h
    obtain ⟨read, rfl, hread, rfl⟩ := flatMap_of_decodeUtf8From h
    exact ⟨hread, rfl⟩
  · rintro ⟨hencodable, rfl⟩
    exact (decodeUtf8_encodeUtf8 hencodable).2

/-! Rules for surrogates. -/

theorem CodePoint.isSurrogate_of_isStrayByte {c : CodePoint} (h : c.isStrayByte = true) :
    c.isSurrogate = true := by
  simp only [isStrayByte, Bool.and_eq_true, decide_eq_true_eq] at h
  simp only [isSurrogate, Bool.and_eq_true, decide_eq_true_eq]
  omega

namespace SurrogateRule

variable {rule : SurrogateRule} {s t : Text}

/-- The texts that can be written under a rule. -/
def Writes (rule : SurrogateRule) (t : Text) : Prop :=
  match rule with
  | .refused => t.Encodable
  | .strayBytes => ∀ c ∈ t, c.isSurrogate = true → c.isStrayByte = true
  | .escaped => True

instance (rule : SurrogateRule) (t : Text) : Decidable (rule.Writes t) :=
  match rule with
  | .refused => inferInstanceAs (Decidable t.Encodable)
  | .strayBytes => inferInstanceAs (Decidable (∀ c ∈ t, _))
  | .escaped => inferInstanceAs (Decidable True)

theorem writes_strayBytes_iff : Writes .strayBytes t ↔
    runFrom? (fun c => c.isSurrogate && !c.isStrayByte) t = none := by
  rw [runFrom?_eq_none_iff, Writes]
  simp

theorem exists_encode_iff : (∃ bytes, rule.encode t = .ok bytes) ↔ rule.Writes t := by
  cases rule with
  | refused =>
      simp only [encode, encodeUtf8_eq_ok_iff, Writes, exists_and_left, exists_eq', and_true]
  | strayBytes =>
      rw [writes_strayBytes_iff, encode]
      cases runFrom? (fun c => c.isSurrogate && !c.isStrayByte) t <;> simp
  | escaped => exact ⟨fun _ => trivial, fun _ => ⟨_, rfl⟩⟩

/-- A text can be written exactly if its parts can. -/
theorem writes_append_iff : rule.Writes (s ++ t) ↔ rule.Writes s ∧ rule.Writes t := by
  cases rule with
  | refused => exact Text.encodable_append_iff
  | strayBytes => simp only [Writes, List.mem_append, or_imp, forall_and]
  | escaped => simp only [Writes, and_self]

/-- A text without surrogates is written alike under every rule. -/
theorem encode_of_encodable (h : t.Encodable) (rule : SurrogateRule) :
    rule.encode t = .ok (t.flatMap CodePoint.utf8) := by
  cases rule with
  | refused => exact encodeUtf8_eq_ok_iff.mpr ⟨h, rfl⟩
  | strayBytes =>
      have hwrites : Writes .strayBytes t := fun c hc hsurrogate => by simp [h c hc] at hsurrogate
      rw [encode, writes_strayBytes_iff.mp hwrites]
      refine congrArg _ (List.flatMap_congr fun c hc => if_neg fun hstray => ?_)
      simpa [h c hc] using CodePoint.isSurrogate_of_isStrayByte hstray
  | escaped =>
      refine congrArg _ (List.flatMap_congr fun c hc => if_neg ?_)
      simp [h c hc]

theorem writes_of_encodable (h : t.Encodable) (rule : SurrogateRule) : rule.Writes t :=
  exists_encode_iff.mp ⟨_, encode_of_encodable h rule⟩

end SurrogateRule

end VibeScript
