import EventBroker.Text.Percent
import EventBroker.Proofs.Utf8

/-! # Percent-coded text

A text is written in characters that a set lets through, in percent signs and in hexadecimal digits
(`mem_encode`). If the set asks for the percent sign itself, decoding gives the text back, whatever
it is: `decodeText?_encode`.
-/
set_option autoImplicit false

namespace EventBroker.Percent

theorem upperDigit_toNat (d : Fin 16) : (Hex.upperDigit d).toNat < 128 := by
  revert d; decide

/-- An ASCII character is the character of its byte. -/
theorem ofNat_byte {c : Char} (h : c.toNat < 128) :
    Char.ofNat (UInt8.ofNat c.toNat).toNat = c := by
  rw [Utf8.toNat_ofNat (by omega), Char.ofNat_toNat]

theorem byte_halves (b : UInt8) (h : b.toNat / 16 < 16) (l : b.toNat % 16 < 16) :
    Hex.byte ⟨b.toNat / 16, h⟩ ⟨b.toNat % 16, l⟩ = b := by
  unfold Hex.byte
  rw [Nat.div_add_mod, UInt8.ofNat_toNat]

/-! ## Decoding what was coded -/

theorem decode_cons {b : UInt8} (h : b ≠ 0x25) (rest : List UInt8) :
    decode (b :: rest) = b :: decode rest := by
  rw [decode.eq_def]
  simp only [if_neg h]

/-- A percent sign with two hexadecimal digits, in either case, is the byte that they write. -/
theorem decode_digits {h l : Char} {hi lo : Fin 16} (hh : Hex.value? h = some hi)
    (hl : Hex.value? l = some lo) (hascii : h.toNat < 128 ∧ l.toNat < 128) (rest : List UInt8) :
    decode (Utf8.encode ['%', h, l] ++ rest) = Hex.byte hi lo :: decode rest := by
  have hpercent : Utf8.encodeChar '%' = [0x25] := by decide
  simp only [Utf8.encode_cons, Utf8.encode_nil, hpercent, Utf8.encodeChar_ascii hascii.1,
    Utf8.encodeChar_ascii hascii.2, List.cons_append, List.nil_append]
  rw [decode]
  simp only [ofNat_byte hascii.1, ofNat_byte hascii.2, hh, hl, if_true]

theorem decode_escape (b : UInt8) (rest : List UInt8) :
    decode (Utf8.encode (escape b) ++ rest) = b :: decode rest := by
  rw [escape, Hex.ofByteUpper, decode_digits (Hex.value?_upperDigit _) (Hex.value?_upperDigit _)
    ⟨upperDigit_toNat _, upperDigit_toNat _⟩, byte_halves]

theorem decode_escapes (bs rest : List UInt8) :
    decode (Utf8.encode (bs.flatMap escape) ++ rest) = bs ++ decode rest := by
  induction bs with
  | nil => simp
  | cons b bs ih => simp only [List.flatMap_cons, Utf8.encode_append, List.append_assoc,
      decode_escape, ih, List.cons_append]

variable {set : Char → Bool}

theorem decode_encodeChar (hset : set '%' = true) (c : Char) (rest : List UInt8) :
    decode (Utf8.encode (encodeChar set c) ++ rest) = Utf8.encodeChar c ++ decode rest := by
  unfold encodeChar
  split
  case isTrue h =>
    have hc : UInt8.ofNat c.toNat ≠ 0x25 := by
      intro heq
      have hn : c.toNat = 0x25 := by
        rw [← Utf8.toNat_ofNat (n := c.toNat) (by omega), heq]
        rfl
      have : c = '%' := by rw [← Char.ofNat_toNat c, hn]
      rw [this, hset] at h
      exact Bool.noConfusion h.2
    rw [Utf8.encode_cons, Utf8.encodeChar_ascii h.1]
    simp only [Utf8.encode_nil, List.cons_append, List.nil_append]
    exact decode_cons hc rest
  case isFalse => exact decode_escapes _ _

theorem decode_encode (hset : set '%' = true) (cs : List Char) :
    decode (Utf8.encode (encode set cs)) = Utf8.encode cs := by
  induction cs with
  | nil => simp [encode, decode]
  | cons c cs ih =>
    rw [show encode set (c :: cs) = encodeChar set c ++ encode set cs from rfl,
      Utf8.encode_append, decode_encodeChar hset, ih, Utf8.encode_cons]

theorem encode_injective (hset : set '%' = true) {cs ds : List Char}
    (h : encode set cs = encode set ds) : cs = ds := by
  apply Utf8.encode_injective
  rw [← decode_encode hset cs, h, decode_encode hset ds]

theorem decodeText?_encode (hset : set '%' = true) (s : String) :
    decodeText? (String.ofList (encode set s.toList)) = some s := by
  unfold decodeText? Utf8.ofString
  rw [String.toList_ofList, decode_encode hset]
  exact Utf8.toString?_ofString s

/-! ## Characters of a coded text -/

theorem mem_escape {b : UInt8} {c : Char} (h : c ∈ escape b) :
    c = '%' ∨ ∃ d, c = Hex.upperDigit d := by
  simp only [escape, Hex.ofByteUpper, List.mem_cons, List.not_mem_nil, or_false] at h
  obtain h | h | h := h
  · exact .inl h
  · exact .inr ⟨_, h⟩
  · exact .inr ⟨_, h⟩

theorem mem_encode {cs : List Char} {c : Char} (h : c ∈ encode set cs) :
    c = '%' ∨ (∃ d, c = Hex.upperDigit d) ∨ (c.toNat < 128 ∧ set c = false) := by
  obtain ⟨a, -, ha⟩ := List.mem_flatMap.mp h
  unfold encodeChar at ha
  split at ha
  case isTrue hplain =>
    obtain rfl := List.mem_singleton.mp ha
    exact .inr (.inr hplain)
  case isFalse =>
    obtain ⟨b, -, hb⟩ := List.mem_flatMap.mp ha
    exact (mem_escape hb).elim .inl (.inr ∘ .inl)

/-- What holds of percent signs, of digits and of the characters that the set lets through holds of
all characters of a coded text. All of them are ASCII, so this can be checked. -/
theorem forall_mem_encode {P : Char → Prop} (hpercent : P '%')
    (hdigit : ∀ d, P (Hex.upperDigit d))
    (hplain : ∀ n : Fin 128, set (Char.ofNat n.val) = false → P (Char.ofNat n.val))
    {cs : List Char} {c : Char} (h : c ∈ encode set cs) : P c := by
  rcases mem_encode h with rfl | ⟨d, rfl⟩ | ⟨hascii, hc⟩
  · exact hpercent
  · exact hdigit d
  · have hn := hplain ⟨c.toNat, hascii⟩
    rw [Char.ofNat_toNat] at hn
    exact hn hc

end EventBroker.Percent
