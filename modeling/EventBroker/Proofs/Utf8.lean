import EventBroker.Text.Utf8

/-! # Reading UTF-8 back

The bytes of a text are valid, and they read back as the text: `toString?_ofString`. The proof
follows the widths of a sequence. A leading byte announces how many bytes follow and how far the
first of them may go, and `continuations_cons` puts back six bits for each.
-/
set_option autoImplicit false

namespace EventBroker.Utf8

theorem toNat_bounds (c : Char) : c.toNat < 0xD800 ∨ 0xDFFF < c.toNat ∧ c.toNat < 0x110000 := by
  have h : UInt32.isValidChar c.val := c.valid
  simp only [UInt32.isValidChar, Nat.isValidChar, Char.toNat] at *
  omega

theorem toNat_ofNat {n : Nat} (h : n < 256) : (UInt8.ofNat n).toNat = n := by
  simp [Nat.mod_eq_of_lt h]

/-! ## Sequences by their width -/

theorem continuations_zero (low high acc count : Nat) (rest : List UInt8) :
    continuations 0 low high acc count rest = (some acc, count) := by
  rw [continuations]

/-- A continuation byte within the bounds adds its six bits. -/
theorem continuations_cons {low high m : Nat} (k acc count : Nat) (rest : List UInt8)
    (hm : m < 64) (hlow : low ≤ 0x80 + m) (hhigh : 0x80 + m ≤ high) :
    continuations (k + 1) low high acc count (UInt8.ofNat (0x80 + m) :: rest) =
      continuations k 0x80 0xBF (acc * 64 + m) (count + 1) rest := by
  have hb : (UInt8.ofNat (0x80 + m)).toNat = 0x80 + m := toNat_ofNat (by omega)
  rw [continuations, hb, if_pos ⟨hlow, hhigh⟩, Nat.add_sub_cancel_left]

theorem front_of_lead {b : UInt8} {k low high bits n count : Nat} {rest : List UInt8}
    (hlead : lead? b = some (k, low, high)) (hbits : leadBits k b = bits)
    (hrest : continuations k low high bits 0 rest = (some n, count)) :
    front b rest = (some (Char.ofNat n), count) := by
  simp [front, hlead, hbits, hrest]

theorem front_one {n : Nat} (h : n < 0x80) (rest : List UInt8) :
    front (UInt8.ofNat n) rest = (some (Char.ofNat n), 0) := by
  have hb : (UInt8.ofNat n).toNat = n := toNat_ofNat (by omega)
  have hlead : lead? (UInt8.ofNat n) = some (0, 0x80, 0xBF) := by
    simp only [lead?, hb, if_pos h]
  exact front_of_lead hlead hb (continuations_zero ..)

theorem front_two {n : Nat} (hlow : 0x80 ≤ n) (hhigh : n < 0x800) (rest : List UInt8) :
    front (UInt8.ofNat (0xC0 + n / 64)) (UInt8.ofNat (0x80 + n % 64) :: rest) =
      (some (Char.ofNat n), 1) := by
  have hb : (UInt8.ofNat (0xC0 + n / 64)).toNat = 0xC0 + n / 64 := toNat_ofNat (by omega)
  have hlead : lead? (UInt8.ofNat (0xC0 + n / 64)) = some (1, 0x80, 0xBF) := by
    simp only [lead?, hb]
    rw [if_neg (by omega), if_pos (by omega)]
  have hbits : leadBits 1 (UInt8.ofNat (0xC0 + n / 64)) = n / 64 := by
    change (UInt8.ofNat (0xC0 + n / 64)).toNat - 0xC0 = n / 64
    omega
  refine front_of_lead hlead hbits ?_
  rw [continuations_cons _ _ _ _ (by omega) (by omega) (by omega), continuations_zero,
    show n / 64 * 64 + n % 64 = n by omega]

/-- Three bytes. The first continuation is bounded below after `E0`, since shorter sequences are
shorter, and above after `ED`, since surrogates are no characters. -/
theorem front_three {n : Nat} (hlow : 0x800 ≤ n) (hhigh : n < 0x10000)
    (hplain : n < 0xD800 ∨ 0xDFFF < n) (rest : List UInt8) :
    front (UInt8.ofNat (0xE0 + n / 4096))
        (UInt8.ofNat (0x80 + n / 64 % 64) :: UInt8.ofNat (0x80 + n % 64) :: rest) =
      (some (Char.ofNat n), 2) := by
  have hb : (UInt8.ofNat (0xE0 + n / 4096)).toNat = 0xE0 + n / 4096 := toNat_ofNat (by omega)
  obtain ⟨low, high, hlead, hfrom, hto⟩ : ∃ low high,
      lead? (UInt8.ofNat (0xE0 + n / 4096)) = some (2, low, high) ∧
        low ≤ 0x80 + n / 64 % 64 ∧ 0x80 + n / 64 % 64 ≤ high := by
    simp only [lead?, hb]
    rw [if_neg (by omega), if_neg (by omega)]
    by_cases hfirst : 0xE0 + n / 4096 = 0xE0
    · exact ⟨_, _, if_pos hfirst, by omega, by omega⟩
    · rw [if_neg hfirst]
      by_cases hsur : 0xE0 + n / 4096 = 0xED
      · exact ⟨_, _, if_pos hsur, by omega, by omega⟩
      · rw [if_neg hsur, if_pos (by omega)]
        exact ⟨_, _, rfl, by omega, by omega⟩
  have hbits : leadBits 2 (UInt8.ofNat (0xE0 + n / 4096)) = n / 4096 := by
    change (UInt8.ofNat (0xE0 + n / 4096)).toNat - 0xE0 = n / 4096
    omega
  refine front_of_lead hlead hbits ?_
  rw [continuations_cons _ _ _ _ (by omega) hfrom hto,
    continuations_cons _ _ _ _ (by omega) (by omega) (by omega), continuations_zero,
    show (n / 4096 * 64 + n / 64 % 64) * 64 + n % 64 = n by omega]

/-- Four bytes. The first continuation is bounded below after `F0` and above after `F4`, where the
code points end. -/
theorem front_four {n : Nat} (hlow : 0x10000 ≤ n) (hhigh : n < 0x110000) (rest : List UInt8) :
    front (UInt8.ofNat (0xF0 + n / 262144))
        (UInt8.ofNat (0x80 + n / 4096 % 64) :: UInt8.ofNat (0x80 + n / 64 % 64) ::
          UInt8.ofNat (0x80 + n % 64) :: rest) =
      (some (Char.ofNat n), 3) := by
  have hb : (UInt8.ofNat (0xF0 + n / 262144)).toNat = 0xF0 + n / 262144 :=
    toNat_ofNat (by omega)
  obtain ⟨low, high, hlead, hfrom, hto⟩ : ∃ low high,
      lead? (UInt8.ofNat (0xF0 + n / 262144)) = some (3, low, high) ∧
        low ≤ 0x80 + n / 4096 % 64 ∧ 0x80 + n / 4096 % 64 ≤ high := by
    simp only [lead?, hb]
    rw [if_neg (by omega), if_neg (by omega), if_neg (by omega), if_neg (by omega),
      if_neg (by omega)]
    by_cases hfirst : 0xF0 + n / 262144 = 0xF0
    · exact ⟨_, _, if_pos hfirst, by omega, by omega⟩
    · rw [if_neg hfirst]
      by_cases hmid : 0xF1 ≤ 0xF0 + n / 262144 ∧ 0xF0 + n / 262144 ≤ 0xF3
      · exact ⟨_, _, if_pos hmid, by omega, by omega⟩
      · rw [if_neg hmid, if_pos (by omega)]
        exact ⟨_, _, rfl, by omega, by omega⟩
  have hbits : leadBits 3 (UInt8.ofNat (0xF0 + n / 262144)) = n / 262144 := by
    change (UInt8.ofNat (0xF0 + n / 262144)).toNat - 0xF0 = n / 262144
    omega
  refine front_of_lead hlead hbits ?_
  rw [continuations_cons _ _ _ _ (by omega) hfrom hto,
    continuations_cons _ _ _ _ (by omega) (by omega) (by omega),
    continuations_cons _ _ _ _ (by omega) (by omega) (by omega), continuations_zero,
    show ((n / 262144 * 64 + n / 4096 % 64) * 64 + n / 64 % 64) * 64 + n % 64 = n by omega]

/-! ## Characters and texts -/

theorem front_encodeChar (c : Char) :
    ∃ b bs, encodeChar c = b :: bs ∧ ∀ rest, front b (bs ++ rest) = (some c, bs.length) := by
  have hc := toNat_bounds c
  have hof : Char.ofNat c.toNat = c := Char.ofNat_toNat c
  have h0 : c.toNat / Nat.pow 64 0 % 64 = c.toNat % 64 := by simp
  have h1 : c.toNat / Nat.pow 64 1 % 64 = c.toNat / 64 % 64 := by simp
  have h2 : c.toNat / Nat.pow 64 2 % 64 = c.toNat / 4096 % 64 := by simp
  simp only [encodeChar, h0, h1, h2]
  by_cases hone : c.toNat < 0x80
  · exact ⟨_, _, if_pos hone, fun rest => by simp [front_one hone, hof]⟩
  rw [if_neg hone]
  by_cases htwo : c.toNat < 0x800
  · exact ⟨_, _, if_pos htwo, fun rest => by
      simpa [hof] using front_two (by omega) htwo rest⟩
  rw [if_neg htwo]
  by_cases hthree : c.toNat < 0x10000
  · exact ⟨_, _, if_pos hthree, fun rest => by
      simpa [hof] using front_three (by omega) hthree (by omega) rest⟩
  · exact ⟨_, _, if_neg hthree, fun rest => by
      simpa [hof] using front_four (n := c.toNat) (by omega) (by omega) rest⟩

theorem pieces_encode (cs : List Char) : pieces (encode cs) = cs.map some := by
  induction cs with
  | nil => simp [encode, pieces]
  | cons c cs ih =>
    obtain ⟨b, bs, hbytes, hfront⟩ := front_encodeChar c
    have henc : encode (c :: cs) = b :: (bs ++ encode cs) := by simp [encode, hbytes]
    rw [henc, pieces, hfront]
    simp only [List.drop_left, ih, List.map_cons]

@[simp] theorem decode?_encode (cs : List Char) : decode? (encode cs) = some cs := by
  rw [decode?, pieces_encode]
  induction cs with
  | nil => rfl
  | cons c cs ih => simp_all

/-- The bytes of a text read back as the text. -/
@[simp] theorem toString?_ofString (s : String) : toString? (ofString s) = some s := by
  simp [toString?, ofString]

theorem encode_injective {cs ds : List Char} (h : encode cs = encode ds) : cs = ds := by
  have := congrArg decode? h
  simpa using this

@[simp] theorem encode_nil : encode [] = [] := rfl

@[simp] theorem encode_cons (c : Char) (cs : List Char) :
    encode (c :: cs) = encodeChar c ++ encode cs := rfl

@[simp] theorem encode_append (cs ds : List Char) : encode (cs ++ ds) = encode cs ++ encode ds := by
  simp [encode]

/-- ASCII characters are bytes. -/
theorem encodeChar_ascii {c : Char} (h : c.toNat < 0x80) :
    encodeChar c = [UInt8.ofNat c.toNat] := by
  simp [encodeChar, h]

/-- All bytes of other characters are beyond ASCII. -/
theorem le_of_mem_encodeChar {c : Char} (hc : 0x80 ≤ c.toNat) {b : UInt8}
    (hb : b ∈ encodeChar c) : 0x80 ≤ b.toNat := by
  have hbounds := toNat_bounds c
  have hof : ∀ n, 0x80 ≤ n → n < 256 → b = UInt8.ofNat n → 0x80 ≤ b.toNat := by
    intro n hlow hhigh heq
    rw [heq, toNat_ofNat hhigh]
    exact hlow
  unfold encodeChar at hb
  rw [if_neg (by omega)] at hb
  split at hb
  · simp only [List.mem_cons, List.not_mem_nil, or_false] at hb
    rcases hb with h | h <;> exact hof _ (by omega) (by omega) h
  split at hb
  · simp only [List.mem_cons, List.not_mem_nil, or_false] at hb
    rcases hb with h | h | h <;> exact hof _ (by omega) (by omega) h
  · simp only [List.mem_cons, List.not_mem_nil, or_false] at hb
    rcases hb with h | h | h | h <;> exact hof _ (by omega) (by omega) h

end EventBroker.Utf8
