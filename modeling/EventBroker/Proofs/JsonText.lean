import EventBroker.Json.Reader
import EventBroker.Proofs.Utf8

/-! # JSON text reads back

A value is written as text that reads back as the same value, with nothing left:
`readDocument_bytes`. The numbers must fit 64 bits, since larger ones are rounded when they are
read. The proof goes by the structure of the value; what follows a value in the text is nothing, a
comma or a closing bracket. So whoever decodes a text decodes the value: `decodeWhole_bytes`.
-/
set_option autoImplicit false

namespace EventBroker.Json

/-- Whether what follows a value is nothing, a comma or a closing bracket. -/
def Ends (rest : List UInt8) : Prop := ∀ b ∈ rest.head?, b = 0x2C ∨ b = 0x5D ∨ b = 0x7D

theorem ends_nil : Ends [] := fun _ h => absurd h (Option.not_mem_none _)

theorem ends_cons {b : UInt8} (h : b = 0x2C ∨ b = 0x5D ∨ b = 0x7D) (rest : List UInt8) :
    Ends (b :: rest) := by
  intro a ha
  obtain rfl : b = a := by simpa using ha
  exact h

/-! ## Numbers -/

/-- The value of a digit. -/
def digitValue (c : Char) : Nat := c.toNat - 0x30

theorem isDigit_bounds {c : Char} (h : c.isDigit = true) : 0x30 ≤ c.toNat ∧ c.toNat ≤ 0x39 := by
  simp only [Char.isDigit, Bool.and_eq_true, decide_eq_true_eq] at h
  exact ⟨UInt32.le_iff_toNat_le.mp h.1, UInt32.le_iff_toNat_le.mp h.2⟩

theorem takeDigits_append {cs : List Char} (hcs : ∀ c ∈ cs, c.isDigit = true) {rest : List UInt8}
    (hrest : Ends rest) :
    takeDigits (Utf8.encode cs ++ rest) = (cs.map digitValue, rest) := by
  induction cs with
  | nil =>
    cases rest with
    | nil => rfl
    | cons b rest =>
      have hb : ¬(0x30 ≤ b ∧ b ≤ 0x39) := by
        rcases hrest b rfl with rfl | rfl | rfl <;> decide
      simp [takeDigits, hb]
  | cons c cs ih =>
    obtain ⟨hlow, hhigh⟩ := isDigit_bounds (hcs c List.mem_cons_self)
    have hn : (UInt8.ofNat c.toNat).toNat = c.toNat := Utf8.toNat_ofNat (by omega)
    have hb : 0x30 ≤ UInt8.ofNat c.toNat ∧ UInt8.ofNat c.toNat ≤ 0x39 := by
      simp only [UInt8.le_iff_toNat_le, hn]
      exact ⟨hlow, hhigh⟩
    rw [Utf8.encode_cons, Utf8.encodeChar_ascii (by omega)]
    simp only [List.cons_append, List.nil_append, takeDigits, if_pos hb,
      ih fun c hc => hcs c (List.mem_cons_of_mem _ hc), hn, List.map_cons, digitValue]

theorem toDigits_head {n : Nat} (h : 0 < n) :
    ∃ c cs, Nat.toDigits 10 n = c :: cs ∧ digitValue c ≠ 0 := by
  induction n using Nat.strongRecOn with
  | ind n ih =>
    by_cases hn : n < 10
    · refine ⟨_, _, Nat.toDigits_of_lt_base hn, ?_⟩
      have : ∀ d : Fin 10, 0 < d.val → digitValue d.val.digitChar ≠ 0 := by decide
      exact this ⟨n, hn⟩ h
    · obtain ⟨c, cs, hcs, hc⟩ := ih (n / 10) (by omega) (by omega)
      exact ⟨c, cs ++ [(n % 10).digitChar], by
        rw [Nat.toDigits_of_base_le (by decide) (by omega), hcs, List.cons_append], hc⟩

theorem le_ofDigitChars (cs : List Char) (acc : Nat) : acc ≤ Nat.ofDigitChars 10 cs acc := by
  induction cs generalizing acc with
  | nil => exact Nat.le_refl _
  | cons c cs ih =>
    have := ih (10 * acc + (c.toNat - '0'.toNat))
    rw [Nat.ofDigitChars, List.foldl_cons, ← Nat.ofDigitChars]
    omega

/-- Digits are gathered into the number they write, if it fits a word. -/
theorem gather_digits {cs : List Char} {acc n : Nat} (hn : Nat.ofDigitChars 10 cs acc = n)
    (hword : n ≤ 0xFFFFFFFFFFFFFFFF) : Numeral.gather acc (cs.map digitValue) = (n, []) := by
  induction cs generalizing acc with
  | nil =>
    obtain rfl : acc = n := hn
    rfl
  | cons c cs ih =>
    have hstep : Nat.ofDigitChars 10 cs (acc * 10 + digitValue c) = n := by
      rw [← hn, Nat.mul_comm acc 10]
      rfl
    have hle := le_ofDigitChars cs (acc * 10 + digitValue c)
    rw [List.map_cons, Numeral.gather, if_pos (by omega)]
    exact ih hstep

theorem gather_toDigits {n : Nat} (hword : n ≤ 0xFFFFFFFFFFFFFFFF) :
    Numeral.gather 0 ((Nat.toDigits 10 n).map digitValue) = (n, []) :=
  gather_digits Nat.ofDigitChars_ten_toDigits hword

/-- The numbers that are integers when they are read. -/
def IsWord (n : Int) : Prop := -0x8000000000000000 ≤ n ∧ n ≤ 0xFFFFFFFFFFFFFFFF

/-- Digits without a needless zero in front read as a numeral with nothing but a whole part. -/
theorem readNumber_toDigits (negative : Bool) (n : Nat) {rest : List UInt8} (hrest : Ends rest) :
    readNumber negative (Utf8.encode (Nat.toDigits 10 n) ++ rest) =
      (.number (Numeral.value ⟨negative, (Nat.toDigits 10 n).map digitValue, none, none⟩),
        rest) := by
  have hdigits : ∀ c ∈ Nat.toDigits 10 n, c.isDigit = true := fun c hc =>
    Nat.isDigit_of_mem_toDigits (by decide) (by decide) hc
  have hshape : (Nat.toDigits 10 n).map digitValue = [0] ∨
      ∃ d ds, (Nat.toDigits 10 n).map digitValue = (d + 1) :: ds := by
    rcases Nat.eq_zero_or_pos n with rfl | hn
    · exact .inl (by decide)
    · obtain ⟨c, cs, hcs, hc⟩ := toDigits_head hn
      obtain ⟨d, hd⟩ := Nat.exists_eq_succ_of_ne_zero hc
      exact .inr ⟨d, cs.map digitValue, by rw [hcs, List.map_cons, hd]⟩
  unfold readNumber
  rw [takeDigits_append hdigits hrest]
  generalize (Nat.toDigits 10 n).map digitValue = digits at hshape ⊢
  rcases hshape with rfl | ⟨d, ds, rfl⟩
  all_goals
    cases rest with
    | nil => rfl
    | cons b rest => rcases hrest b rfl with rfl | rfl | rfl <;> rfl

theorem value_natural {n : Nat} (h : n ≤ 0xFFFFFFFFFFFFFFFF) :
    Numeral.value ⟨false, (Nat.toDigits 10 n).map digitValue, none, none⟩ = .ok (.integer n) := by
  simp [Numeral.value, gather_toDigits h]

theorem value_negative {n : Nat} (hpos : 0 < n) (h : n ≤ 0x8000000000000000) :
    Numeral.value ⟨true, (Nat.toDigits 10 n).map digitValue, none, none⟩ =
      .ok (.integer (-n)) := by
  simp [Numeral.value, gather_toDigits (n := n) (by omega), hpos, h]

/-! ## Texts -/

/-- A control character has two hexadecimal digits. -/
theorem padded_control : ∀ n : Fin 32, Hex.padded 2 n.val =
    [Hex.digit ⟨n.val / 16, Nat.div_lt_of_lt_mul (Nat.lt_trans n.isLt (by decide))⟩,
      Hex.digit ⟨n.val % 16, Nat.mod_lt _ (by decide)⟩] := by
  decide

theorem unit?_control : ∀ n : Fin 32, unit? 0x30 0x30
    (UInt8.ofNat (Hex.digit
      ⟨n.val / 16, Nat.div_lt_of_lt_mul (Nat.lt_trans n.isLt (by decide))⟩).toNat)
    (UInt8.ofNat (Hex.digit ⟨n.val % 16, Nat.mod_lt _ (by decide)⟩).toNat) = some n.val := by
  decide

/-- Whether a text of bytes is read as some pieces that stand for other bytes. -/
structure Spells (text : List UInt8) (ps : List Piece) (bs : List UInt8) : Prop where
  read : ∀ acc rest, readPieces acc (text ++ rest) = readPieces (ps.reverse ++ acc) rest
  bytes : ∀ more, piecesBytes .closed (ps ++ more) = (piecesBytes .closed more).map (bs ++ ·)

namespace Spells

theorem nil : Spells [] [] [] where
  read _ _ := rfl
  bytes more := by cases h : piecesBytes .closed more <;> simp [h, Except.map]

theorem append {text text' bs bs' : List UInt8} {ps ps' : List Piece} (h : Spells text ps bs)
    (h' : Spells text' ps' bs') : Spells (text ++ text') (ps ++ ps') (bs ++ bs') where
  read acc rest := by
    rw [List.append_assoc, h.read, h'.read, List.reverse_append, List.append_assoc]
  bytes more := by
    rw [List.append_assoc, h.bytes, h'.bytes]
    cases piecesBytes .closed more <;> simp [Except.map]

/-- A byte that is neither a quote nor a backslash nor a control character stands for itself. -/
theorem byte {b : UInt8} (hquote : b ≠ 0x22) (hescape : b ≠ 0x5C) (hcontrol : ¬b < 0x20) :
    Spells [b] [.byte b] [b] where
  read acc rest := by
    rw [List.singleton_append, readPieces.eq_def]
    simp only [if_neg hquote, if_neg hescape, if_neg hcontrol]
    rfl
  bytes more := rfl

/-- A backslash in front of the letter of an escape. -/
theorem escape {e x : UInt8} (hunit : e ≠ 0x75) (he : escapeByte? e = some x) :
    Spells [0x5C, e] [.byte x] [x] where
  read acc rest := by
    simp only [List.cons_append, List.nil_append]
    rw [readPieces.eq_def]
    simp only [if_neg (show (0x5C : UInt8) ≠ 0x22 by decide), if_true, if_neg hunit, he]
    rfl
  bytes more := rfl

/-- A unit outside the surrogates. -/
theorem unit {a b c d : UInt8} {n : Nat} (hn : unit? a b c d = some n) (hplain : n < 0xD800) :
    Spells [0x5C, 0x75, a, b, c, d] [.unit n] (Utf8.encodeChar (Char.ofNat n)) where
  read acc rest := by
    simp only [List.cons_append, List.nil_append]
    rw [readPieces.eq_def]
    simp only [if_neg (show (0x5C : UInt8) ≠ 0x22 by decide), if_true, hn]
    rfl
  bytes more := by
    have htrailing : isTrailingUnit n = false := by
      simp only [isTrailingUnit, Bool.and_eq_false_imp, decide_eq_true_eq, decide_eq_false_iff_not]
      omega
    have hleading : isLeadingUnit n = false := by
      simp only [isLeadingUnit, Bool.and_eq_false_imp, decide_eq_true_eq, decide_eq_false_iff_not]
      omega
    rw [List.singleton_append, piecesBytes.eq_def]
    simp [htrailing, hleading]

/-- A character that is written as a backslash and one letter. -/
theorem letter {c e : Char} {x : UInt8} (hascii : e.toNat < 0x80)
    (hunit : UInt8.ofNat e.toNat ≠ 0x75) (he : escapeByte? (UInt8.ofNat e.toNat) = some x)
    (hc : Utf8.encodeChar c = [x]) :
    ∃ ps, Spells (Utf8.encode ['\\', e]) ps (Utf8.encodeChar c) := by
  have hback : Utf8.encodeChar '\\' = [0x5C] := by decide
  refine ⟨[.byte x], ?_⟩
  simp only [Utf8.encode_cons, Utf8.encode_nil, hback, Utf8.encodeChar_ascii hascii, hc]
  exact escape hunit he

/-- A control character without a letter of its own. -/
theorem control {c : Char} (hc : c.toNat < 32) :
    ∃ ps, Spells (Utf8.encode (['\\', 'u', '0', '0'] ++ Hex.padded 2 c.toNat)) ps
      (Utf8.encodeChar c) := by
  have hascii : ∀ d : Fin 16, (Hex.digit d).toNat < 0x80 := by decide
  have hfront : Utf8.encode ['\\', 'u', '0', '0'] = [0x5C, 0x75, 0x30, 0x30] := by decide
  refine ⟨[.unit c.toNat], ?_⟩
  have h := unit (unit?_control ⟨c.toNat, hc⟩) (by simp only; omega)
  rw [Char.ofNat_toNat] at h
  rw [padded_control ⟨c.toNat, hc⟩, Utf8.encode_append, hfront]
  simpa [Utf8.encodeChar_ascii (hascii _)] using h

theorem plain {bs : List UInt8} (h : ∀ b ∈ bs, b ≠ 0x22 ∧ b ≠ 0x5C ∧ ¬b < 0x20) :
    ∃ ps, Spells bs ps bs := by
  induction bs with
  | nil => exact ⟨[], nil⟩
  | cons b bs ih =>
    obtain ⟨ps, hps⟩ := ih fun a ha => h a (List.mem_cons_of_mem _ ha)
    obtain ⟨hquote, hescape, hcontrol⟩ := h b List.mem_cons_self
    exact ⟨_, (byte hquote hescape hcontrol).append hps⟩

theorem char (c : Char) : ∃ ps, Spells (Utf8.encode (escapeChar c)) ps (Utf8.encodeChar c) := by
  have heq {n : Nat} (h : c.toNat = n) : c = Char.ofNat n := by rw [← h, Char.ofNat_toNat]
  unfold escapeChar
  split
  · next h =>
    subst h
    exact letter (x := 0x22) (by decide) (by decide) (by decide) (by decide)
  split
  · next h =>
    subst h
    exact letter (x := 0x5C) (by decide) (by decide) (by decide) (by decide)
  split
  · next h =>
    subst h
    exact letter (x := 10) (by decide) (by decide) (by decide) (by decide)
  split
  · next h =>
    subst h
    exact letter (x := 13) (by decide) (by decide) (by decide) (by decide)
  split
  · next h =>
    subst h
    exact letter (x := 9) (by decide) (by decide) (by decide) (by decide)
  split
  · next h =>
    obtain rfl := heq h
    exact letter (x := 8) (by decide) (by decide) (by decide) (by decide)
  split
  · next h =>
    obtain rfl := heq h
    exact letter (x := 12) (by decide) (by decide) (by decide) (by decide)
  split
  · next h => exact control h
  · next hquote hescape _ _ _ _ _ hcontrol =>
    rw [Utf8.encode_cons, Utf8.encode_nil, List.append_nil]
    refine plain fun b hb => ?_
    rcases Nat.lt_or_ge c.toNat 0x80 with hascii | hbeyond
    · rw [Utf8.encodeChar_ascii hascii] at hb
      obtain rfl := List.mem_singleton.mp hb
      have hn : (UInt8.ofNat c.toNat).toNat = c.toNat := Utf8.toNat_ofNat (by omega)
      refine ⟨fun h => hquote ?_, fun h => hescape ?_, fun h => hcontrol ?_⟩
      · exact heq (by rw [← hn, h]; rfl)
      · exact heq (by rw [← hn, h]; rfl)
      · rw [← hn]
        exact UInt8.lt_iff_toNat_lt.mp h
    · have hle := Utf8.le_of_mem_encodeChar hbeyond hb
      refine ⟨?_, ?_, fun h => ?_⟩
      · rintro rfl
        exact absurd hle (by decide)
      · rintro rfl
        exact absurd hle (by decide)
      · have : b.toNat < 32 := UInt8.lt_iff_toNat_lt.mp h
        omega

theorem text (cs : List Char) :
    ∃ ps, Spells (Utf8.encode (cs.flatMap escapeChar)) ps (Utf8.encode cs) := by
  induction cs with
  | nil => exact ⟨[], nil⟩
  | cons c cs ih =>
    obtain ⟨ps, hps⟩ := char c
    obtain ⟨qs, hqs⟩ := ih
    refine ⟨ps ++ qs, ?_⟩
    rw [List.flatMap_cons, Utf8.encode_append, Utf8.encode_cons]
    exact hps.append hqs

end Spells

theorem quote_bytes (s : String) :
    Utf8.ofString (quote s) = 0x22 :: (Utf8.encode (s.toList.flatMap escapeChar) ++ [0x22]) := by
  have hquote : Utf8.encodeChar '"' = [0x22] := by decide
  simp [Utf8.ofString, quote, hquote]

/-- A quoted text reads back as the text. -/
theorem readText_quote (s : String) (rest : List UInt8) :
    readText (Utf8.encode (s.toList.flatMap escapeChar) ++ 0x22 :: rest) = .ok (.ok s, rest) := by
  obtain ⟨ps, hps⟩ := Spells.text s.toList
  have hread : readPieces [] (Utf8.encode (s.toList.flatMap escapeChar) ++ 0x22 :: rest) =
      (ps.reverse, .closed, rest) := by
    rw [hps.read, readPieces.eq_def]
    simp
  have hbytes : piecesBytes .closed ps = .ok (Utf8.encode s.toList) := by
    have h := hps.bytes []
    rw [List.append_nil] at h
    rw [h]
    simp [piecesBytes, Except.map]
  have htext : piecesText ps .closed = .ok s := by
    unfold piecesText
    rw [hbytes]
    simp only
    rw [show Utf8.encode s.toList = Utf8.ofString s from rfl, Utf8.toString?_ofString]
  unfold readText
  rw [hread]
  simp [htext]

/-! ## Values -/

/-- Induction on a value with its items and the values of its members. -/
theorem induction_on {P : Json → Prop} (v : Json) (null : P .null) (bool : ∀ b, P (.bool b))
    (number : ∀ n, P (.number n)) (string : ∀ s, P (.string s))
    (array : ∀ items, (∀ v ∈ items, P v) → P (.array items))
    (object : ∀ members : List (String × Json), (∀ m ∈ members, P m.2) → P (.object members)) :
    P v :=
  @Json.rec P (fun items => ∀ v ∈ items, P v) (fun members => ∀ m ∈ members, P m.2)
    (fun m => P m.2) null bool number string array object
    (fun _ h => absurd h List.not_mem_nil)
    (fun _ _ hv hrest _ h => (List.mem_cons.mp h).elim (fun he => he ▸ hv) (hrest _))
    (fun _ h => absurd h List.not_mem_nil)
    (fun _ _ hm hrest _ h => (List.mem_cons.mp h).elim (fun he => he ▸ hm) (hrest _))
    (fun _ _ hv => hv) v

mutual

/-- Whether all numbers in a value are integers when they are read. -/
def HasWords : Json → Prop
  | .number n => IsWord n
  | .array items => ItemsHaveWords items
  | .object members => MembersHaveWords members
  | _ => True

def ItemsHaveWords : List Json → Prop
  | [] => True
  | v :: rest => v.HasWords ∧ ItemsHaveWords rest

def MembersHaveWords : List (String × Json) → Prop
  | [] => True
  | (_, v) :: rest => v.HasWords ∧ MembersHaveWords rest

end

theorem hasWords_of_mem {items : List Json} (h : ItemsHaveWords items) {v : Json}
    (hv : v ∈ items) : v.HasWords := by
  induction items with
  | nil => cases hv
  | cons w rest ih =>
    obtain ⟨hw, hrest⟩ := h
    rcases List.mem_cons.mp hv with rfl | hv
    · exact hw
    · exact ih hrest hv

theorem hasWords_of_mem_members {members : List (String × Json)} (h : MembersHaveWords members)
    {m : String × Json} (hm : m ∈ members) : m.2.HasWords := by
  induction members with
  | nil => cases hm
  | cons w rest ih =>
    obtain ⟨hw, hrest⟩ := h
    rcases List.mem_cons.mp hm with rfl | hm
    · exact hw
    · exact ih hrest hm

/-- The bytes of the text of a value. -/
def bytes (v : Json) : List UInt8 := Utf8.ofString v.render

/-- The bytes of an array's text after its first item. -/
def itemsTail : List Json → List UInt8
  | [] => [0x5D]
  | v :: rest => 0x2C :: (v.bytes ++ itemsTail rest)

def memberBytes (m : String × Json) : List UInt8 := Utf8.ofString (quote m.1) ++ 0x3A :: m.2.bytes

def membersTail : List (String × Json) → List UInt8
  | [] => [0x7D]
  | m :: rest => 0x2C :: (memberBytes m ++ membersTail rest)

theorem ofString_append (s t : String) :
    Utf8.ofString (s ++ t) = Utf8.ofString s ++ Utf8.ofString t := by
  simp [Utf8.ofString]

theorem items_bytes (v : Json) (items : List Json) :
    Utf8.ofString (String.intercalate "," (renderItems (v :: items))) ++ [0x5D] =
      v.bytes ++ itemsTail items := by
  induction items generalizing v with
  | nil => simp [renderItems, itemsTail, bytes]
  | cons w rest ih =>
    have hcomma : Utf8.ofString "," = [0x2C] := by decide
    rw [renderItems, renderItems, String.intercalate_cons_cons, ← renderItems]
    simp only [ofString_append, hcomma, List.append_assoc, ih w, itemsTail, bytes,
      List.cons_append, List.nil_append]

theorem array_bytes (v : Json) (items : List Json) :
    (Json.array (v :: items)).bytes = 0x5B :: (v.bytes ++ itemsTail items) := by
  have hopen : Utf8.ofString "[" = [0x5B] := by decide
  have hclose : Utf8.ofString "]" = [0x5D] := by decide
  rw [bytes, render, ofString_append, ofString_append, hopen, hclose, List.append_assoc,
    items_bytes, List.singleton_append]

theorem members_bytes (m : String × Json) (members : List (String × Json)) :
    Utf8.ofString (String.intercalate "," (renderMembers (m :: members))) ++ [0x7D] =
      memberBytes m ++ membersTail members := by
  have hcolon : Utf8.ofString ":" = [0x3A] := by decide
  have hcomma : Utf8.ofString "," = [0x2C] := by decide
  induction members generalizing m with
  | nil => simp [renderMembers, membersTail, memberBytes, bytes, ofString_append, hcolon]
  | cons w rest ih =>
    rw [renderMembers, renderMembers, String.intercalate_cons_cons, ← renderMembers]
    simp only [ofString_append, hcomma, hcolon, List.append_assoc, ih w, membersTail, memberBytes,
      bytes, List.cons_append, List.nil_append]

theorem object_bytes (m : String × Json) (members : List (String × Json)) :
    (Json.object (m :: members)).bytes = 0x7B :: (memberBytes m ++ membersTail members) := by
  have hopen : Utf8.ofString "\x7b" = [0x7B] := by decide
  have hclose : Utf8.ofString "\x7d" = [0x7D] := by decide
  rw [bytes, render, ofString_append, ofString_append, hopen, hclose, List.append_assoc,
    members_bytes, List.singleton_append]

/-! ## Reading values -/

theorem skipBlanks_cons {b : UInt8} (h : 0x20 < b) (rest : List UInt8) :
    skipBlanks (b :: rest) = b :: rest := by
  have hne : ∀ a : UInt8, a ≤ 0x20 → b ≠ a := by
    rintro a ha rfl
    exact absurd h (UInt8.not_lt.mpr ha)
  have hblank : ¬(b = 0x20 ∨ b = 0x0A ∨ b = 0x09 ∨ b = 0x0D) := by
    rintro (h | h | h | h)
    · exact hne _ (by decide) h
    · exact hne _ (by decide) h
    · exact hne _ (by decide) h
    · exact hne _ (by decide) h
  rw [skipBlanks, if_neg hblank]

theorem integerText_bytes (n : Int) :
    Utf8.ofString (integerText n) =
      if n < 0 then 0x2D :: Utf8.encode (Nat.toDigits 10 n.natAbs)
      else Utf8.encode (Nat.toDigits 10 n.natAbs) := by
  have hminus : Utf8.ofString "-" = [0x2D] := by decide
  unfold integerText
  split
  · rw [ofString_append, hminus]
    simp [Utf8.ofString, Text.decimal]
  · simp [Utf8.ofString, Text.decimal]

theorem encode_toDigits (n : Nat) :
    ∃ b bs, Utf8.encode (Nat.toDigits 10 n) = b :: bs ∧ 0x30 ≤ b ∧ b ≤ 0x39 := by
  cases hds : Nat.toDigits 10 n with
  | nil => exact absurd hds Nat.toDigits_ne_nil
  | cons c cs =>
    have hc : c ∈ Nat.toDigits 10 n := hds ▸ List.mem_cons_self
    obtain ⟨hlow, hhigh⟩ := isDigit_bounds (Nat.isDigit_of_mem_toDigits (by decide) (by decide) hc)
    have hn : (UInt8.ofNat c.toNat).toNat = c.toNat := Utf8.toNat_ofNat (by omega)
    refine ⟨UInt8.ofNat c.toNat, Utf8.encode cs, ?_, ?_, ?_⟩
    · rw [Utf8.encode_cons, Utf8.encodeChar_ascii (by omega)]
      rfl
    · exact UInt8.le_iff_toNat_le.mpr (by rw [hn]; exact hlow)
    · exact UInt8.le_iff_toNat_le.mpr (by rw [hn]; exact hhigh)

/-- A value starts with a byte that is neither blank nor the end of an array. -/
theorem bytes_head (v : Json) : ∃ b bs, v.bytes = b :: bs ∧ 0x20 < b ∧ b ≠ 0x5D := by
  have hopen : Utf8.ofString "[" = [0x5B] := by decide
  have hbrace : Utf8.ofString "\x7b" = [0x7B] := by decide
  cases v with
  | null => exact ⟨0x6E, [0x75, 0x6C, 0x6C], by decide, by decide, by decide⟩
  | bool b =>
    cases b
    · exact ⟨0x66, [0x61, 0x6C, 0x73, 0x65], by decide, by decide, by decide⟩
    · exact ⟨0x74, [0x72, 0x75, 0x65], by decide, by decide, by decide⟩
  | number n =>
    obtain ⟨b, bs, hbytes, hlow, hhigh⟩ := encode_toDigits n.natAbs
    rw [bytes, render, integerText_bytes]
    split
    · exact ⟨0x2D, _, rfl, by decide, by decide⟩
    · refine ⟨b, bs, hbytes, UInt8.lt_of_lt_of_le (by decide) hlow, ?_⟩
      rintro rfl
      exact absurd hhigh (by decide)
  | string s => exact ⟨0x22, _, by rw [bytes, render, quote_bytes], by decide, by decide⟩
  | array items =>
    exact ⟨0x5B, _, by
      rw [bytes, render, ofString_append, ofString_append, hopen, List.append_assoc,
        List.singleton_append], by decide, by decide⟩
  | object members =>
    exact ⟨0x7B, _, by
      rw [bytes, render, ofString_append, ofString_append, hbrace, List.append_assoc,
        List.singleton_append], by decide, by decide⟩

theorem exists_succ {n fuel : Nat} (h : 2 * n ≤ fuel) (hn : n ≠ 0) : ∃ f, fuel = f + 1 :=
  ⟨fuel - 1, by omega⟩

/-- Whether a value is read from its text, wherever the text stands and with any sufficient bound on
the depth of the calls. -/
def Reads (v : Json) : Prop := ∀ (fuel : Nat) (rest : List UInt8), 2 * v.bytes.length ≤ fuel →
  Ends rest → readValue fuel (v.bytes ++ rest) = (v.toDocument, rest)

theorem reads_number {n : Int} (hn : IsWord n) : (Json.number n).Reads := by
  intro fuel rest hfuel hrest
  obtain ⟨hlow, hhigh⟩ := hn
  obtain ⟨b, bs, hbytes, hb, hb'⟩ := encode_toDigits n.natAbs
  rw [bytes, render, integerText_bytes] at hfuel ⊢
  split
  case isTrue hneg =>
    obtain ⟨fuel, rfl⟩ := exists_succ hfuel (by simp [hneg])
    rw [List.cons_append, readValue, skipBlanks_cons (by decide)]
    simp only [show (0x2D : UInt8) ≠ 0x6E by decide, show (0x2D : UInt8) ≠ 0x74 by decide,
      show (0x2D : UInt8) ≠ 0x66 by decide, if_false, if_true]
    rw [readNumber_toDigits true _ hrest, value_negative (by omega) (by omega)]
    have : -((n.natAbs : Nat) : Int) = n := by omega
    rw [this]
    rfl
  case isFalse hneg =>
    obtain ⟨fuel, rfl⟩ := exists_succ hfuel (by simp [hneg, hbytes])
    have hne : ∀ a : UInt8, ¬(0x30 ≤ a ∧ a ≤ 0x39) → b ≠ a := by
      rintro a ha rfl
      exact ha ⟨hb, hb'⟩
    have hread := readNumber_toDigits false n.natAbs hrest
    rw [hbytes, List.cons_append] at hread ⊢
    rw [readValue, skipBlanks_cons (UInt8.lt_of_lt_of_le (by decide) hb)]
    simp only [hne 0x6E (by decide), hne 0x74 (by decide), hne 0x66 (by decide),
      hne 0x2D (by decide), if_false]
    rw [if_pos ⟨hb, hb'⟩, hread, value_natural (by omega)]
    have : ((n.natAbs : Nat) : Int) = n := by omega
    rw [this]
    rfl

theorem reads_string (s : String) : (Json.string s).Reads := by
  intro fuel rest hfuel hrest
  rw [bytes, render, quote_bytes] at hfuel ⊢
  obtain ⟨fuel, rfl⟩ := exists_succ hfuel (by simp)
  rw [List.cons_append, readValue, skipBlanks_cons (by decide)]
  simp only [show (0x22 : UInt8) ≠ 0x6E by decide, show (0x22 : UInt8) ≠ 0x74 by decide,
    show (0x22 : UInt8) ≠ 0x66 by decide, show (0x22 : UInt8) ≠ 0x2D by decide,
    show ¬((0x30 : UInt8) ≤ 0x22 ∧ (0x22 : UInt8) ≤ 0x39) by decide, if_false, if_true]
  rw [List.append_assoc, List.singleton_append, readText_quote]
  rfl

theorem readItems_render {v : Json} {items : List Json} (hv : v.Reads)
    (hitems : ∀ w ∈ items, w.Reads) (fuel : Nat)
    (hfuel : 2 * (v.bytes ++ itemsTail items).length ≤ fuel) (acc : List Document)
    (rest : List UInt8) :
    readItems fuel acc (v.bytes ++ itemsTail items ++ rest) =
      (.array (acc.reverse ++ toDocuments (v :: items)) .closed, rest) := by
  induction items generalizing v fuel acc with
  | nil =>
    obtain ⟨fuel, rfl⟩ := exists_succ hfuel (by simp [itemsTail])
    simp only [itemsTail, List.length_append, List.length_singleton] at hfuel
    rw [readItems, itemsTail, List.append_assoc, List.singleton_append,
      hv fuel (0x5D :: rest) (by omega) (ends_cons (by decide) rest)]
    simp only [skipBlanks_cons (show (0x20 : UInt8) < 0x5D by decide), if_true, List.reverse_cons,
      toDocuments]
  | cons w items ih =>
    obtain ⟨fuel, rfl⟩ := exists_succ hfuel (by simp [itemsTail])
    simp only [itemsTail, List.length_append, List.length_cons] at hfuel
    obtain ⟨b, bs, hbytes, hblank, hend⟩ := w.bytes_head
    have hrest := ih (hitems w List.mem_cons_self)
      (fun x hx => hitems x (List.mem_cons_of_mem _ hx)) fuel
      (by simp only [List.length_append]; omega) (v.toDocument :: acc)
    rw [readItems, itemsTail, List.append_assoc, List.cons_append,
      hv fuel _ (by omega) (ends_cons (by decide) _)]
    simp only [skipBlanks_cons (show (0x20 : UInt8) < 0x2C by decide),
      show (0x2C : UInt8) ≠ 0x5D by decide, if_false, if_true]
    rw [hbytes] at hrest ⊢
    simp only [List.cons_append] at hrest ⊢
    rw [skipBlanks_cons hblank]
    simp only [hend, if_false]
    rw [hrest]
    simp [toDocuments]

theorem reads_array {items : List Json} (h : ∀ v ∈ items, v.Reads) : (Json.array items).Reads := by
  intro fuel rest hfuel hrest
  cases items with
  | nil =>
    have hbytes : (Json.array []).bytes = [0x5B, 0x5D] := by decide
    rw [hbytes] at hfuel ⊢
    obtain ⟨fuel, rfl⟩ := exists_succ hfuel (by simp)
    simp only [List.cons_append, List.nil_append]
    rw [readValue, skipBlanks_cons (by decide)]
    simp [skipBlanks_cons, toDocument, toDocuments]
  | cons v items =>
    rw [array_bytes] at hfuel ⊢
    obtain ⟨fuel, rfl⟩ := exists_succ hfuel (by simp)
    obtain ⟨b, bs, hbytes, hblank, hend⟩ := v.bytes_head
    have hread := readItems_render (h v List.mem_cons_self)
      (fun w hw => h w (List.mem_cons_of_mem _ hw)) fuel
      (by simp only [List.length_cons] at hfuel; omega) [] rest
    rw [hbytes] at hread ⊢
    simp only [List.cons_append] at hread ⊢
    rw [readValue, skipBlanks_cons (by decide)]
    simp only [show (0x5B : UInt8) ≠ 0x6E by decide, show (0x5B : UInt8) ≠ 0x74 by decide,
      show (0x5B : UInt8) ≠ 0x66 by decide, show (0x5B : UInt8) ≠ 0x2D by decide,
      show ¬((0x30 : UInt8) ≤ 0x5B ∧ (0x5B : UInt8) ≤ 0x39) by decide,
      show (0x5B : UInt8) ≠ 0x22 by decide, if_false, if_true, skipBlanks_cons hblank, hend]
    exact hread

/-- Reads the name of a member, its colon and its value. -/
theorem readMembers_render {m : String × Json} {members : List (String × Json)} (hm : m.2.Reads)
    (hmembers : ∀ w ∈ members, w.2.Reads) (fuel : Nat)
    (hfuel : 2 * (memberBytes m ++ membersTail members).length ≤ fuel) (acc : List Member)
    (rest : List UInt8) :
    readMembers fuel acc (memberBytes m ++ membersTail members ++ rest) =
      (.object (acc.reverse ++ toMembers (m :: members)) .closed, rest) := by
  induction members generalizing m fuel acc with
  | nil =>
    obtain ⟨fuel, rfl⟩ := exists_succ hfuel (by simp [membersTail])
    simp only [membersTail, memberBytes, List.length_append, List.length_cons] at hfuel
    simp only [memberBytes, quote_bytes, membersTail, List.append_assoc, List.cons_append,
      List.nil_append]
    rw [readMembers]
    simp only [readText_quote, skipBlanks_cons (show (0x20 : UInt8) < 0x3A by decide)]
    rw [hm fuel (0x7D :: rest) (by omega) (ends_cons (by decide) rest)]
    simp only [skipBlanks_cons (show (0x20 : UInt8) < 0x7D by decide), if_true, List.reverse_cons,
      toMembers]
  | cons w members ih =>
    obtain ⟨fuel, rfl⟩ := exists_succ hfuel (by simp [membersTail])
    have hrest := ih (hmembers w List.mem_cons_self)
      (fun x hx => hmembers x (List.mem_cons_of_mem _ hx)) fuel
      (by simp only [membersTail, memberBytes, List.length_append, List.length_cons] at hfuel ⊢
          omega) ((.ok m.1, m.2.toDocument) :: acc)
    simp only [membersTail, memberBytes, List.length_append, List.length_cons] at hfuel
    simp only [memberBytes, quote_bytes, membersTail, List.append_assoc, List.cons_append,
      List.nil_append] at hrest ⊢
    rw [readMembers]
    simp only [readText_quote, skipBlanks_cons (show (0x20 : UInt8) < 0x3A by decide)]
    rw [hm fuel _ (by omega) (ends_cons (by decide) _)]
    simp only [skipBlanks_cons (show (0x20 : UInt8) < 0x2C by decide),
      skipBlanks_cons (show (0x20 : UInt8) < 0x22 by decide),
      show (0x2C : UInt8) ≠ 0x7D by decide, show (0x22 : UInt8) ≠ 0x7D by decide, if_false,
      if_true]
    rw [hrest]
    simp [toMembers]

theorem reads_object {members : List (String × Json)} (h : ∀ m ∈ members, m.2.Reads) :
    (Json.object members).Reads := by
  intro fuel rest hfuel hrest
  cases members with
  | nil =>
    have hbytes : (Json.object []).bytes = [0x7B, 0x7D] := by decide
    rw [hbytes] at hfuel ⊢
    obtain ⟨fuel, rfl⟩ := exists_succ hfuel (by simp)
    simp only [List.cons_append, List.nil_append]
    rw [readValue, skipBlanks_cons (by decide)]
    simp [skipBlanks_cons, toDocument, toMembers]
  | cons m members =>
    rw [object_bytes] at hfuel ⊢
    obtain ⟨fuel, rfl⟩ := exists_succ hfuel (by simp)
    have hread := readMembers_render (h m List.mem_cons_self)
      (fun w hw => h w (List.mem_cons_of_mem _ hw)) fuel
      (by simp only [List.length_cons] at hfuel; omega) [] rest
    simp only [memberBytes, quote_bytes, List.append_assoc, List.cons_append] at hread ⊢
    rw [readValue, skipBlanks_cons (by decide)]
    simp only [show (0x7B : UInt8) ≠ 0x6E by decide, show (0x7B : UInt8) ≠ 0x74 by decide,
      show (0x7B : UInt8) ≠ 0x66 by decide, show (0x7B : UInt8) ≠ 0x2D by decide,
      show ¬((0x30 : UInt8) ≤ 0x7B ∧ (0x7B : UInt8) ≤ 0x39) by decide,
      show (0x7B : UInt8) ≠ 0x22 by decide, show (0x7B : UInt8) ≠ 0x5B by decide, if_false,
      if_true, skipBlanks_cons (show (0x20 : UInt8) < 0x22 by decide),
      show (0x22 : UInt8) ≠ 0x7D by decide]
    exact hread

/-- Every value whose numbers are words is read from its text. -/
theorem reads_of_hasWords (v : Json) (h : v.HasWords) : v.Reads := by
  induction v using induction_on with
  | null =>
    intro fuel rest hfuel _
    have hbytes : Json.null.bytes = [0x6E, 0x75, 0x6C, 0x6C] := by decide
    rw [hbytes] at hfuel ⊢
    obtain ⟨fuel, rfl⟩ := exists_succ hfuel (by simp)
    simp only [List.cons_append, List.nil_append]
    rw [readValue, skipBlanks_cons (by decide)]
    simp [readLiteral, toDocument]
  | bool b =>
    intro fuel rest hfuel _
    cases b with
    | false =>
      have hbytes : (Json.bool false).bytes = [0x66, 0x61, 0x6C, 0x73, 0x65] := by decide
      rw [hbytes] at hfuel ⊢
      obtain ⟨fuel, rfl⟩ := exists_succ hfuel (by simp)
      simp only [List.cons_append, List.nil_append]
      rw [readValue, skipBlanks_cons (by decide)]
      simp [readLiteral, toDocument]
    | true =>
      have hbytes : (Json.bool true).bytes = [0x74, 0x72, 0x75, 0x65] := by decide
      rw [hbytes] at hfuel ⊢
      obtain ⟨fuel, rfl⟩ := exists_succ hfuel (by simp)
      simp only [List.cons_append, List.nil_append]
      rw [readValue, skipBlanks_cons (by decide)]
      simp [readLiteral, toDocument]
  | number n => exact reads_number h
  | string s => exact reads_string s
  | array items ih => exact reads_array fun v hv => ih v hv (hasWords_of_mem h hv)
  | object members ih => exact reads_object fun m hm => ih m hm (hasWords_of_mem_members h hm)

/-- The text of a value reads back as the value, and nothing is left. -/
theorem readDocument_bytes {v : Json} (h : v.HasWords) :
    readDocument v.bytes = (v.toDocument, []) := by
  have hread := reads_of_hasWords v h (2 * v.bytes.length + 2) [] (by omega) ends_nil
  rwa [List.append_nil] at hread

/-- Whoever decodes the text of a value gets what the value decodes to. -/
theorem decodeWhole_bytes {α : Type} (decode : Decoder α) {v : Json} (h : v.HasWords) :
    decodeWhole decode v.bytes = decode v.toDocument := by
  rw [decodeWhole, readDocument_bytes h]
  cases hd : decode v.toDocument <;> simp [hd, skipBlanks]

end EventBroker.Json
