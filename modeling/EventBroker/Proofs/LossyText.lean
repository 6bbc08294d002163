import EventBroker.Proofs.Utf8
import Mathlib.Data.List.Basic

/-! # Text from any bytes

Which bytes are read as what. A valid sequence is a leading byte followed by as many bytes as it
announces, each within its bounds (`exists_encodeChar_iff`), and the beginnings of valid sequences
are the ones that are too short (`isBeginning_iff`). So bytes are divided in one way only into valid
sequences and maximal invalid parts: `shows_iff` says that this is how `decodeLossy` reads them.
-/
set_option autoImplicit false

namespace EventBroker.Utf8

/-! ## What may follow a leading byte -/

/-- Continuation bytes, the first of them between two bounds. -/
def Continues (low high : Nat) : List UInt8 → Prop
  | [] => True
  | b :: rest => (low ≤ b.toNat ∧ b.toNat ≤ high) ∧ ∀ b ∈ rest, 0x80 ≤ b.toNat ∧ b.toNat ≤ 0xBF

variable {low high k : Nat} {b : UInt8} {bs : List UInt8}

theorem continues_cons_iff :
    Continues low high (b :: bs) ↔ (low ≤ b.toNat ∧ b.toNat ≤ high) ∧ Continues 0x80 0xBF bs := by
  cases bs with
  | nil => simp [Continues]
  | cons c rest => simp only [Continues, List.forall_mem_cons]

theorem Continues.of_append {bs' : List UInt8} (h : Continues low high (bs ++ bs')) :
    Continues low high bs := by
  induction bs generalizing low high with
  | nil => trivial
  | cons b bs ih =>
    rw [List.cons_append, continues_cons_iff] at h
    exact continues_cons_iff.mpr ⟨h.1, ih h.2⟩

/-- Too few continuation bytes can be made enough. -/
theorem Continues.extend (h : Continues low high bs) (hbounds : low ≤ high ∧ high < 256)
    (hlen : bs.length ≤ k) : ∃ more, Continues low high (bs ++ more) ∧ (bs ++ more).length = k := by
  induction k generalizing low high bs with
  | zero => exact ⟨[], by simpa using h, by simpa using hlen⟩
  | succ k ih =>
    cases bs with
    | nil =>
      have hnil : Continues 0x80 0xBF [] := trivial
      obtain ⟨more, hmore, hk⟩ := ih hnil (by decide) (Nat.zero_le k)
      have hlow : (UInt8.ofNat low).toNat = low := toNat_ofNat (by omega)
      refine ⟨UInt8.ofNat low :: more, ?_, by simpa using hk⟩
      exact continues_cons_iff.mpr ⟨by omega, hmore⟩
    | cons b bs =>
      obtain ⟨hb, hbs⟩ := continues_cons_iff.mp h
      obtain ⟨more, hmore, hk⟩ := ih hbs (by decide) (Nat.le_of_succ_le_succ hlen)
      exact ⟨more, continues_cons_iff.mpr ⟨hb, hmore⟩, congrArg Nat.succ hk⟩

/-- How far continuation bytes are read: as far as they go on, and to the end if all are there. -/
theorem continuations_spec (k low high acc count : Nat) (bs : List UInt8) :
    ∃ n, (continuations k low high acc count bs).2 = count + n ∧ n ≤ k ∧ n ≤ bs.length ∧
      Continues low high (bs.take n) ∧
      (∀ j, n < j → j ≤ k → j ≤ bs.length → ¬ Continues low high (bs.take j)) ∧
      ((continuations k low high acc count bs).1.isSome = true ↔ n = k) := by
  induction k generalizing low high acc count bs with
  | zero =>
    refine ⟨0, by rw [continuations_zero]; rfl, Nat.le_refl 0, Nat.zero_le _, trivial, ?_, ?_⟩
    · intro j hj hk
      omega
    · simp [continuations_zero]
  | succ k ih =>
    cases bs with
    | nil =>
      refine ⟨0, rfl, Nat.zero_le _, Nat.le_refl 0, trivial, ?_, by simp [continuations]⟩
      intro j hj _ hlen
      simp only [List.length_nil] at hlen
      omega
    | cons b rest =>
      rw [continuations]
      by_cases hb : low ≤ b.toNat ∧ b.toNat ≤ high
      · rw [if_pos hb]
        obtain ⟨n, hcount, hk, hlen, hread, hmax, hsome⟩ :=
          ih 0x80 0xBF (acc * 64 + (b.toNat - 0x80)) (count + 1) rest
        refine ⟨n + 1, by rw [hcount]; omega, by omega, by simpa using hlen,
          continues_cons_iff.mpr ⟨hb, hread⟩, ?_, by rw [hsome]; omega⟩
        intro j hj hjk hjlen hj'
        obtain ⟨j, rfl⟩ : ∃ i, j = i + 1 := ⟨j - 1, by omega⟩
        rw [List.take_succ_cons, continues_cons_iff] at hj'
        exact hmax j (by omega) (by omega) (by simpa using hjlen) hj'.2
      · rw [if_neg hb]
        refine ⟨0, rfl, Nat.zero_le _, Nat.zero_le _, trivial, ?_, by simp⟩
        intro j hj hjk hjlen hj'
        obtain ⟨j, rfl⟩ : ∃ i, j = i + 1 := ⟨j - 1, by omega⟩
        rw [List.take_succ_cons, continues_cons_iff] at hj'
        exact hb hj'.1

/-! ## Valid sequences and their beginnings -/

/-- What the leading bytes announce. -/
theorem lead?_cases (h : lead? b = some (k, low, high)) :
    (k = 0 ∧ b.toNat < 0x80 ∧ low = 0x80 ∧ high = 0xBF) ∨
    (k = 1 ∧ 0xC2 ≤ b.toNat ∧ b.toNat ≤ 0xDF ∧ low = 0x80 ∧ high = 0xBF) ∨
    (k = 2 ∧ 0xE0 ≤ b.toNat ∧ b.toNat ≤ 0xEF ∧ 0x80 ≤ low ∧ low ≤ high ∧ high ≤ 0xBF ∧
      (b.toNat = 0xE0 → low = 0xA0) ∧ (b.toNat = 0xED → high = 0x9F)) ∨
    (k = 3 ∧ 0xF0 ≤ b.toNat ∧ b.toNat ≤ 0xF4 ∧ 0x80 ≤ low ∧ low ≤ high ∧ high ≤ 0xBF ∧
      (b.toNat = 0xF0 → low = 0x90) ∧ (b.toNat = 0xF4 → high = 0x8F)) := by
  simp only [lead?] at h
  repeat' split at h
  all_goals cases h
  all_goals omega

/-- A valid code point has a character. -/
theorem toNat_charOfNat {n : Nat} (h : n < 0xD800 ∨ 0xDFFF < n ∧ n < 0x110000) :
    (Char.ofNat n).toNat = n := by
  have hvalid : n.isValidChar := h
  rw [Char.ofNat, dif_pos hvalid]
  rfl

theorem ofNat_eq {n : Nat} (h : n = b.toNat) : UInt8.ofNat n = b := by
  rw [h, UInt8.ofNat_toNat]

/-- What a leading byte announces, with bytes that follow within their bounds, is a character. -/
theorem exists_encodeChar (h : lead? b = some (bs.length, low, high))
    (hbs : Continues low high bs) : ∃ c, encodeChar c = b :: bs := by
  obtain ⟨hlen, hb, -⟩ | ⟨hlen, hb, hb', rfl, rfl⟩ | ⟨hlen, hb, hb', hlow, -, hhigh, hfirst, hsur⟩ |
    ⟨hlen, hb, hb', hlow, -, hhigh, hfirst, hlast⟩ := lead?_cases h
  · obtain rfl := List.length_eq_zero_iff.mp hlen
    refine ⟨Char.ofNat b.toNat, ?_⟩
    rw [encodeChar_ascii] <;> rw [toNat_charOfNat (by omega)]
    · rw [UInt8.ofNat_toNat]
    · exact hb
  · obtain ⟨x, rfl⟩ := List.length_eq_one_iff.mp hlen
    obtain ⟨hx, -⟩ := continues_cons_iff.mp hbs
    obtain ⟨n, hn⟩ : ∃ n, n = (b.toNat - 0xC0) * 64 + (x.toNat - 0x80) := ⟨_, rfl⟩
    refine ⟨Char.ofNat n, ?_⟩
    simp only [encodeChar, toNat_charOfNat (n := n) (by omega)]
    rw [if_neg (by omega), if_pos (by omega), ofNat_eq (b := b) (by omega),
      ofNat_eq (b := x) (by simp only [Nat.pow_eq]; omega)]
  · obtain ⟨x, y, rfl⟩ := List.length_eq_two.mp hlen
    obtain ⟨hx, hxs⟩ := continues_cons_iff.mp hbs
    obtain ⟨hy, -⟩ := continues_cons_iff.mp hxs
    obtain ⟨n, hn⟩ : ∃ n, n = ((b.toNat - 0xE0) * 64 + (x.toNat - 0x80)) * 64 + (y.toNat - 0x80) :=
      ⟨_, rfl⟩
    refine ⟨Char.ofNat n, ?_⟩
    simp only [encodeChar, toNat_charOfNat (n := n) (by omega)]
    rw [if_neg (by omega), if_neg (by omega), if_pos (by omega), ofNat_eq (b := b) (by omega),
      ofNat_eq (b := x) (by simp only [Nat.pow_eq]; omega),
      ofNat_eq (b := y) (by simp only [Nat.pow_eq]; omega)]
  · obtain ⟨x, y, z, rfl⟩ := List.length_eq_three.mp hlen
    obtain ⟨hx, hxs⟩ := continues_cons_iff.mp hbs
    obtain ⟨hy, hys⟩ := continues_cons_iff.mp hxs
    obtain ⟨hz, -⟩ := continues_cons_iff.mp hys
    obtain ⟨n, hn⟩ : ∃ n, n = (((b.toNat - 0xF0) * 64 + (x.toNat - 0x80)) * 64 +
        (y.toNat - 0x80)) * 64 + (z.toNat - 0x80) := ⟨_, rfl⟩
    refine ⟨Char.ofNat n, ?_⟩
    simp only [encodeChar, toNat_charOfNat (n := n) (by omega)]
    rw [if_neg (by omega), if_neg (by omega), if_neg (by omega), ofNat_eq (b := b) (by omega),
      ofNat_eq (b := x) (by simp only [Nat.pow_eq]; omega),
      ofNat_eq (b := y) (by simp only [Nat.pow_eq]; omega),
      ofNat_eq (b := z) (by simp only [Nat.pow_eq]; omega)]

/-- How the front of some bytes is read: as far as the leading byte announces and the bytes go on,
and as a character if all announced bytes are there. -/
theorem front_spec (hlead : lead? b = some (k, low, high)) (bs : List UInt8) :
    ∃ n, (front b bs).2 = n ∧ n ≤ k ∧ n ≤ bs.length ∧ Continues low high (bs.take n) ∧
      (∀ j, n < j → j ≤ k → j ≤ bs.length → ¬ Continues low high (bs.take j)) ∧
      ((front b bs).1.isSome = true ↔ n = k) := by
  obtain ⟨n, hcount, hk, hlen, hread, hmax, hsome⟩ :=
    continuations_spec k low high (leadBits k b) 0 bs
  refine ⟨n, ?_, hk, hlen, hread, hmax, ?_⟩
  · simp only [front, hlead]
    cases hc : continuations k low high (leadBits k b) 0 bs with
    | mk o m => cases o <;> simpa [hc] using hcount
  · rw [← hsome]
    simp only [front, hlead]
    cases hc : continuations k low high (leadBits k b) 0 bs with
    | mk o m => cases o <;> simp

/-- The characters are the leading bytes with as many bytes as they announce, within bounds. -/
theorem exists_encodeChar_iff : (∃ c, encodeChar c = b :: bs) ↔
    ∃ low high, lead? b = some (bs.length, low, high) ∧ Continues low high bs := by
  constructor
  · rintro ⟨c, hc⟩
    obtain ⟨b', bs', hc', hfront⟩ := front_encodeChar c
    obtain ⟨rfl, rfl⟩ := List.cons.inj (hc'.symm.trans hc)
    have hread := hfront []
    rw [List.append_nil] at hread
    cases hlead : lead? b' with
    | none =>
      simp [front, hlead] at hread
    | some announced =>
      obtain ⟨k, low, high⟩ := announced
      obtain ⟨n, hn, -, -, hbs, -, hsome⟩ := front_spec hlead bs'
      rw [hread] at hn hsome
      obtain rfl : bs'.length = n := hn
      obtain rfl : bs'.length = k := hsome.mp rfl
      rw [List.take_length] at hbs
      exact ⟨low, high, rfl, hbs⟩
  · rintro ⟨low, high, hlead, hbs⟩
    exact exists_encodeChar hlead hbs

/-- Bytes with which the bytes of a character begin. -/
def IsBeginning (bs : List UInt8) : Prop := ∃ c, bs <+: encodeChar c

theorem isBeginning_iff : IsBeginning (b :: bs) ↔
    ∃ k low high, lead? b = some (k, low, high) ∧ bs.length ≤ k ∧ Continues low high bs := by
  constructor
  · rintro ⟨c, more, hc⟩
    have hc' : encodeChar c = b :: (bs ++ more) := hc.symm
    obtain ⟨low, high, hlead, hbs⟩ := exists_encodeChar_iff.mp ⟨c, hc'⟩
    exact ⟨_, low, high, hlead, by rw [List.length_append]; omega, hbs.of_append⟩
  · rintro ⟨k, low, high, hlead, hlen, hbs⟩
    have hbounds : low ≤ high ∧ high < 256 := by
      have := lead?_cases hlead
      omega
    obtain ⟨more, hmore, rfl⟩ := hbs.extend hbounds hlen
    obtain ⟨c, hc⟩ := exists_encodeChar hlead hmore
    exact ⟨c, more, hc.symm⟩

/-! ## Invalid parts -/

/-- A part that no character begins: the longest beginning of one, or else a single byte. -/
structure MaximalInvalid (part rest : List UInt8) : Prop where
  nonempty : part ≠ []
  invalid : ∀ c, ¬ encodeChar c <+: part ++ rest
  begins : part.length = 1 ∨ IsBeginning part
  longest : ∀ longer, part.length < longer.length → longer <+: part ++ rest → ¬ IsBeginning longer

/-- There is only one maximal invalid part in front. -/
theorem MaximalInvalid.length_le {part rest part' rest' : List UInt8} (h : MaximalInvalid part rest)
    (h' : MaximalInvalid part' rest') (he : part ++ rest = part' ++ rest') :
    part'.length ≤ part.length := by
  refine Nat.le_of_not_lt fun hlt => ?_
  have hone : part.length ≠ 0 := fun h0 => h.nonempty (List.length_eq_zero_iff.mp h0)
  have hbegins : IsBeginning part' := h'.begins.resolve_left (by omega)
  exact h.longest part' (by omega) ⟨rest', he.symm⟩ hbegins

theorem front_valid {c : Char} {n : Nat} (h : front b bs = (some c, n)) :
    encodeChar c = b :: bs.take n := by
  cases hlead : lead? b with
  | none => simp [front, hlead] at h
  | some announced =>
    obtain ⟨k, low, high⟩ := announced
    obtain ⟨m, hm, -, hlen, hbs, -, hsome⟩ := front_spec hlead bs
    rw [h] at hm hsome
    obtain rfl : n = m := hm
    obtain rfl : n = k := hsome.mp rfl
    have htake : (bs.take n).length = n := by
      rw [List.length_take]
      omega
    rw [← htake] at hlead
    obtain ⟨c', hc'⟩ := exists_encodeChar hlead hbs
    obtain ⟨b', bs', hb', hfront⟩ := front_encodeChar c'
    obtain ⟨rfl, rfl⟩ := List.cons.inj (hb'.symm.trans hc')
    have hread := hfront (bs.drop n)
    rw [List.take_append_drop, h] at hread
    obtain rfl : c = c' := Option.some.inj (congrArg Prod.fst hread)
    exact hc'

/-- A byte that leads nothing is an invalid part by itself. -/
theorem maximalInvalid_of_not_lead (hlead : lead? b = none) (bs : List UInt8) :
    MaximalInvalid [b] bs := by
  have hnever (more : List UInt8) : ¬ IsBeginning (b :: more) := by
    intro hb
    obtain ⟨k, low, high, hsome, -⟩ := isBeginning_iff.mp hb
    rw [hlead] at hsome
    cases hsome
  refine ⟨List.cons_ne_nil _ _, fun c hc => ?_, .inl rfl, fun longer hlong hprefix => ?_⟩
  · obtain ⟨b', bs', hb', -⟩ := front_encodeChar c
    rw [hb', List.singleton_append, List.cons_prefix_cons] at hc
    obtain ⟨rfl, -⟩ := hc
    exact hnever bs' ⟨c, hb' ▸ List.prefix_refl _⟩
  · cases longer with
    | nil => simp at hlong
    | cons b' more =>
      obtain ⟨rfl, -⟩ := List.cons_prefix_cons.mp hprefix
      exact hnever more

/-- A leading byte with fewer bytes after it than it announces is an invalid part with these. -/
theorem maximalInvalid_of_short {n : Nat} (hlead : lead? b = some (k, low, high)) (hlt : n < k)
    (hbs : Continues low high (bs.take n))
    (hmax : ∀ j, n < j → j ≤ k → j ≤ bs.length → ¬ Continues low high (bs.take j)) :
    MaximalInvalid (b :: bs.take n) (bs.drop n) := by
  have hwhole : b :: bs.take n ++ bs.drop n = b :: bs := by
    rw [List.cons_append, List.take_append_drop]
  have hprefix {more : List UInt8} (hmore : more <+: bs) (hlong : n < more.length) :
      ¬ IsBeginning (b :: more) := by
    intro hb
    obtain ⟨k', low', high', hlead', hlen', hcont⟩ := isBeginning_iff.mp hb
    rw [hlead] at hlead'
    cases hlead'
    rw [List.prefix_iff_eq_take.mp hmore] at hcont
    exact hmax more.length hlong hlen' hmore.length_le hcont
  refine ⟨List.cons_ne_nil _ _, fun c hc => ?_, .inr ?_, fun longer hlong hlonger => ?_⟩
  · rw [hwhole] at hc
    obtain ⟨b', bs', hb', -⟩ := front_encodeChar c
    rw [hb', List.cons_prefix_cons] at hc
    obtain ⟨rfl, hbs'⟩ := hc
    obtain ⟨low', high', hlead', -⟩ := exists_encodeChar_iff.mp ⟨c, hb'⟩
    rw [hlead] at hlead'
    cases hlead'
    exact hprefix hbs' hlt ⟨c, hb' ▸ List.prefix_refl _⟩
  · exact isBeginning_iff.mpr ⟨k, low, high, hlead, by rw [List.length_take]; omega, hbs⟩
  · rw [hwhole] at hlonger
    cases longer with
    | nil => simp at hlong
    | cons b' more =>
      obtain ⟨rfl, hmore⟩ := List.cons_prefix_cons.mp hlonger
      refine hprefix hmore ?_
      simp only [List.length_cons, List.length_take] at hlong
      have := hmore.length_le
      omega

theorem front_invalid {n : Nat} (h : front b bs = (none, n)) :
    MaximalInvalid (b :: bs.take n) (bs.drop n) := by
  cases hlead : lead? b with
  | none =>
    obtain rfl : 0 = n := by simpa [front, hlead] using h
    exact maximalInvalid_of_not_lead hlead bs
  | some announced =>
    obtain ⟨k, low, high⟩ := announced
    obtain ⟨m, hm, hk, -, hbs, hmax, hsome⟩ := front_spec hlead bs
    rw [h] at hm hsome
    obtain rfl : n = m := hm
    have hlt : n < k := Nat.lt_of_le_of_ne hk fun heq => by simpa using hsome.mpr heq
    exact maximalInvalid_of_short hlead hlt hbs hmax

/-! ## Reading -/

/-- How bytes are shown as text: each character that they encode as itself, and each maximal invalid
part as one replacement character. -/
inductive Shows : List UInt8 → List Char → Prop
  | nil : Shows [] []
  | char {c : Char} {bs : List UInt8} {cs : List Char} :
      Shows bs cs → Shows (encodeChar c ++ bs) (c :: cs)
  | invalid {part bs : List UInt8} {cs : List Char} :
      MaximalInvalid part bs → Shows bs cs → Shows (part ++ bs) (replacement :: cs)

theorem decodeLossy_nil : decodeLossy [] = [] := by
  rw [decodeLossy, pieces]
  rfl

theorem decodeLossy_cons (b : UInt8) (bs : List UInt8) : decodeLossy (b :: bs) =
    (front b bs).1.getD replacement :: decodeLossy (bs.drop (front b bs).2) := by
  rw [decodeLossy, pieces]
  rfl

theorem shows_decodeLossy (bs : List UInt8) : Shows bs (decodeLossy bs) := by
  -- What is left after the front is shorter.
  induction hn : bs.length using Nat.strongRecOn generalizing bs with
  | ind n ih =>
    cases bs with
    | nil =>
      rw [decodeLossy_nil]
      exact .nil
    | cons b bs =>
      have hrest : Shows (bs.drop (front b bs).2) (decodeLossy (bs.drop (front b bs).2)) :=
        ih _ (by rw [← hn, List.length_drop, List.length_cons]; omega) _ rfl
      rw [decodeLossy_cons]
      cases hf : front b bs with
      | mk o m =>
        rw [hf] at hrest
        rw [show b :: bs = b :: bs.take m ++ bs.drop m by
          rw [List.cons_append, List.take_append_drop]]
        cases o with
        | none => exact .invalid (front_invalid hf) hrest
        | some c =>
          rw [← front_valid hf]
          exact .char hrest

/-- Bytes are shown in one way only. -/
theorem shows_iff {bs : List UInt8} {cs : List Char} : Shows bs cs ↔ cs = decodeLossy bs := by
  constructor
  · intro h
    induction h with
    | nil => exact decodeLossy_nil.symm
    | @char c bs cs _ ih =>
      obtain ⟨b, more, hb, hfront⟩ := front_encodeChar c
      rw [hb, List.cons_append, decodeLossy_cons, hfront]
      simp only [Option.getD_some, List.drop_left, ih]
    | @invalid part bs cs hpart _ ih =>
      obtain ⟨b, more, rfl⟩ := List.exists_cons_of_ne_nil hpart.nonempty
      rw [List.cons_append, decodeLossy_cons]
      cases hf : front b (more ++ bs) with
      | mk o m =>
        cases o with
        | some c =>
          have hc := front_valid hf
          refine absurd ⟨(more ++ bs).drop m, ?_⟩ (hpart.invalid c)
          rw [hc, List.cons_append, List.take_append_drop, List.cons_append]
        | none =>
          have hpart' := front_invalid hf
          have hwhole : b :: more ++ bs = b :: (more ++ bs).take m ++ (more ++ bs).drop m := by
            rw [List.cons_append, List.cons_append, List.take_append_drop]
          have hlen : (b :: (more ++ bs).take m).length = (b :: more).length :=
            Nat.le_antisymm (hpart.length_le hpart' hwhole) (hpart'.length_le hpart hwhole.symm)
          obtain ⟨-, hrest⟩ := List.append_inj hwhole hlen.symm
          rw [← hrest, ih]
          rfl
  · rintro rfl
    exact shows_decodeLossy bs

/-- Bytes that are read without loss are the bytes of the characters they are read as. -/
theorem decode?_eq_some_iff {bs : List UInt8} {cs : List Char} :
    decode? bs = some cs ↔ bs = encode cs := by
  constructor
  · intro h
    induction cs generalizing bs with
    | nil =>
      cases bs with
      | nil => rfl
      | cons b bs =>
        rw [decode?, pieces] at h
        simp [List.mapM_cons, Option.bind_eq_some_iff] at h
    | cons c cs ih =>
      cases bs with
      | nil =>
        rw [decode?, pieces] at h
        cases h
      | cons b bs =>
        rw [decode?, pieces] at h
        simp only [List.mapM_cons, id, Option.bind_eq_bind, Option.bind_eq_some_iff,
          Option.pure_def, Option.some.injEq, List.cons.injEq] at h
        obtain ⟨c', hc, cs', hcs, rfl, rfl⟩ := h
        have hfront : front b bs = (some c', (front b bs).2) := Prod.ext hc rfl
        rw [encode_cons, front_valid hfront, ← ih hcs, List.cons_append, List.take_append_drop]
  · rintro rfl
    exact decode?_encode cs

theorem toString?_eq_some_iff {bs : List UInt8} {s : String} :
    toString? bs = some s ↔ bs = ofString s := by
  rw [toString?, Option.map_eq_some_iff, ofString]
  constructor
  · rintro ⟨cs, hcs, rfl⟩
    rw [String.toList_ofList]
    exact decode?_eq_some_iff.mp hcs
  · exact fun h => ⟨_, decode?_eq_some_iff.mpr h, String.ofList_toList⟩

theorem decodeLossy_encode (cs : List Char) : decodeLossy (encode cs) = cs := by
  rw [decodeLossy, pieces_encode, List.map_map]
  exact List.map_id cs

/-- A text is shown as itself. -/
@[simp] theorem toStringLossy_ofString (s : String) : toStringLossy (ofString s) = s := by
  rw [toStringLossy, ofString, decodeLossy_encode, String.ofList_toList]

/-! ## Validity -/

theorem encodeChar_eq_utf8EncodeChar (c : Char) : encodeChar c = String.utf8EncodeChar c := by
  have hc := toNat_bounds c
  have hval : c.val.toNat = c.toNat := rfl
  have h0 : 0x80 + c.toNat / Nat.pow 64 0 % 64 = c.toNat % 0x40 + 0x80 := by
    rw [show Nat.pow 64 0 = 1 from rfl]
    omega
  have h1 : 0x80 + c.toNat / Nat.pow 64 1 % 64 = c.toNat / 64 % 0x40 + 0x80 :=
    Nat.add_comm _ _
  have h2 : 0x80 + c.toNat / Nat.pow 64 2 % 64 = c.toNat / 4096 % 0x40 + 0x80 :=
    Nat.add_comm _ _
  simp only [encodeChar, String.utf8EncodeChar, hval, h0, h1, h2]
  split
  case isTrue => rw [if_pos (by omega)]
  split
  case isTrue =>
    rw [if_neg (by omega), if_pos (by omega),
      show 0xC0 + c.toNat / 64 = c.toNat / 64 % 0x20 + 0xC0 by omega]
  split
  case isTrue =>
    rw [if_neg (by omega), if_neg (by omega), if_pos (by omega),
      show 0xE0 + c.toNat / 4096 = c.toNat / 4096 % 0x10 + 0xE0 by omega]
  case isFalse =>
    rw [if_neg (by omega), if_neg (by omega), if_neg (by omega),
      show 0xF0 + c.toNat / 262144 = c.toNat / 262144 % 0x08 + 0xF0 by omega]

/-- Bytes are valid when they are the bytes of a text. -/
theorem isValid_iff {bs : List UInt8} :
    ByteArray.IsValidUTF8 bs.toByteArray ↔ ∃ s, bs = ofString s := by
  have hcode : encodeChar = String.utf8EncodeChar := funext encodeChar_eq_utf8EncodeChar
  constructor
  · rintro ⟨cs, hcs⟩
    refine ⟨String.ofList cs, ?_⟩
    rw [ofString, String.toList_ofList, encode, hcode]
    have hdata := congrArg (fun b => b.data.toList) hcs
    simpa [List.utf8Encode] using hdata
  · rintro ⟨s, rfl⟩
    exact ⟨s.toList, by rw [ofString, encode, hcode, List.utf8Encode]⟩

/-- Bytes are shown without loss just when they are valid. -/
theorem ofString_toStringLossy_iff {bs : List UInt8} :
    ofString (toStringLossy bs) = bs ↔ ByteArray.IsValidUTF8 bs.toByteArray := by
  rw [isValid_iff]
  constructor
  · exact fun h => ⟨_, h.symm⟩
  · rintro ⟨s, rfl⟩
    rw [toStringLossy_ofString]

end EventBroker.Utf8
