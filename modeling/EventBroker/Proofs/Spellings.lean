import EventBroker.Proofs.Segments
import EventBroker.Uuid
import Mathlib.Algebra.GroupWithZero.Nat

/-! # Spellings of an identifier

A spelling is 32 digits in one of four shapes (`Spelling`). `Uuid.parse?_eq_some_iff` says that the
texts which are read are the spellings, with the digits and the scheme in any mix of case, and that
two spellings mean the same identifier when their digits agree up to case
(`Uuid.eq_iff_of_spelling`). What is written is one of them: `Uuid.parse?_canonical`.
-/
set_option autoImplicit false

namespace EventBroker

/-! ## Digits -/

namespace Hex

theorem digit_toNat (d : Fin 16) :
    (digit d).toNat = if d.val < 10 then 48 + d.val else 87 + d.val := by
  revert d; decide

theorem toLower_digit (d : Fin 16) : (digit d).toLower = digit d := by
  revert d; decide

/-- A digit is read as what it is written as in lower case. -/
theorem value?_eq_some_iff {c : Char} {d : Fin 16} :
    value? c = some d ↔ c.toLower = digit d := by
  constructor
  · intro h
    -- The codes of the decimal digits, of the small letters and of the capital letters.
    have hdecimal : ∀ v : Fin 16, v.val < 10 → (Char.ofNat (48 + v.val)).toLower = digit v := by
      decide
    have hsmall : ∀ v : Fin 16, 10 ≤ v.val → (Char.ofNat (87 + v.val)).toLower = digit v := by
      decide
    have hcapital : ∀ v : Fin 16, 10 ≤ v.val → (Char.ofNat (55 + v.val)).toLower = digit v := by
      decide
    rw [← Char.ofNat_toNat c]
    simp only [value?] at h
    split at h
    case isTrue hc =>
      obtain rfl := Option.some.inj h
      have hn : c.toNat = 48 + (c.toNat - 48) := by omega
      rw [← hdecimal _ (by simp only; omega), ← hn]
    split at h
    case isTrue hc =>
      obtain rfl := Option.some.inj h
      have hn : c.toNat = 87 + (c.toNat - 87) := by omega
      rw [← hsmall _ (by simp only; omega), ← hn]
    split at h
    case isTrue hc =>
      obtain rfl := Option.some.inj h
      have hn : c.toNat = 55 + (c.toNat - 55) := by omega
      rw [← hcapital _ (by simp only; omega), ← hn]
    case isFalse => cases h
  · intro h
    have hd := digit_toNat d
    rw [← h] at hd
    have hbound := d.isLt
    rcases Url.toLower_cases c with hc | ⟨hlow, hhigh, hc⟩
    · rw [← hc, h, value?_digit]
    · -- A letter made small is no decimal digit.
      have hn : c.toNat = 55 + d.val ∧ 10 ≤ d.val := by
        split at hd <;> omega
      have hcapital : ∀ v : Fin 16, 10 ≤ v.val → value? (Char.ofNat (55 + v.val)) = some v := by
        decide
      rw [← Char.ofNat_toNat c, hn.1, hcapital d hn.2]

end Hex

/-! ## Shapes -/

/-- Digits, and a text of them in groups of the given sizes with one hyphen between two groups. -/
inductive Grouped : List Nat → List Char → List Char → Prop
  | last {n : Nat} {ds : List Char} : ds.length = n → Grouped [n] ds ds
  | more {n m : Nat} {ns : List Nat} {group ds t : List Char} :
      group.length = n → Grouped (m :: ns) ds t →
      Grouped (n :: m :: ns) (group ++ ds) (group ++ '-' :: t)

/-- A hyphenated text of 32 digits. -/
abbrev Hyphenated (ds t : List Char) : Prop := Grouped [8, 4, 4, 4, 12] ds t

/-- A text that spells 32 digits: alone, hyphenated, hyphenated in braces, or hyphenated after a
scheme. -/
inductive Spelling (isScheme : List Char → Prop) (ds : List Char) : List Char → Prop
  | simple : ds.length = 32 → Spelling isScheme ds ds
  | hyphenated {t : List Char} : Hyphenated ds t → Spelling isScheme ds t
  | braced {t : List Char} : Hyphenated ds t → Spelling isScheme ds ('{' :: (t ++ ['}']))
  | urn {scheme t : List Char} : isScheme scheme → Hyphenated ds t →
      Spelling isScheme ds (scheme ++ t)

variable {ns : List Nat} {ds t : List Char}

/-- A text of groups has a hyphen for each group but the last. -/
theorem Grouped.length_text (h : Grouped ns ds t) : t.length + 1 = ns.sum + ns.length := by
  induction h with
  | last h => simp [h]
  | more hn _ ih =>
    simp only [List.length_append, List.length_cons, List.sum_cons] at ih ⊢
    omega

theorem Hyphenated.length_text (h : Hyphenated ds t) : t.length = 36 := by
  simpa using Grouped.length_text h

namespace Uuid

theorem joinGroups_eq_some_iff (hns : ns ≠ []) :
    joinGroups ns t = some ds ↔ Grouped ns ds t := by
  induction ns generalizing ds t with
  | nil => exact absurd rfl hns
  | cons n ns ih =>
    cases ns with
    | nil =>
      constructor
      · intro h
        simp only [joinGroups, Option.ite_none_right_eq_some, Option.some.injEq] at h
        obtain ⟨hlen, rfl⟩ := h
        exact .last hlen
      · rintro ⟨hlen⟩
        simp only [joinGroups, if_pos hlen]
    | cons m ns =>
      constructor
      · intro h
        simp only [joinGroups] at h
        split at h
        case h_1 rest hdrop =>
          obtain ⟨ds', hjoin, rfl⟩ := Option.map_eq_some_iff.mp h
          have hn : (t.take n).length = n := by
            have hlen := congrArg List.length hdrop
            simp only [List.length_drop, List.length_cons] at hlen
            rw [List.length_take]
            omega
          have ht : t = t.take n ++ '-' :: rest := by rw [← hdrop, List.take_append_drop]
          rw [ht, List.take_left' hn]
          exact .more hn ((ih (List.cons_ne_nil _ _)).mp hjoin)
        case h_2 => cases h
      · intro h
        cases h with
        | more hn hrest =>
          rw [joinGroups, List.drop_left' hn]
          simp only [(ih (List.cons_ne_nil _ _)).mpr hrest, List.take_left' hn, Option.map_some]
          intro hnil
          exact absurd hnil (List.cons_ne_nil _ _)

theorem grouped_hyphenate (hns : ns ≠ []) (hds : ds.length = ns.sum) :
    Grouped ns ds (hyphenate ns ds) := by
  induction ns generalizing ds with
  | nil => exact absurd rfl hns
  | cons n ns ih =>
    cases ns with
    | nil =>
      have hn : ds.length = n := by simpa using hds
      rw [hyphenate, List.take_of_length_le (by omega)]
      exact .last hn
    | cons m ns =>
      rw [List.sum_cons] at hds
      have hfirst : (ds.take n).length = n := by
        rw [List.length_take]
        omega
      have hrest : Grouped (m :: ns) (ds.drop n) (hyphenate (m :: ns) (ds.drop n)) :=
        ih (List.cons_ne_nil _ _) (by rw [List.length_drop]; omega)
      have h := Grouped.more hfirst hrest
      rw [List.take_append_drop] at h
      exact h

/-! ## Reading -/

/-- The digits that a text spells. -/
def digits? (t : List Char) : Option (List Char) :=
  if t.length = 32 then some t
  else if t.length = 36 then joinGroups groups t
  else if t.length = 38 then
    if t.head? = some '{' ∧ t.getLast? = some '}' then joinGroups groups (t.drop 1).dropLast
    else none
  else if t.length = 45 then
    if (t.take 9).map Char.toLower = urnScheme then joinGroups groups (t.drop 9) else none
  else none

theorem parse?_eq (t : List Char) : parse? t = (digits? t).bind readSimple := by
  unfold parse? digits? readHyphenated
  repeat' split
  all_goals rfl

/-- The scheme in front of an identifier, its letters in any mix of case. -/
def IsUrn (scheme : List Char) : Prop := scheme.map Char.toLower = urnScheme

theorem IsUrn.length_eq {scheme : List Char} (h : IsUrn scheme) : scheme.length = 9 := by
  have hlen := congrArg List.length h
  rwa [List.length_map, show urnScheme.length = 9 by decide] at hlen

theorem joinGroups_iff : joinGroups groups t = some ds ↔ Hyphenated ds t :=
  joinGroups_eq_some_iff (List.cons_ne_nil _ _)

/-- A text of two more characters than are between its braces. -/
theorem eq_braced (hlen : t.length = 38) (hfirst : t.head? = some '{')
    (hlast : t.getLast? = some '}') : t = '{' :: ((t.drop 1).dropLast ++ ['}']) := by
  obtain ⟨rest, rfl⟩ : ∃ rest, t = '{' :: rest := List.head?_eq_some_iff.mp hfirst
  have hne : rest ≠ [] := by
    rintro rfl
    simp at hlen
  have hlast' : rest.getLast? = some '}' := by rwa [List.getLast?_cons_of_ne_nil hne] at hlast
  obtain ⟨inside, rfl⟩ : ∃ inside, rest = inside ++ ['}'] := List.getLast?_eq_some_iff.mp hlast'
  simp

theorem digits?_eq_some_iff : digits? t = some ds ↔ Spelling IsUrn ds t := by
  constructor
  · intro h
    unfold digits? at h
    split at h
    case isTrue hlen =>
      obtain rfl := Option.some.inj h
      exact .simple hlen
    split at h
    case isTrue => exact .hyphenated (joinGroups_iff.mp h)
    split at h
    case isTrue hlen =>
      obtain ⟨⟨hfirst, hlast⟩, hjoin⟩ := Option.ite_none_right_eq_some.mp h
      rw [eq_braced hlen hfirst hlast]
      exact .braced (joinGroups_iff.mp hjoin)
    · obtain ⟨-, h⟩ := Option.ite_none_right_eq_some.mp h
      obtain ⟨hscheme, hjoin⟩ := Option.ite_none_right_eq_some.mp h
      rw [← List.take_append_drop 9 t]
      exact .urn hscheme (joinGroups_iff.mp hjoin)
  · rintro (hlen | h | h | ⟨hscheme, h⟩)
    · rw [digits?, if_pos hlen]
    · rw [digits?, if_neg (by simp [h.length_text]), if_pos h.length_text, joinGroups_iff.mpr h]
    case braced inside =>
      have hlen : ('{' :: (inside ++ ['}'])).length = 38 := by simp [h.length_text]
      have hlast : ('{' :: (inside ++ ['}'])).getLast? = some '}' :=
        List.getLast?_concat (l := '{' :: inside)
      rw [digits?, if_neg (by omega), if_neg (by omega), if_pos hlen, if_pos ⟨rfl, hlast⟩]
      simpa using joinGroups_iff.mpr h
    case urn scheme inside =>
      have hnine := hscheme.length_eq
      have hlen : (scheme ++ inside).length = 45 := by
        rw [List.length_append, hnine, h.length_text]
      have htake : (scheme ++ inside).take 9 = scheme := List.take_left' hnine
      have hdrop : (scheme ++ inside).drop 9 = inside := List.drop_left' hnine
      rw [digits?, if_neg (by omega), if_neg (by omega), if_neg (by omega), if_pos hlen, htake,
        hdrop, if_pos (show scheme.map Char.toLower = urnScheme from hscheme), joinGroups_iff.mpr h]

theorem readDigits_eq_some_iff {values : List (Fin 16)} :
    readDigits ds = some values ↔ ds.map Char.toLower = values.map Hex.digit := by
  unfold readDigits
  induction ds generalizing values with
  | nil => cases values <;> simp
  | cons c ds ih =>
    cases values with
    | nil => simp [List.mapM_cons, Option.bind_eq_some_iff]
    | cons v values =>
      simp only [List.mapM_cons, Option.bind_eq_bind, Option.bind_eq_some_iff, Option.pure_def,
        Option.some.injEq, List.cons.injEq, List.map_cons]
      constructor
      · rintro ⟨v', hv, values', hvalues, rfl, rfl⟩
        exact ⟨Hex.value?_eq_some_iff.mp hv, ih.mp hvalues⟩
      · rintro ⟨hc, hds⟩
        exact ⟨v, Hex.value?_eq_some_iff.mpr hc, values, ih.mpr hds, rfl, rfl⟩

theorem readSimple_eq_some_iff {u : Uuid} :
    readSimple ds = some u ↔ ds.map Char.toLower = u.simple := by
  rw [simple, ← readDigits_eq_some_iff]
  obtain ⟨values, hlen⟩ := u
  unfold readSimple
  cases readDigits ds with
  | none => simp
  | some values' =>
    simp only [Option.some.injEq]
    constructor
    · intro h
      split at h
      · simpa using h
      · cases h
    · rintro rfl
      rw [dif_pos hlen]

/-- A text is read as an identifier when it spells its digits, in any mix of case. -/
theorem parse?_eq_some_iff {u : Uuid} :
    parse? t = some u ↔ ∃ ds, Spelling IsUrn ds t ∧ ds.map Char.toLower = u.simple := by
  simp only [parse?_eq, Option.bind_eq_some_iff, digits?_eq_some_iff, readSimple_eq_some_iff]

theorem simple_injective {u v : Uuid} (h : u.simple = v.simple) : u = v := by
  have hu : readDigits u.simple = some u.digits :=
    readDigits_eq_some_iff.mpr (by simp [simple, Hex.toLower_digit])
  have hv : readDigits v.simple = some v.digits :=
    readDigits_eq_some_iff.mpr (by simp [simple, Hex.toLower_digit])
  have hdigits : u.digits = v.digits := by
    rw [h, hv] at hu
    exact (Option.some.inj hu).symm
  cases u
  cases v
  cases hdigits
  rfl

/-- Spelled digits are the digits of one identifier, up to case. -/
theorem eq_iff_of_spelling {u v : Uuid} {ds' t' : List Char} (hu : parse? t = some u)
    (hv : parse? t' = some v) (h : Spelling IsUrn ds t) (h' : Spelling IsUrn ds' t') :
    u = v ↔ ds.map Char.toLower = ds'.map Char.toLower := by
  rw [parse?_eq, digits?_eq_some_iff.mpr h, Option.bind_some, readSimple_eq_some_iff] at hu
  rw [parse?_eq, digits?_eq_some_iff.mpr h', Option.bind_some, readSimple_eq_some_iff] at hv
  rw [hu, hv]
  exact ⟨congrArg simple, simple_injective⟩

/-! ## Writing -/

theorem hyphenated_canonical (u : Uuid) : Hyphenated u.simple u.canonical :=
  grouped_hyphenate (List.cons_ne_nil _ _) (by simp [simple, u.length_eq])

theorem parse?_canonical (u : Uuid) : parse? u.canonical = some u :=
  parse?_eq_some_iff.mpr ⟨u.simple, .hyphenated u.hyphenated_canonical, by
    simp [simple, Hex.toLower_digit]⟩

end Uuid

@[simp] theorem ChannelId.parse?_toText (id : ChannelId) : ChannelId.parse? id.toText = some id := by
  rw [ChannelId.parse?, ChannelId.toText, Uuid.toText, String.toList_ofList, Uuid.parse?_canonical]
  rfl

@[simp] theorem EventId.parse?_toText (id : EventId) : EventId.parse? id.toText = some id := by
  rw [EventId.parse?, EventId.toText, Uuid.toText, String.toList_ofList, Uuid.parse?_canonical]
  rfl

theorem EventId.toText_injective {id id' : EventId} (h : id.toText = id'.toText) : id = id' := by
  have hid := id.parse?_toText
  rw [h, parse?_toText] at hid
  exact (Option.some.inj hid).symm

end EventBroker
