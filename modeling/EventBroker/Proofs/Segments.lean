import EventBroker.Http.Target
import EventBroker.Proofs.PercentCoding
import EventBroker.Url.Parse

/-! # Segments of a path

A text that is added to the path of a URL is percent-coded, so that it means nothing but itself:
`isDot_encode` and `isTwoDots_encode` say that no coded text is taken for dots unless it is dots,
and `segmentChar` that it may stand between two slashes. What cannot be shown in a path is dropped:
`push_eq` tells all that can become of a text.
-/
set_option autoImplicit false

namespace EventBroker.Url

variable (special : Bool)

theorem codedInSegment_percent : codedInSegment special '%' = true := by
  cases special <;> decide

/-- The characters of a coded text may stand in a path and do not end a segment. -/
theorem segmentChar {c : Char} {cs : List Char}
    (h : c ∈ Percent.encode (codedInSegment special) cs) :
    Http.isPathChar c = true ∧ c ≠ '?' ∧ c ≠ '/' := by
  refine Percent.forall_mem_encode (P := fun c => Http.isPathChar c = true ∧ c ≠ '?' ∧ c ≠ '/')
    (by decide) (by decide) ?_ h
  cases special <;> decide

/-! ## Dots -/

/-- Making a letter small gives a small letter; other characters stay. -/
theorem toLower_cases (c : Char) :
    c.toLower = c ∨ 0x41 ≤ c.toNat ∧ c.toNat ≤ 0x5A ∧ c.toLower.toNat = c.toNat + 0x20 := by
  unfold Char.toLower
  split
  case isTrue h =>
    obtain ⟨hlow, hhigh⟩ := h
    have hlow : 0x41 ≤ c.toNat := UInt32.le_iff_toNat_le.mp hlow
    have hhigh : c.toNat ≤ 0x5A := UInt32.le_iff_toNat_le.mp hhigh
    refine .inr ⟨hlow, hhigh, ?_⟩
    show (c.val + ('a'.val - 'A'.val)).toNat = c.val.toNat + 0x20
    have hc : c.val.toNat ≤ 0x5A := hhigh
    rw [UInt32.toNat_add, show ('a'.val - 'A'.val).toNat = 0x20 by decide]
    omega
  case isFalse => exact .inl rfl

/-- A character that is no letter comes from itself only. -/
theorem eq_of_toLower {c d : Char} (h : c.toLower = d) (hd : d.toNat < 0x61) : c = d := by
  rcases toLower_cases c with hc | ⟨hlow, -, hc⟩
  · rw [← hc, h]
  · rw [h] at hc
    omega

theorem eq_e_of_toLower {c : Char} (h : c.toLower = 'e') : c = 'e' ∨ c = 'E' := by
  rcases toLower_cases c with hc | ⟨-, -, hc⟩
  · exact .inl (by rw [← hc, h])
  · rw [h] at hc
    have hn : c.toNat = 0x45 := by
      have : ('e' : Char).toNat = 0x65 := by decide
      omega
    exact .inr (by rw [← Char.ofNat_toNat c, hn])

/-- A dot in front, written as itself or as a code, decodes to a dot. -/
theorem decode_dot {segment rest : List Char}
    (h : segment.map Char.toLower = '.' :: rest ∨
      segment.map Char.toLower = '%' :: '2' :: 'e' :: rest) :
    ∃ segment', segment'.map Char.toLower = rest ∧
      Percent.decode (Utf8.encode segment) = 0x2E :: Percent.decode (Utf8.encode segment') := by
  rcases h with h | h
  · obtain ⟨c, cs, rfl, hc, hcs⟩ := List.map_eq_cons_iff.mp h
    obtain rfl := eq_of_toLower hc (by decide)
    refine ⟨cs, hcs, ?_⟩
    rw [Utf8.encode_cons, show Utf8.encodeChar '.' = [0x2E] by decide, List.singleton_append,
      Percent.decode_cons (by decide)]
  · obtain ⟨c, cs, rfl, hc, hcs⟩ := List.map_eq_cons_iff.mp h
    obtain ⟨d, ds, rfl, hd, hds⟩ := List.map_eq_cons_iff.mp hcs
    obtain ⟨e, es, rfl, he, hes⟩ := List.map_eq_cons_iff.mp hds
    obtain rfl := eq_of_toLower hc (by decide)
    obtain rfl := eq_of_toLower hd (by decide)
    refine ⟨es, hes, ?_⟩
    have hdot {l : Char} (hl : Hex.value? l = some 14) (hascii : l.toNat < 128) :
        Percent.decode (Utf8.encode ('%' :: '2' :: l :: es)) =
          0x2E :: Percent.decode (Utf8.encode es) := by
      have htwo : Hex.value? '2' = some 2 := by decide
      have h := Percent.decode_digits htwo hl ⟨by decide, hascii⟩ (Utf8.encode es)
      rwa [← Utf8.encode_append] at h
    rcases eq_e_of_toLower he with rfl | rfl
    · exact hdot (by decide) (by decide)
    · exact hdot (by decide) (by decide)

theorem toList_of_ofList_eq {cs : List Char} {s : String} (h : String.ofList cs = s) :
    cs = s.toList := by
  rw [← h, String.toList_ofList]

theorem decode_of_isDot {segment : List Char} (h : Path.isDot segment = true) :
    Percent.decode (Utf8.encode segment) = [0x2E] := by
  simp only [Path.isDot, List.contains_iff_mem, List.mem_cons, List.not_mem_nil, or_false] at h
  have hcases : segment.map Char.toLower = ['.'] ∨ segment.map Char.toLower = ['%', '2', 'e'] :=
    h.imp toList_of_ofList_eq toList_of_ofList_eq
  obtain ⟨rest, hrest, hdecode⟩ := decode_dot hcases
  obtain rfl := List.map_eq_nil_iff.mp hrest
  simpa [Percent.decode] using hdecode

theorem decode_of_isTwoDots {segment : List Char} (h : Path.isTwoDots segment = true) :
    Percent.decode (Utf8.encode segment) = [0x2E, 0x2E] := by
  -- The four ways to write two dots are two ways for the first and two ways for the second.
  obtain ⟨rest, hfirst, hsecond⟩ : ∃ rest, (segment.map Char.toLower = '.' :: rest ∨
      segment.map Char.toLower = '%' :: '2' :: 'e' :: rest) ∧
      (rest = ['.'] ∨ rest = ['%', '2', 'e']) := by
    simp only [Path.isTwoDots, List.contains_iff_mem, List.mem_cons, List.not_mem_nil,
      or_false] at h
    rcases h with h | h | h | h
    · exact ⟨_, .inl (toList_of_ofList_eq h), .inl rfl⟩
    · exact ⟨_, .inl (toList_of_ofList_eq h), .inr rfl⟩
    · exact ⟨_, .inr (toList_of_ofList_eq h), .inl rfl⟩
    · exact ⟨_, .inr (toList_of_ofList_eq h), .inr rfl⟩
  obtain ⟨segment', hrest, hdecode⟩ := decode_dot hfirst
  rw [← hrest] at hsecond
  obtain ⟨segment'', hnil, hdecode'⟩ := decode_dot hsecond
  obtain rfl := List.map_eq_nil_iff.mp hnil
  rw [hdecode, hdecode']
  simp [Percent.decode]

/-- No coded text is taken for a dot but a dot. -/
theorem isDot_encode (cs : List Char) :
    Path.isDot (Percent.encode (codedInSegment special) cs) = true ↔ cs = ['.'] := by
  constructor
  · intro h
    have hd := decode_of_isDot h
    rw [Percent.decode_encode (codedInSegment_percent special)] at hd
    exact Utf8.encode_injective (hd.trans (by decide))
  · rintro rfl
    cases special <;> decide

theorem isTwoDots_encode (cs : List Char) :
    Path.isTwoDots (Percent.encode (codedInSegment special) cs) = true ↔ cs = ['.', '.'] := by
  constructor
  · intro h
    have hd := decode_of_isTwoDots h
    rw [Percent.decode_encode (codedInSegment_percent special)] at hd
    exact Utf8.encode_injective (hd.trans (by decide))
  · rintro rfl
    cases special <;> decide

/-! ## Adding segments -/

/-- What becomes of a text that is added to a path. Dots are left out; dots that appear only once
tabs and line breaks are gone count as dots in a path; all else is a segment. -/
theorem push_eq {path : Path} (hpath : path ≠ [[]]) {segment : List Char}
    (hdots : segment ≠ ['.'] ∧ segment ≠ ['.', '.']) :
    path.push special false segment =
      if Path.visible segment = ['.', '.'] then path.parent ++ [[]]
      else if Path.visible segment = ['.'] then path ++ [[]]
      else path ++ [Percent.encode (codedInSegment special) (Path.visible segment)] := by
  have hneither : ¬(segment = ['.'] ∨ segment = ['.', '.']) := not_or.mpr hdots
  have htwo := isTwoDots_encode special (Path.visible segment)
  have hone := isDot_encode special (Path.visible segment)
  simp only [Path.push, if_neg hneither, if_neg hpath, Path.trim, Bool.not_false, Bool.true_or,
    if_true, Path.walk, List.foldl_cons, List.foldl_nil, Path.step, List.getLast?_singleton,
    Option.any_some, Bool.false_and, Bool.false_eq_true, if_false]
  by_cases htwoDots : Path.visible segment = ['.', '.']
  · rw [if_pos htwoDots, if_pos (htwo.mpr htwoDots), if_pos (by simp [htwo.mpr htwoDots])]
  rw [if_neg htwoDots, if_neg (htwoDots ∘ htwo.mp)]
  by_cases hdot : Path.visible segment = ['.']
  · rw [if_pos hdot, if_pos (hone.mpr hdot), if_pos (by simp [hone.mpr hdot])]
  · rw [if_neg hdot, if_neg (hdot ∘ hone.mp), if_neg]
    simp only [Bool.or_eq_true, not_or]
    exact ⟨htwoDots ∘ htwo.mp, hdot ∘ hone.mp⟩

end EventBroker.Url
