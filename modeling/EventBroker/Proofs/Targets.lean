import EventBroker.Api.Resource
import EventBroker.Proofs.Segments
import Mathlib.Data.List.TakeWhile

/-! # Targets of requests

What a URL writes into a request is read as what it is: a path whose characters may stand there and
a coded query give the path back, unless they are too long (`pathOf?_append`), and the path of one
segment after `queues` leads to the queue of this name (`ofPath?_queue`).
-/
set_option autoImplicit false

namespace EventBroker

namespace Url

/-- What is coded in a query may stand in the query of a request. -/
theorem queryChar {special : Bool} {c : Char} {cs : List Char}
    (h : c ∈ Percent.encode (codedInQuery special) cs) : Http.isQueryChar c = true := by
  refine Percent.forall_mem_encode (P := fun c => Http.isQueryChar c = true) (by decide) (by decide)
    ?_ h
  cases special <;> decide

/-- The query of a URL may stand in the query of a request. -/
theorem queryChar_of_parse {text : String} {u : Url} (h : parse text = .ok u) {query : String}
    (hq : u.query = some query) : ∀ c ∈ query.toList, Http.isQueryChar c = true := by
  simp only [parse] at h
  split at h
  · cases hmain : readMain _ _ _ with
    | error e =>
      rw [hmain] at h
      cases h
    | ok parts =>
      rw [hmain] at h
      obtain rfl := Except.ok.inj h
      simp only at hq
      split at hq
      · obtain rfl := Option.some.inj hq
        rw [String.toList_ofList]
        exact fun c hc => queryChar hc
      · cases hq
  · cases h

end Url

namespace Http

/-- A path, maybe with a query behind it, is read as the path. -/
theorem pathAndQuery?_append {path rest : List Char} (hne : path ≠ [])
    (hpath : ∀ c ∈ path, isPathChar c = true ∧ c ≠ '?')
    (hrest : rest = [] ∨ ∃ q, rest = '?' :: q ∧ ∀ c ∈ q, isQueryChar c = true) :
    pathAndQuery? (path ++ rest) = some (String.ofList path) := by
  have hin : ∀ c ∈ path, pathAndQuery?.isInPath c = true := by
    intro c hc
    simp [pathAndQuery?.isInPath, hpath c hc]
  have htake : (path ++ rest).takeWhile pathAndQuery?.isInPath = path := by
    rw [List.takeWhile_append_of_pos hin]
    rcases hrest with rfl | ⟨q, rfl, -⟩
    · simp
    · simp [pathAndQuery?.isInPath]
  have hdrop : (path ++ rest).dropWhile pathAndQuery?.isInPath = rest := by
    rw [List.dropWhile_append_of_pos hin]
    rcases hrest with rfl | ⟨q, rfl, -⟩
    · simp
    · simp [pathAndQuery?.isInPath]
  have hempty : path.isEmpty = false := by simpa using hne
  simp only [pathAndQuery?, htake, hdrop, hempty, Bool.false_eq_true, if_false]
  rcases hrest with rfl | ⟨q, rfl, hq⟩
  · rfl
  · simp only [List.dropWhile_eq_nil_iff.mpr hq, if_true]

/-- The path of a target that is a path, maybe with a query. -/
theorem pathOf?_append {path : List Char} {query : Option String}
    (hpath : ∀ c ∈ path, isPathChar c = true ∧ c ≠ '?')
    (hquery : ∀ q ∈ query, ∀ c ∈ q.toList, isQueryChar c = true) :
    pathOf? (String.ofList ('/' :: path) ++ query.elim "" ("?" ++ ·)) =
      if maxTargetBytes < (String.ofList ('/' :: path) ++ query.elim "" ("?" ++ ·)).utf8ByteSize
      then none else some (String.ofList ('/' :: path)) := by
  obtain ⟨rest, hlist, hrest⟩ : ∃ rest,
      (String.ofList ('/' :: path) ++ query.elim "" ("?" ++ ·)).toList = '/' :: path ++ rest ∧
        (rest = [] ∨ ∃ q, rest = '?' :: q ∧ ∀ c ∈ q, isQueryChar c = true) := by
    cases query with
    | none => exact ⟨[], by simp, .inl rfl⟩
    | some q => exact ⟨'?' :: q.toList, by simp, .inr ⟨_, rfl, hquery q rfl⟩⟩
  have hslash : ∀ c ∈ '/' :: path, isPathChar c = true ∧ c ≠ '?' := by
    intro c hc
    rcases List.mem_cons.mp hc with rfl | hc
    · decide
    · exact hpath c hc
  have hread := pathAndQuery?_append (List.cons_ne_nil _ _) hslash hrest
  unfold pathOf?
  split
  · rfl
  · simp only [hlist, List.cons_append] at hread ⊢
    exact hread

end Http

namespace Api.Resource

theorem splitSlashes_of_noSlash {cs : List Char} (h : '/' ∉ cs) : splitSlashes cs = [cs] := by
  induction cs with
  | nil => rfl
  | cons c cs ih =>
    obtain ⟨hc, hcs⟩ := not_or.mp (mt List.mem_cons.mpr h)
    simp only [splitSlashes, if_neg (Ne.symm hc), ih hcs]

theorem splitSlashes_append {cs : List Char} (h : '/' ∉ cs) (ds : List Char) :
    splitSlashes (cs ++ '/' :: ds) = cs :: splitSlashes ds := by
  induction cs with
  | nil => simp [splitSlashes]
  | cons c cs ih =>
    obtain ⟨hc, hcs⟩ := not_or.mp (mt List.mem_cons.mpr h)
    simp only [List.cons_append, splitSlashes, if_neg (Ne.symm hc), ih hcs]

/-- What the path of one segment after `queues` leads to. -/
theorem ofPath?_queue {segment : List Char} (h : '/' ∉ segment) :
    ofPath? (String.ofList ("/queues/".toList ++ segment)) =
      if segment = [] then none else some (.queue (String.ofList segment)) := by
  have hsegments : segments? (String.ofList ("/queues/".toList ++ segment)) =
      some ["queues", String.ofList segment] := by
    have hsplit : splitSlashes ("queues".toList ++ '/' :: segment) =
        ["queues".toList, segment] := by
      rw [splitSlashes_append (by decide), splitSlashes_of_noSlash h]
    unfold segments?
    rw [String.toList_ofList, show "/queues/".toList ++ segment =
      '/' :: ("queues".toList ++ '/' :: segment) from rfl]
    simp only [hsplit, List.map_cons, List.map_nil, String.ofList_toList]
  rw [ofPath?, hsegments]
  simp only [Option.bind_some, ofSegments?, named]
  by_cases hs : segment = []
  · rw [if_pos hs, if_pos (by rw [hs])]
  · rw [if_neg hs, if_neg]
    intro hempty
    apply hs
    rw [← String.toList_ofList (l := segment), hempty]
    rfl

end Api.Resource

end EventBroker
