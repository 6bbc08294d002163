import EventBroker.Text.Hex

/-! # Tables of code points

A property of characters is a table that is written as text: hexadecimal code points, and white
space between the entries. An entry of a table of ranges is a code point or `first-last`. An entry
of a table of runs also says what its code points stand for.
-/
set_option autoImplicit false

namespace EventBroker.Text

def codePoint (digits : List Char) : Nat :=
  digits.foldl (fun n d => 16 * n + ((Hex.value? d).map Fin.val).getD 0) 0

def entries (table : String) : List (List Char) :=
  ((table.toList.map fun c => if c = '\n' then ' ' else c).splitOn ' ').filter (!·.isEmpty)

abbrev CodeRanges := Array (Nat × Nat)

/-- The range of an entry, whose ends are parted by a mark. -/
def codeRange (mark : Char) (entry : List Char) : Nat × Nat :=
  match entry.splitOn mark with
  | [first, last] => (codePoint first, codePoint last)
  | _ => (codePoint entry, codePoint entry)

namespace CodeRanges

def ofText (table : String) : CodeRanges := ((entries table).map (codeRange '-')).toArray

def contains (ranges : CodeRanges) (c : Char) : Bool :=
  ranges.any fun r => r.1 ≤ c.toNat && c.toNat ≤ r.2

end CodeRanges

/-! ## Runs -/

/-- Code points at one distance, and what the first of them stands for. What the others stand for
rises with them. -/
structure CodeRun where
  first : Nat
  last : Nat
  distance : Nat
  image : List Nat
  deriving DecidableEq, Repr

namespace CodeRun

def image? (run : CodeRun) (n : Nat) : Option (List Nat) :=
  if run.first ≤ n ∧ n ≤ run.last ∧ (n - run.first) % run.distance = 0 then
    some (run.image.map (· + (n - run.first)))
  else none

/-- The run of an entry such as `41-5a:61` or `bd:31,2044,32`; in `100~12e:101` every second code
point belongs to the run. -/
def ofEntry (entry : List Char) : CodeRun :=
  let codes := entry.takeWhile (· != ':')
  let image := ((entry.dropWhile (· != ':')).drop 1).splitOn ','
  let (mark, distance) := if codes.contains '~' then ('~', 2) else ('-', 1)
  let (first, last) := codeRange mark codes
  ⟨first, last, distance, image.map codePoint⟩

end CodeRun

/-- Runs of code points, no two with a common one. -/
abbrev CodeRuns := Array CodeRun

namespace CodeRuns

def ofText (table : String) : CodeRuns := ((entries table).map CodeRun.ofEntry).toArray

def image? (runs : CodeRuns) (c : Char) : Option (List Char) :=
  (runs.findSome? fun run => run.image? c.toNat).map fun codes => codes.map Char.ofNat

end CodeRuns

example : CodeRanges.ofText "9-d 20" = #[(9, 13), (32, 32)] := by decide

example : CodeRuns.ofText "41-5a:61 100~12e:101 bd:31,2044" = #[⟨0x41, 0x5A, 1, [0x61]⟩,
    ⟨0x100, 0x12E, 2, [0x101]⟩, ⟨0xBD, 0xBD, 1, [0x31, 0x2044]⟩] := by
  decide

example : (CodeRuns.ofText "41-5a:61").image? 'C' = some ['c'] := by decide

end EventBroker.Text
