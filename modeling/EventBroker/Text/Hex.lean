/-! # Hexadecimal digits

A digit is read in either case and written in the case asked for; `value?_digit` says that what is
written reads back.
-/
set_option autoImplicit false

namespace EventBroker.Hex

def value? (c : Char) : Option (Fin 16) :=
  let n := c.toNat
  if h : 48 ≤ n ∧ n ≤ 57 then some ⟨n - 48, by omega⟩
  else if h : 97 ≤ n ∧ n ≤ 102 then some ⟨n - 87, by omega⟩
  else if h : 65 ≤ n ∧ n ≤ 70 then some ⟨n - 55, by omega⟩
  else none

def digit (d : Fin 16) : Char := Char.ofNat (if d.val < 10 then 48 + d.val else 87 + d.val)

def upperDigit (d : Fin 16) : Char := Char.ofNat (if d.val < 10 then 48 + d.val else 55 + d.val)

def ofByte (b : UInt8) : List Char :=
  [digit ⟨b.toNat / 16, by have := b.toNat_lt; omega⟩, digit ⟨b.toNat % 16, by omega⟩]

def ofByteUpper (b : UInt8) : List Char :=
  [upperDigit ⟨b.toNat / 16, by have := b.toNat_lt; omega⟩, upperDigit ⟨b.toNat % 16, by omega⟩]

def byte (hi lo : Fin 16) : UInt8 := UInt8.ofNat (16 * hi.val + lo.val)

theorem value?_digit (d : Fin 16) : value? (digit d) = some d := by
  revert d; decide

theorem value?_upperDigit (d : Fin 16) : value? (upperDigit d) = some d := by
  revert d; decide

/-- Lower-case hexadecimal text without leading zeros, `0` for zero. -/
def ofNat (n : Nat) : List Char :=
  (Nat.toDigits 16 n)

def padded (width n : Nat) : List Char :=
  let ds := ofNat n
  List.replicate (width - ds.length) '0' ++ ds

end EventBroker.Hex
