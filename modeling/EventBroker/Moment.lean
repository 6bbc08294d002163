/-! # Moments

Two clocks run side by side. The wall clock says what time it is and may be set at will; the
monotonic clock only measures how much time has passed.
-/
set_option autoImplicit false

namespace EventBroker

/-- A reading of both clocks, in milliseconds. -/
structure Moment where
  /-- Milliseconds since the epoch. -/
  wall : Int
  mono : Nat
  deriving DecidableEq, Repr

namespace Moment

/-- The time of day in milliseconds since the epoch. A wall clock set before the epoch reads as
zero. -/
def now (m : Moment) : Nat := m.wall.toNat

def after (m : Moment) (ms : Nat) : Moment := ⟨m.wall + ms, m.mono + ms⟩

def withWall (m : Moment) (wall : Int) : Moment := { m with wall }

end Moment

end EventBroker
