import Mathlib.Algebra.Order.Ring.Nat
import Mathlib.Tactic.Common

/-!
# The frequency of the system tick

What is computed from `nn::os::GetSystemTickFrequency` relies on whole ticks for some
parts of a second, milliseconds or frames, and on a tick that is not too short.
-/

namespace BfMultiplayer.SystemTicks

/-- A frequency with a whole number of ticks for each of so many parts of a second, and fewer
ticks than a limit for a second. -/
structure TickFrequency (parts limit : ℕ) where
  /-- The ticks of a part. -/
  ticksPerPart : ℕ
  /-- The tick moves on. -/
  moves : 0 < ticksPerPart
  /-- A second does not have too many ticks. -/
  fits : parts * ticksPerPart < limit

variable {parts limit : ℕ}

/-- `nn::os::GetSystemTickFrequency`. -/
def TickFrequency.GetSystemTickFrequency (freq : TickFrequency parts limit) : ℕ :=
  parts * freq.ticksPerPart

end BfMultiplayer.SystemTicks
