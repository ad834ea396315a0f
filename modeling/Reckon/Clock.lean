import Reckon.Double.Round

/-!
# The clock

Time runs in whole microseconds. A reading of the clock is in milliseconds with
one decimal place: the time is first expressed in seconds, then in milliseconds,
each as a double, and then rounded.

A wait is asked for in seconds, as a double, and lasts the nearest whole number
of microseconds. The double of a long wait cannot tell every microsecond, so
`microseconds` undoes `seconds` only for waits of moderate length.
-/

namespace Reckon.Clock

/-- Seconds as a double, from microseconds. -/
def seconds (elapsed : Int) : Float :=
  Double.ofParts (elapsed < 0) (Double.nearestBits elapsed.natAbs 1000000)

/-- The reading of the clock after some microseconds. -/
def reading (elapsed : Int) : Float :=
  Double.round 1 (seconds elapsed * 1000)

/-- The whole microseconds that a wait of some seconds lasts. -/
def microseconds (duration : Float) : Int :=
  Double.nearestInt (duration * 1000000)

end Reckon.Clock
