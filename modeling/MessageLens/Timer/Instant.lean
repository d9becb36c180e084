import MessageLens.Number.Binary64

/-!
# Points in time

Timers need little of time: to compare points and to move one by a number of milliseconds. A clock
that counts seconds in doubles rounds, and it knows no delay longer than the greatest double; one
that counts milliseconds does neither.
-/

namespace MessageLens
set_option autoImplicit false

/-- Points in time. -/
class Instant (τ : Type) where
  /-- Whether the first point is not after the second. -/
  notAfter : τ → τ → Bool
  /-- The point that many milliseconds later. -/
  shift : τ → Int → τ
  /-- Whether a delay of that many milliseconds can be expressed. -/
  reaches : Int → Bool

/-- Milliseconds since some moment, exactly. -/
instance : Instant Int where
  notAfter s t := decide (s ≤ t)
  shift t ms := t + ms
  reaches _ := true

/-- Milliseconds as the nearest number of seconds, unless there are too many. -/
def secondsOfMs? (ms : Int) : Option Binary64 := Binary64.ofRatio? (ms < 0) ms.natAbs 1000

/-- Seconds since some moment, as doubles. -/
instance : Instant Float where
  notAfter s t := decide (s ≤ t)
  shift t ms :=
    match secondsOfMs? ms with
    | some x => t + x.toFloat
    | none => 1 / 0
  reaches ms := (secondsOfMs? ms).isSome

end MessageLens
