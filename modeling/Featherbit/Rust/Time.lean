/-
  CLOCKS AND DURATIONS (`std::time`).

  An `Instant` is the number of nanoseconds on a clock that never runs out, a `Duration` a number
  of nanoseconds.  What goes through a double is a class: only its type is known.
-/

namespace Featherbit

/-- `Duration::from_secs`. -/
def durationFromSecs (secs : Nat) : Nat := secs * 1000000000

theorem durationFromSecs_mono {m n : Nat} (h : m ≤ n) : durationFromSecs m ≤ durationFromSecs n :=
  Nat.mul_le_mul_right _ h

/-- The last `Instant` of a 64-bit Unix system: a signed count of seconds, and the nanoseconds. -/
def unixInstantMax : Nat := durationFromSecs 9223372036854775807 + 999999999

/-- `duration.as_secs_f64().ceil() as u64`. -/
class WholeSeconds where
  ceilSecs : Nat → Nat

/-- `format!("{:?}", duration)`. -/
class DurationText where
  debug : Nat → String

end Featherbit
