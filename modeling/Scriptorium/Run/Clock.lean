import Scriptorium.Archive.Timestamp

/-!
# Clocks

A run reads a clock whenever it marks something with its time.  Nothing is assumed of what the
clock shows: it may stand still between two readings, jump or be set back.
-/

namespace Scriptorium.Run

open Archive

/-- The moment that is shown at each reading, counted from zero, and the nanoseconds that have gone
by since the first. -/
structure Clock where
  moment : Nat → Timestamp
  elapsed : Nat → Nat

namespace Clock

/-- The clock that starts at a moment and goes on by a microsecond from reading to reading. -/
def startingAt (t : Timestamp) : Clock where
  moment n :=
    ⟨t.seconds + ((t.nanos + 1000 * n) / 1000000000 : Nat), (t.nanos + 1000 * n) % 1000000000⟩
  elapsed n := 1000 * n

instance : Inhabited Clock := ⟨startingAt default⟩

instance : Coe Timestamp Clock := ⟨startingAt⟩

end Clock

end Scriptorium.Run
