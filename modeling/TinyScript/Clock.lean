/-! # The clock

A run of a script reads the time off a `Clock`, which shows any time at any reading.
-/

namespace TinyScript

/-- What a clock shows, reading by reading: milliseconds since the beginning of 1970 (UTC). -/
structure Times where
  millis : Nat → Nat

namespace Times

/-- Lets time pass from `start` on while a script waits for it, a millisecond every 1024 readings. -/
def steady (start : Nat) : Times := ⟨fun readings => start + readings / 1024⟩

instance : Coe Nat Times := ⟨steady⟩

instance : Inhabited Times := ⟨steady 0⟩

end Times

structure Clock where
  times : Times
  readings : Nat := 0
  deriving Inhabited

namespace Clock

def read (c : Clock) : Float × Clock :=
  ((c.times.millis c.readings).toFloat, { c with readings := c.readings + 1 })

end Clock

end TinyScript
