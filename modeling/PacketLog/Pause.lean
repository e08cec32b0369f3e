/-!
# Pause

Waits of a length that is known beforehand, on a clock that counts milliseconds.  No pause is
longer than thirty years: one that is asked to be longer ends then.
-/

namespace PacketLog.Pause

/-- The most milliseconds a pause takes: thirty years of 365 days. -/
def longest : Nat := 30 * 365 * 86400000

/-- When a pause of `ms` milliseconds is over that begins at `now`. -/
def finish (now ms : Nat) : Nat := now + min ms longest

/-- The milliseconds that `nanos` nanoseconds take up, the last of which may not be full. -/
def ofNanos (nanos : Nat) : Nat := (nanos + 999999) / 1000000

end PacketLog.Pause
