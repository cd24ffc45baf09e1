/-
Points in time, in seconds.

Adding a delay stops at the last point in time instead of passing it.
-/

namespace Custody

/-- Seconds since the start of 1970. -/
abbrev Timestamp := UInt64

/-- The point in time this many seconds later, or the last one there is. -/
def Timestamp.after (t : Timestamp) (seconds : UInt64) : Timestamp :=
  UInt64.ofNat (min (t.toNat + seconds.toNat) (UInt64.size - 1))

/-- As a number, the later time is the sum or the last point in time. -/
theorem Timestamp.toNat_after (t : Timestamp) (seconds : UInt64) :
    (Timestamp.after t seconds).toNat = min (t.toNat + seconds.toNat) (UInt64.size - 1) := by
  simp only [Timestamp.after, UInt64.toNat_ofNat', UInt64.size]
  omega

end Custody
