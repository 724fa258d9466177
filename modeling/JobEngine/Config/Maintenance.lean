import JobEngine.Config.Basic

namespace JobEngine

/-- What happens to the engine's state from time to time. A period of zero means never. -/
structure Maintenance where
  retentionHours : UInt64
  checkpointSecs : UInt64
  pruneSecs : UInt64 := 3600
deriving DecidableEq

namespace Maintenance

def ofJobs (c : JobsConfig) : Maintenance where
  retentionHours := c.retentionHours
  checkpointSecs := c.checkpointSecs

def period? (seconds : UInt64) : Option Nat :=
  if seconds = 0 then none else some (seconds.toNat * 1000)

/-- Seconds from this on cannot be added to a time: they do not fit a signed word. -/
def endless : UInt64 := 9223372036854775808

def feasible (m : Maintenance) : Bool := m.checkpointSecs < endless && m.pruneSecs < endless

end Maintenance

end JobEngine
