import ChipEight.Double
import ChipEight.Layout

/-!
# Configuration

The configuration of a machine and of the loop that drives it. Its numbers are whole; where a
configuration comes from, and what else it may be asked to be, is the matter of settings.
-/

namespace ChipEight

/-- The configuration of a machine. -/
structure Config where
  /-- Instructions between two decrements of the timers. -/
  timerDivider : Int := defaultTimerDivider
  /-- Instructions per second when the machine is paced. -/
  cyclesPerSecond : Int := defaultCyclesPerSecond
  /-- Whether every instruction is traced. -/
  debug : Bool := false
  /-- The seed of the random source, if it is to be reproducible. -/
  seed : Option Int := none
  /-- How many trace events a machine remembers when it is traced. -/
  traceHistory : Int := 64
  /-- Whether the dump after a fault shows memory. -/
  dumpMemoryOnFault : Bool := true
  deriving DecidableEq, Repr

namespace Config

/-! ## Validity -/

/-- The numbers of a configuration are in range. -/
def Valid (c : Config) : Prop := 1 ≤ c.timerDivider ∧ 1 ≤ c.cyclesPerSecond ∧ 0 ≤ c.traceHistory

instance (c : Config) : Decidable c.Valid := by unfold Valid; infer_instance

/-! ## Pace -/

/-- Seconds between two instructions, unless the rate is too large for a double. -/
def stepInterval? (c : Config) : Option Float :=
  (Double.ofNat? c.cyclesPerSecond.toNat).map fun rate => 1.0 / rate

end Config

end ChipEight
