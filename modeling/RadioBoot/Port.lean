import RadioBoot.Log

/-!
# The port to the radio

All that the host can do to the radio, one call at a time: clock a byte out while one comes in,
look at the ready line, drive the request line, reset the radio and wait. A port is any type with
these calls, which may answer as they like; a call returns its answer with the port after it, and
the lines that the port logged.
-/

namespace RadioBoot

/-- Why a byte could not be exchanged. -/
inductive PortError where
  | bus
  | pin
deriving DecidableEq, Repr

namespace PortError

def message : PortError → String
  | .bus => "SPI bus error"
  | .pin => "GPIO line error"

end PortError

/-- The calls of a port. Lines are spoken of as asserted or not, whatever level that is. -/
class Port (P : Type) where
  /-- Clock one byte out and the answer in. -/
  exchange : P → UInt8 → Logged (Except PortError UInt8 × P)
  /-- Whether the radio asserts its ready line. -/
  isReady : P → Logged (Bool × P)
  /-- Drive the request line. -/
  setRequest : P → Bool → Logged P
  /-- Reset the radio. -/
  pulseReset : P → Logged P
  /-- Wait for so many milliseconds. -/
  delay : P → UInt32 → Logged P

end RadioBoot
