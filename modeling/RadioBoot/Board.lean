import RadioBoot.Port

/-!
# The port on a board

The radio hangs on a bus and three lines: the host drives the request and the reset line and reads
the ready line, all of them asserted low. Any board with these parts makes a port. What fails on
the lines is logged and passed over; what fails on the bus fails the exchange.
-/

namespace RadioBoot

/-- What a part of the board reports when it fails. -/
inductive BoardFault where
  | overrun
  | modeFault
  | frameFormat
  | chipSelectFault
  | other
deriving DecidableEq, Repr

namespace BoardFault

def name : BoardFault → String
  | .overrun => "Overrun"
  | .modeFault => "ModeFault"
  | .frameFormat => "FrameFormat"
  | .chipSelectFault => "ChipSelectFault"
  | .other => "Other"

end BoardFault

/-- The parts of a board. -/
class Board (B : Type) where
  /-- Set the level of the request line. -/
  driveRequest : B → (high : Bool) → Except BoardFault Unit × B
  /-- Set the level of the reset line. -/
  driveReset : B → (high : Bool) → Except BoardFault Unit × B
  /-- Whether the ready line is low. -/
  readyIsLow : B → Except BoardFault Bool × B
  /-- Send a byte over the bus while one comes in. -/
  transfer : B → UInt8 → Except BoardFault UInt8 × B
  /-- Wait until the bus is idle. -/
  flush : B → Except BoardFault Unit × B
  waitMicros : B → UInt32 → B
  waitMillis : B → UInt32 → B

/-- A board whose lines have been parked. -/
structure BoardPort (B : Type) where
  board : B

namespace BoardPort

variable {B : Type} [Board B]

/-- The width of the reset pulse, in microseconds. -/
def pulseWidth : UInt32 := 1

def busFailed (e : BoardFault) : Line := .warn s!"ACI: SPI transfer failed ({e.name})"

def readyFailed (e : BoardFault) : Line := .warn s!"ACI: RDYN read failed ({e.name})"

def requestFailed (e : BoardFault) : Line := .warn s!"ACI: REQN drive failed ({e.name})"

def pulseFailed (e : BoardFault) : Line := .warn s!"ACI: reset pulse failed ({e.name})"

/-- Park the lines of a board: the request line high, then the reset line. -/
def park (b : B) : Except PortError (BoardPort B) × B :=
  match Board.driveRequest b true with
  | (.error _, b) => (.error .pin, b)
  | (.ok (), b) =>
    match Board.driveReset b true with
    | (.error _, b) => (.error .pin, b)
    | (.ok (), b) => (.ok ⟨b⟩, b)

/-- Give the parts back. -/
def release (p : BoardPort B) : B := p.board

/-- Clock a byte over the bus, and wait until it is through. -/
def exchange (p : BoardPort B) (out : UInt8) :
    Logged (Except PortError UInt8 × BoardPort B) :=
  match Board.transfer p.board out with
  | (.error e, b) => ⟨(.error .bus, ⟨b⟩), [busFailed e]⟩
  | (.ok reply, b) =>
    match Board.flush b with
    | (.error e, b) => ⟨(.error .bus, ⟨b⟩), [busFailed e]⟩
    | (.ok (), b) => .silent (.ok reply, ⟨b⟩)

/-- A ready line that cannot be read counts as not asserted. -/
def isReady (p : BoardPort B) : Logged (Bool × BoardPort B) :=
  match Board.readyIsLow p.board with
  | (.ok low, b) => .silent (low, ⟨b⟩)
  | (.error e, b) => ⟨(false, ⟨b⟩), [readyFailed e]⟩

/-- Asserted is low. -/
def setRequest (p : BoardPort B) (on : Bool) : Logged (BoardPort B) :=
  match Board.driveRequest p.board (!on) with
  | (.ok (), b) => .silent ⟨b⟩
  | (.error e, b) => ⟨⟨b⟩, [requestFailed e]⟩

/-- Hold the reset line low for the width of a pulse; the first failure ends the pulse. -/
def pulse (p : BoardPort B) : Logged (BoardPort B) :=
  match Board.driveReset p.board false with
  | (.error e, b) => ⟨⟨b⟩, [pulseFailed e]⟩
  | (.ok (), b) =>
    match Board.driveReset (Board.waitMicros b pulseWidth) true with
    | (.error e, b) => ⟨⟨b⟩, [pulseFailed e]⟩
    | (.ok (), b) => .silent ⟨b⟩

/-- Pulse the reset line and let the request line go. -/
def pulseReset (p : BoardPort B) : Logged (BoardPort B) :=
  let pulsed := p.pulse
  let parked := pulsed.value.setRequest false
  ⟨parked.value, pulsed.lines ++ parked.lines⟩

instance : Port (BoardPort B) where
  exchange := exchange
  isReady := isReady
  setRequest := setRequest
  pulseReset := pulseReset
  delay p ms := .silent ⟨Board.waitMillis p.board ms⟩

end BoardPort

end RadioBoot
