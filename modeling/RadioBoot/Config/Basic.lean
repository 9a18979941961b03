import RadioBoot.PipeMap

/-!
# Configuration

The lines that the radio is wired to, the credit budget, the pipes of the update service and how to
advertise. A configuration is valid when the link can work with it.
-/

namespace RadioBoot

/-- The line numbers that the radio is wired to. -/
structure RadioPins where
  request : UInt8
  ready : UInt8
  mosi : UInt8
  miso : UInt8
  clock : UInt8
  reset : UInt8
deriving DecidableEq, Repr

/-- The pipes of the update service. -/
structure UpdatePipes where
  /-- Firmware comes in here. -/
  packetRx : UInt8
  /-- Responses go out here. -/
  controlTx : UInt8
  /-- Requests come in here. -/
  controlRx : UInt8
deriving DecidableEq, Repr

structure Config where
  /-- The application has set the radio up for updates. -/
  valid : Bool
  pins : RadioPins
  /-- The credit budget of the radio. -/
  creditTotal : UInt8
  pipes : UpdatePipes
  /-- How long to advertise, in seconds; without end for zero. -/
  connectTimeout : UInt16
  /-- How often to advertise, in units of 0.625 ms. -/
  advertisingInterval : UInt16
  /-- Packets to a receipt until the central asks for another interval; none for zero. -/
  receiptInterval : UInt16
deriving DecidableEq, Repr

/-- A rule that a configuration breaks. -/
inductive ConfigRule where
  | noCredit
  | pipeRange
  | samePipe
  | advertisingRange
deriving DecidableEq, Repr

namespace ConfigRule

def message : ConfigRule → String
  | .noCredit => "credit_total must be >= 1"
  | .pipeRange => "pipe numbers must be < 62"
  | .samePipe => "DFU pipes must be distinct"
  | .advertisingRange => "adv_interval must be 0x0020–0x4000"

end ConfigRule

/-- Why there is no configuration to work with. -/
inductive ConfigError where
  | notFound
  | corrupted
  | invalid (rule : ConfigRule)
  | ioError
deriving DecidableEq, Repr

namespace ConfigError

def message : ConfigError → String
  | .notFound => "config not found"
  | .corrupted => "config corrupted"
  | .invalid rule => "validation failed: " ++ rule.message
  | .ioError => "I/O error"

end ConfigError

namespace UpdatePipes

def toList (p : UpdatePipes) : List UInt8 := [p.packetRx, p.controlTx, p.controlRx]

end UpdatePipes

namespace Config

/-- What a board works with until it is told otherwise. -/
def standard : Config where
  valid := false
  pins := ⟨10, 11, 35, 37, 36, 12⟩
  creditTotal := 2
  pipes := ⟨8, 9, 10⟩
  connectTimeout := 180
  advertisingInterval := 0x50
  receiptInterval := 0

instance : Inhabited Config := ⟨standard⟩

/-- The first rule that a configuration breaks, if it breaks any. -/
def broken? (c : Config) : Option ConfigRule :=
  if c.creditTotal = 0 then some .noCredit
  else if c.pipes.toList.any (maxPipes ≤ ·) then some .pipeRange
  else if ¬c.pipes.toList.Nodup then some .samePipe
  else if c.advertisingInterval < 0x20 ∨ 0x4000 < c.advertisingInterval then
    some .advertisingRange
  else none

/-- Refuse a configuration that breaks a rule. -/
def validate (c : Config) : Except ConfigError Unit :=
  match c.broken? with
  | some rule => .error (.invalid rule)
  | none => .ok ()

end Config

end RadioBoot
