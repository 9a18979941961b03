import RadioBoot.CodecError
import RadioBoot.Frame.Basic
import RadioBoot.PipeMap

/-!
# Events

What the radio reports, and how a frame is read as a report. Words in an event are written least
significant byte first. An opcode that names no event is itself an event, `Event.unknown`.
-/

namespace RadioBoot

/-- What the radio is doing after it has started. -/
inductive DeviceMode where
  | test
  | setup
  | standby
  | sleep
  | invalid (code : UInt8)
deriving DecidableEq, Repr

namespace DeviceMode

def ofByte : UInt8 → DeviceMode
  | 1 => .test
  | 2 => .setup
  | 3 => .standby
  | 4 => .sleep
  | code => .invalid code

def describe : DeviceMode → String
  | .test => "Test"
  | .setup => "Setup"
  | .standby => "Standby"
  | .sleep => "Sleep"
  | .invalid code => s!"Invalid({code})"

end DeviceMode

/-- The terms of a connection, in the radio's own units. -/
structure Timing where
  interval : UInt16
  latency : UInt16
  timeout : UInt16
deriving DecidableEq, Repr

namespace Timing

/-- Before any connection. -/
def zero : Timing := ⟨0, 0, 0⟩

/-- Three words in six bytes. -/
def ofBytes (bs : List UInt8) : Timing :=
  let word i := Word.ofBytes (bs.getD i 0) (bs.getD (i + 1) 0)
  ⟨word 0, word 2, word 4⟩

end Timing

inductive Event where
  | deviceStarted (mode : DeviceMode) (hardwareError : Bool) (credit : UInt8)
  | commandResponse (command status : UInt8)
  | connected (addressType : UInt8) (address : List UInt8) (timing : Timing) (clockAccuracy : UInt8)
  | disconnected (radioStatus linkStatus : UInt8)
  | bondStatus (status : UInt8)
  | pipeStatus (opened closed : PipeMap)
  | timing (timing : Timing)
  | dataCredit (credit : UInt8)
  | dataAck (pipe : UInt8)
  | dataReceived (pipe : UInt8) (data : List UInt8)
  | pipeError (pipe code : UInt8) (data : List UInt8)
  | unknown (opcode : UInt8)
deriving DecidableEq

namespace Event

/-- The status of a command that worked. -/
def statusSuccess : UInt8 := 0

/-- The pipe error of a write that went out and was refused by the peer: its credit is spent. -/
def peerRefused : UInt8 := 0x92

/-- Read `n` parameters or more: `build` gets them by their place. -/
def needs (opcode : UInt8) (n : Nat) (params : List UInt8) (build : (Nat → UInt8) → Event) :
    Except CodecError Event :=
  if params.length < n then .error (.truncated opcode params.length)
  else .ok (build fun i ↦ params.getD i 0)

/-- The data in a report on a pipe, as far as there is room for it. -/
def pipeData (bytes : List UInt8) : List UInt8 := bytes.take maxPipeData

/-- What fits a report is all there. -/
theorem pipeData_of_fits {bytes : List UInt8} (fits : bytes.length ≤ maxPipeData) :
    pipeData bytes = bytes := List.take_of_length_le fits

/-- The event with this opcode and these parameters; parameters behind the ones it has a place for
are not looked at. -/
def ofParams (opcode : UInt8) (ps : List UInt8) : Except CodecError Event :=
  match opcode with
  | 0x81 => needs 0x81 3 ps fun p ↦ .deviceStarted (.ofByte (p 0)) (p 1 != 0) (p 2)
  | 0x84 => needs 0x84 2 ps fun p ↦ .commandResponse (p 0) (p 1)
  | 0x85 => needs 0x85 14 ps fun p ↦
      .connected (p 0) ((ps.drop 1).take 6) (.ofBytes ((ps.drop 7).take 6)) (p 13)
  | 0x86 => needs 0x86 2 ps fun p ↦ .disconnected (p 0) (p 1)
  | 0x87 => needs 0x87 1 ps fun p ↦ .bondStatus (p 0)
  | 0x88 => needs 0x88 16 ps fun _ ↦
      .pipeStatus (.ofBytes (ps.take 8)) (.ofBytes ((ps.drop 8).take 8))
  | 0x89 => needs 0x89 6 ps fun _ ↦ .timing (.ofBytes (ps.take 6))
  | 0x8A => needs 0x8A 1 ps fun p ↦ .dataCredit (p 0)
  | 0x8B => needs 0x8B 1 ps fun p ↦ .dataAck (p 0)
  | 0x8C => needs 0x8C 1 ps fun p ↦ .dataReceived (p 0) (pipeData (ps.drop 1))
  | 0x8D => needs 0x8D 2 ps fun p ↦ .pipeError (p 0) (p 1) (pipeData (ps.drop 2))
  | op => .ok (.unknown op)

/-- The event that a frame holds. -/
def decode (f : Frame) : Except CodecError Event :=
  match f.opcode? with
  | none => .error .empty
  | some op => ofParams op f.params

end Event

end RadioBoot
