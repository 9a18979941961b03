import RadioBoot.Update.Message

/-!
# Which step a write leads to

An update goes through phases, and the phase decides what a write means. The routing is a table
read from top to bottom: what is said of one phase comes before what is said of all of them, and
the two terminal phases ignore everything.
-/

namespace RadioBoot

/-- What a validation found. -/
inductive Verdict where
  | valid
  | invalid
deriving DecidableEq, Repr

/-- How far an update has come. -/
inductive Phase where
  /-- No image announced. -/
  | idle
  /-- The image length is known. -/
  | ready
  | receivingInit
  | receivingData
  | validated (verdict : Verdict)
  /-- The transfer failed; only a reset leads on. -/
  | failed
  /-- The link is being taken down. -/
  | awaitingReset
  /-- The restart has been asked for. -/
  | terminated
deriving DecidableEq, Repr

namespace Phase

/-- The name of a phase; a validated one is named by its verdict. -/
def name : Phase → String
  | .idle => "Idle"
  | .ready => "Ready"
  | .receivingInit => "ReceivingInit"
  | .receivingData => "ReceivingData"
  | .validated .valid => "Valid"
  | .validated .invalid => "Invalid"
  | .failed => "Failed"
  | .awaitingReset => "AwaitingReset"
  | .terminated => "Terminated"

/-- The phase in full. -/
def describe : Phase → String
  | .validated v => "Validated(" ++ (Phase.validated v).name ++ ")"
  | p => p.name

/-- No write leads out of a terminal phase. -/
def isTerminal : Phase → Bool
  | .awaitingReset | .terminated => true
  | _ => false

end Phase

/-- One write of the central. -/
inductive Request where
  /-- Bytes on the packet pipe. -/
  | packet (data : List UInt8)
  /-- A write on the control pipe; the payload is the whole of it, opcode included. -/
  | control (opcode : UInt8) (payload : List UInt8)
deriving DecidableEq, Repr

namespace Request

/-- The bytes that were written. -/
def data : Request → List UInt8
  | .packet data => data
  | .control _ payload => payload

end Request

/-- What an update does about a write, short of a reset. -/
inductive Step where
  /-- The image length arrives as a packet. -/
  | announceImage
  | beginInit
  /-- An init packet is acknowledged and its bytes are not looked at. -/
  | initPacket
  | beginTransfer
  | dataPacket
  | validate
  | setReceiptInterval
  | reportImageSize
  /-- Answer `procedure` with `result` and stay. -/
  | refuse (procedure : UInt8) (result : ResultCode)
deriving DecidableEq, Repr

/-- Where a write leads. -/
inductive Route where
  | step (s : Step)
  /-- Take the link down and restart. -/
  | reset
deriving DecidableEq, Repr

namespace Route

/-- Where a packet leads. -/
def ofPacket : Phase → Option Route
  | .idle => some (.step .announceImage)
  | .receivingInit => some (.step .initPacket)
  | .receivingData => some (.step .dataPacket)
  | .failed => some (.step (.refuse ControlOp.receiveFirmware.opcode .operationFailed))
  | _ => none

/-- Where a request of the control point leads, in a phase that is not terminal. -/
def ofControl : Phase → ControlOp → Option Route
  | .ready, .receiveInit => some (.step .beginInit)
  | .ready, .receiveFirmware | .receivingInit, .receiveFirmware => some (.step .beginTransfer)
  | .receivingData, .validate => some (.step .validate)
  | .validated .valid, .activateAndReset => some .reset
  | _, .systemReset => some .reset
  | _, .packetReceiptRequest => some (.step .setReceiptInterval)
  | .idle, .imageSizeRequest =>
    some (.step (.refuse ControlOp.imageSizeRequest.opcode .invalidState))
  | _, .imageSizeRequest => some (.step .reportImageSize)
  | _, .start => none
  | _, op => some (.step (.refuse op.opcode .invalidState))

end Route

/-- Where a write leads from a phase; nowhere, if it is ignored. -/
def route (phase : Phase) (r : Request) : Option Route :=
  if phase.isTerminal then
    none
  else
    match r with
    | .packet _ => Route.ofPacket phase
    | .control opcode _ =>
      match ControlOp.ofByte? opcode with
      | some op => Route.ofControl phase op
      | none => some (.step (.refuse opcode .notSupported))

end RadioBoot
