import RadioBoot.Bytes

/-!
# The control point

The central writes requests to the control pipe, an opcode and its arguments. What goes back is a
response to a procedure, the size received so far, or a receipt for the packets so far.
-/

namespace RadioBoot

/-- The requests of the control point. -/
inductive ControlOp where
  | start
  | receiveInit
  | receiveFirmware
  | validate
  | activateAndReset
  | systemReset
  | imageSizeRequest
  | packetReceiptRequest
deriving DecidableEq, Repr

namespace ControlOp

def opcode : ControlOp → UInt8
  | .start => 1
  | .receiveInit => 2
  | .receiveFirmware => 3
  | .validate => 4
  | .activateAndReset => 5
  | .systemReset => 6
  | .imageSizeRequest => 7
  | .packetReceiptRequest => 8

/-- The request with this opcode, if there is one. -/
def ofByte? : UInt8 → Option ControlOp
  | 1 => some .start
  | 2 => some .receiveInit
  | 3 => some .receiveFirmware
  | 4 => some .validate
  | 5 => some .activateAndReset
  | 6 => some .systemReset
  | 7 => some .imageSizeRequest
  | 8 => some .packetReceiptRequest
  | _ => none

@[simp] theorem ofByte?_opcode (op : ControlOp) : ofByte? op.opcode = some op := by
  cases op <;> rfl

def name : ControlOp → String
  | .start => "Start"
  | .receiveInit => "ReceiveInit"
  | .receiveFirmware => "ReceiveFirmware"
  | .validate => "Validate"
  | .activateAndReset => "ActivateAndReset"
  | .systemReset => "SystemReset"
  | .imageSizeRequest => "ImageSizeRequest"
  | .packetReceiptRequest => "PacketReceiptRequest"

end ControlOp

/-- How a procedure went. -/
inductive ResultCode where
  | success
  | invalidState
  | notSupported
  | dataSize
  | crcError
  | operationFailed
deriving DecidableEq, Repr

namespace ResultCode

def code : ResultCode → UInt8
  | .success => 1
  | .invalidState => 2
  | .notSupported => 3
  | .dataSize => 4
  | .crcError => 5
  | .operationFailed => 6

def name : ResultCode → String
  | .success => "Success"
  | .invalidState => "InvalidState"
  | .notSupported => "NotSupported"
  | .dataSize => "DataSize"
  | .crcError => "CrcError"
  | .operationFailed => "OperationFailed"

def message : ResultCode → String
  | .success => "success"
  | .invalidState => "invalid state"
  | .notSupported => "not supported"
  | .dataSize => "data size"
  | .crcError => "CRC error"
  | .operationFailed => "operation failed"

end ResultCode

/-- What the bootloader says to the central. -/
inductive Message where
  | response (procedure : UInt8) (result : ResultCode)
  /-- The answer to a request for the image size. -/
  | imageSize (received : UInt32)
  | receipt (received : UInt32)
deriving DecidableEq, Repr

namespace Message

/-- The bytes of a message. -/
def encode : Message → List UInt8
  | .response procedure result => [16, procedure, result.code]
  | .imageSize received =>
    [16, ControlOp.imageSizeRequest.opcode, ResultCode.success.code] ++ Word.littleEndian32 received
  | .receipt received => 17 :: Word.littleEndian32 received

def describe : Message → String
  | .response procedure result =>
    "Response \x7b procedure: " ++ toString procedure ++ ", result: " ++ result.name ++ " \x7d"
  | .imageSize received => "ImageSize \x7b received: " ++ toString received ++ " \x7d"
  | .receipt received => "ReceiptNotification \x7b received: " ++ toString received ++ " \x7d"

end Message

end RadioBoot
