import RadioBoot.Hex

/-! # Why a frame has no meaning, or a meaning no frame -/

namespace RadioBoot

/-- What stands between a frame and the command or event it should hold. -/
inductive CodecError where
  /-- More bytes than one command can carry. -/
  | payloadTooLarge (len max : Nat)
  /-- The opcode is known, but the frame declares too few parameters for it. -/
  | truncated (opcode : UInt8) (len : Nat)
  /-- The frame declares nothing, not even an opcode. -/
  | empty
  /-- No command has this opcode. -/
  | unknownCommand (opcode : UInt8)
deriving DecidableEq, Repr

namespace CodecError

def message : CodecError → String
  | .payloadTooLarge len max => s!"payload of {len} bytes exceeds {max} byte limit"
  | .truncated opcode len => s!"opcode 0x{Hex.upperByte opcode} truncated at {len} bytes"
  | .empty => "empty frame"
  | .unknownCommand opcode => s!"unknown command 0x{Hex.upperByte opcode}"

end CodecError

end RadioBoot
