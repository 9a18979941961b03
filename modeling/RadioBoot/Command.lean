import RadioBoot.CodecError
import RadioBoot.Frame.Basic

/-!
# Commands

What the host asks of the radio, and the frame that says it. Words in a command are written most
significant byte first.
-/

namespace RadioBoot

inductive Command where
  /-- Restart the radio without touching its setup. -/
  | radioReset
  /-- Advertise for a central: for `timeout` seconds, every `interval` units of 0.625 ms. -/
  | connect (timeout interval : UInt16)
  /-- Drop the connection. -/
  | disconnect (reason : UInt8)
  /-- Send `data` on a pipe; the radio hands the credit back when it has gone out. -/
  | sendData (pipe : UInt8) (data : List UInt8)
deriving DecidableEq, Repr

namespace Command

/-- The reason of a disconnect that the host wants. -/
def reasonTerminate : UInt8 := 1

def opcode : Command → UInt8
  | .radioReset => 0x0E
  | .connect .. => 0x0F
  | .disconnect _ => 0x10
  | .sendData .. => 0x15

def params : Command → List UInt8
  | .radioReset => []
  | .connect timeout interval => Word.bigEndian timeout ++ Word.bigEndian interval
  | .disconnect reason => [reason]
  | .sendData pipe data => pipe :: data

/-- The frame that says `c`. Only data can be too long for one. -/
def encode (c : Command) : Except CodecError Frame :=
  match Frame.ofOpcode? c.opcode c.params with
  | some f => .ok f
  | none => .error (.payloadTooLarge (c.params.length - 1) maxPipeData)

/-- The command with this opcode and these parameters; parameters behind the ones it needs are
not looked at. -/
def ofParams (opcode : UInt8) (params : List UInt8) : Except CodecError Command :=
  match opcode, params with
  | 0x0E, _ => .ok .radioReset
  | 0x0F, t₁ :: t₀ :: i₁ :: i₀ :: _ => .ok (.connect (Word.ofBytes t₀ t₁) (Word.ofBytes i₀ i₁))
  | 0x0F, ps => .error (.truncated 0x0F ps.length)
  | 0x10, reason :: _ => .ok (.disconnect reason)
  | 0x10, [] => .error (.truncated 0x10 0)
  | 0x15, pipe :: data => .ok (.sendData pipe data)
  | 0x15, [] => .error (.truncated 0x15 0)
  | op, _ => .error (.unknownCommand op)

/-- The command that a frame holds. -/
def decode (f : Frame) : Except CodecError Command :=
  match f.opcode? with
  | none => .error .empty
  | some op => ofParams op f.params

end Command

end RadioBoot
