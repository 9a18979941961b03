import RadioBoot.Config.Basic

/-!
# The provisioned block

An application leaves what it knows about the radio in a block of 22 bytes, before it starts the
bootloader: a marker in the second byte, then six lines as pairs of a port and a mask with one bit
set, the credit budget, the three pipes, the timeout and the interval, words with their least
significant byte first. The first byte is not used, nor is anything behind the block.
-/

namespace RadioBoot.Config

/-- The number of the bit that is set in `mask`, if just one is. -/
def onlyBit? (mask : UInt8) : Option Nat :=
  match (List.range 8).filter mask.toBitVec.getLsbD with
  | [k] => some k
  | _ => none

/-- The number of the line at a bit of a port, eight lines to a port. -/
def line? (port mask : UInt8) : Option UInt8 :=
  match onlyBit? mask with
  | some k => if port.toNat * 8 + k < 256 then some (.ofNat (port.toNat * 8 + k)) else none
  | none => none

/-- The six lines of a block, from its third byte on. -/
def pins? (block : List UInt8) : Option RadioPins := do
  let line i := line? (block.getD (2 + 2 * i) 0) (block.getD (3 + 2 * i) 0)
  let request ← line 0
  let ready ← line 1
  let mosi ← line 2
  let miso ← line 3
  let clock ← line 4
  let reset ← line 5
  return { request, ready, mosi, miso, clock, reset }

/-- The configuration of a block with these lines. -/
def ofBlock (pins : RadioPins) (block : List UInt8) : Config :=
  let byte i := block.getD i 0
  { valid := true
    pins
    creditTotal := byte 14
    pipes := ⟨byte 15, byte 16, byte 17⟩
    connectTimeout := Word.ofBytes (byte 18) (byte 19)
    advertisingInterval := Word.ofBytes (byte 20) (byte 21)
    receiptInterval := 0 }

/-- Read a provisioned block. A short one is corrupted, one without the marker is not there, one
with a line that cannot be is corrupted, and the configuration must break no rule; of several
faults the first of these is reported. -/
def ofBlock? (block : List UInt8) : Except ConfigError Config :=
  if block.length < 22 then
    .error .corrupted
  else if block.getD 1 0 ≠ 1 then
    .error .notFound
  else
    match pins? block with
    | none => .error .corrupted
    | some pins =>
      match (ofBlock pins block).validate with
      | .error e => .error e
      | .ok () => .ok (ofBlock pins block)

end RadioBoot.Config
