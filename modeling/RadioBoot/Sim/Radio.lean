import RadioBoot.Hex
import RadioBoot.Port

/-!
# A simulated radio

A radio that works byte by byte. It is ready whenever it has an event to report or the host asks
to send, answers each transfer from its list of pending events, and keeps every frame that the
host clocks out. It can be told to answer some commands by itself, as a real radio does.
-/

namespace RadioBoot.Sim

/-- A radio on the other side of the port. -/
structure Radio where
  /-- The events to report, oldest first, each as the bytes it is clocked out with. -/
  pending : List (List UInt8) := []
  /-- The frames that the host has sent, oldest first. -/
  sent : List (List UInt8) := []
  /-- The level of the request line. -/
  request : Bool := false
  /-- A busy radio is never ready. -/
  busy : Bool := false
  /-- While this holds, every exchange fails. -/
  busFault : Bool := false
  /-- The bytes of the transfer that is under way. -/
  clocked : List UInt8 := []
  /-- The event that this transfer reports. -/
  outgoing : List UInt8 := []
  /-- How often the request line has been asserted. -/
  requestEdges : Nat := 0
  resets : Nat := 0
  /-- Every wait, in milliseconds. -/
  delays : List UInt32 := []
  /-- Hand back one credit for every data frame. -/
  autoCredit : Bool := false
  /-- Answer a disconnect command with a disconnected event. -/
  autoDisconnect : Bool := false
  /-- Answer a connect command with a connected event and these pipes open. -/
  autoConnect : Option (List UInt8) := none
deriving DecidableEq

namespace Radio

/-- Queue an event, whatever its bytes. -/
def push (r : Radio) (event : List UInt8) : Radio := { r with pending := r.pending ++ [event] }

def pushStarted (r : Radio) (mode : UInt8) (hardwareError : Bool) (credit : UInt8) : Radio :=
  r.push [4, 0x81, mode, if hardwareError then 1 else 0, credit]

def pushResponse (r : Radio) (command status : UInt8) : Radio := r.push [3, 0x84, command, status]

def pushConnected (r : Radio) : Radio :=
  r.push [15, 0x85, 0x01, 0xC0, 0xFF, 0xEE, 0x01, 0x02, 0x03, 0x18, 0x00, 0x00, 0x00, 0xF4, 0x01,
    0x00]

def pushDisconnected (r : Radio) : Radio := r.push [3, 0x86, 0x03, 0x13]

/-- Set the bit of `pipe` in the sixteen bytes of two pipe maps; the second map follows the
first. -/
def markPipe (maps : List UInt8) (pipe : UInt8) : List UInt8 :=
  maps.modify (pipe.toNat / 8) (· ||| ⟨BitVec.twoPow 8 (pipe.toNat % 8)⟩)

/-- Report `pipes` as open and none as closed. -/
def pushPipes (r : Radio) (pipes : List UInt8) : Radio :=
  r.push (17 :: 0x88 :: pipes.foldl markPipe (List.replicate 16 0))

/-- Report data on a pipe. The length byte wraps for data that no frame can hold. -/
def pushData (r : Radio) (pipe : UInt8) (data : List UInt8) : Radio :=
  r.push (.ofNat (2 + data.length) :: 0x8C :: pipe :: data)

def pushCredit (r : Radio) (credit : UInt8) : Radio := r.push [2, 0x8A, credit]

def pushPipeError (r : Radio) (pipe code : UInt8) : Radio := r.push [3, 0x8D, pipe, code]

/-- What the radio does by itself about a frame with this opcode. -/
def answer (r : Radio) (opcode : UInt8) : Radio :=
  match opcode with
  | 0x15 => if r.autoCredit then r.pushCredit 1 else r
  | 0x10 => if r.autoDisconnect then r.pushDisconnected else r
  | 0x0F =>
    match r.autoConnect with
    | some pipes => r.pushConnected.pushPipes pipes
    | none => r
  | _ => r

/-- Bytes as a list of two-digit numbers. -/
def listed (bs : List UInt8) : String :=
  "[" ++ ", ".intercalate (bs.map Hex.upperByte) ++ "]"

/-- The end of a transfer. A frame that was clocked out whole is answered and kept; anything less
is dropped. -/
def finish (r : Radio) : Logged Radio :=
  let idle := { r with clocked := [], outgoing := [] }
  match r.clocked with
  | len :: opcode :: _ =>
    if len = 0 ∨ r.clocked.length < len.toNat + 1 then
      .silent idle
    else
      let frame := r.clocked.take (len.toNat + 1)
      let answered := idle.answer opcode
      ⟨{ answered with sent := answered.sent ++ [frame] },
        [.debug s!"sim radio: host sent {listed frame}"]⟩
  | _ => .silent idle

/-- Clock one byte. The first byte of a transfer takes the oldest event and is answered with a
status of zero; each later one is answered with the next byte of that event, and with zero behind
its end. -/
def clock (r : Radio) (byte : UInt8) : UInt8 × Radio :=
  match r.clocked with
  | [] =>
    (0, { r with
      clocked := [byte]
      outgoing := r.pending.headD []
      pending := r.pending.tail })
  | _ :: earlier =>
    (r.outgoing.getD earlier.length 0, { r with clocked := r.clocked ++ [byte] })

/-- Drive the request line. Letting it go ends the transfer that is under way. -/
def drive (r : Radio) (on : Bool) : Logged Radio :=
  let counted := if on && !r.request then { r with requestEdges := r.requestEdges + 1 } else r
  let ended := if on || r.clocked.isEmpty then .silent counted else counted.finish
  ended.map ({ · with request := on })

instance : Port Radio where
  exchange r byte :=
    .silent (if r.busFault then (.error .bus, r) else let x := r.clock byte; (.ok x.1, x.2))
  isReady r := .silent (!r.busy && (r.request || !r.pending.isEmpty), r)
  setRequest := drive
  pulseReset r := .silent { r with
    resets := r.resets + 1
    pending := []
    clocked := []
    outgoing := [] }
  delay r ms := .silent { r with delays := r.delays ++ [ms] }

/-- The sent frames with this opcode. -/
def sentCommands (r : Radio) (opcode : UInt8) : List (List UInt8) :=
  r.sent.filter fun f ↦ f[1]? == some opcode

/-- The data sent on a pipe, frame by frame. -/
def sentOnPipe (r : Radio) (pipe : UInt8) : List (List UInt8) :=
  (r.sent.filter fun f ↦ f[1]? == some 0x15 && f[2]? == some pipe).map (·.drop 3)

end Radio

end RadioBoot.Sim
