import RadioBoot.Command
import RadioBoot.Event
import RadioBoot.Link

/-!
# The session

What the host knows about the connection, kept up to date by every event it receives: which pipes
are open, and how many data frames the radio still has room for. Each data frame that the link
takes spends one credit; the radio hands credits back, never beyond the budget. A send needs the
pipe open and a credit.
-/

namespace RadioBoot

/-- The host's view of the connection. -/
structure Session where
  /-- The pipes that data can be sent on. -/
  opened : PipeMap
  /-- The pipes that the peer offers and the radio has not opened. -/
  closed : PipeMap
  /-- The credit budget. -/
  total : UInt8
  /-- The credits left of it. -/
  available : UInt8
  timing : Timing
  confirmationPending : Bool
  /-- What the radio last said it was doing, if it has said so. -/
  mode : Option DeviceMode
  connected : Bool
deriving DecidableEq

namespace Session

/-- Not connected, with the whole budget to spend. -/
def fresh (total : UInt8) : Session :=
  ⟨.empty, .empty, total, total, .zero, false, none, false⟩

/-! ## Lines of the log -/

def clamping (available credit total : UInt8) : Line :=
  .warn s!"ACI: credit over-grant ({available} + {credit} > {total}), clamping"

def pipeFailed (pipe code : UInt8) : Line :=
  .debug s!"ACI: pipe {pipe} error 0x{Hex.upperByte code}"

def dropping (e : CodecError) : Line := .warn s!"ACI: dropping event ({e.message})"

def rejecting (pipe : UInt8) (e : CodecError) : Line :=
  .warn s!"ACI: send on pipe {pipe} rejected ({e.message})"

def advertising (timeout interval : UInt16) : Line :=
  .info s!"ACI: advertising (timeout {timeout}s, interval {interval})"

/-! ## Events -/

/-- Take back `credit` credits. The sum stops at 255; one beyond the budget is cut to it, and
reported. -/
def returnCredit (s : Session) (credit : UInt8) : Logged Session :=
  let granted := min 255 (s.available.toNat + credit.toNat)
  ⟨{ s with available := .ofNat (min granted s.total.toNat) },
    if s.total.toNat < granted then [clamping s.available credit s.total] else []⟩

/-- Bring the session up to date with an event. -/
def apply (s : Session) : Event → Logged Session
  | .deviceStarted mode _ credit =>
    .silent { s with mode := some mode, total := credit, available := credit }
  | .connected _ _ timing _ =>
    .silent { s with connected := true, timing := timing, available := s.total }
  | .pipeStatus opened closed => .silent { s with opened, closed }
  | .disconnected _ _ =>
    .silent { s with
      connected := false
      opened := .empty
      closed := .empty
      confirmationPending := false
      available := s.total }
  | .timing timing => .silent { s with timing }
  | .dataCredit credit => s.returnCredit credit
  | .pipeError pipe code _ =>
    let refunded := if code = Event.peerRefused then .silent s else s.returnCredit 1
    ⟨refunded.value, refunded.lines ++ [pipeFailed pipe code]⟩
  | _ => .silent s

/-! ## Pipes and credit -/

def isAvailable (s : Session) (pipe : UInt8) : Bool := s.opened.contains pipe

def isClosed (s : Session) (pipe : UInt8) : Bool := s.closed.contains pipe

/-- Take `pipe` for open without a report from the radio. A pipe it does not have is left alone. -/
def markOpen (s : Session) (pipe : UInt8) : Session :=
  if pipe < maxPipes then
    { s with opened := s.opened.insert pipe, closed := s.closed.erase pipe }
  else
    s

/-- Have at least `credit` credits, as far as the budget goes. -/
def ensureCredit (s : Session) (credit : UInt8) : Session :=
  { s with available := max s.available (min credit s.total) }

/-! ## Traffic -/

variable {P : Type} [Port P]

/-- Receive the next event and apply it. A frame that is no event is dropped. -/
def nextEvent (s : Session) (l : Link P) : Option Event × Session × Link P :=
  match l.tryReceive with
  | (none, l) => (none, s, l)
  | (some f, l) =>
    match Event.decode f with
    | .error e => (none, s, l.note (dropping e))
    | .ok event =>
      let x := s.apply event
      (some event, x.value, l.notes x.lines)

/-- Queue a command, and say whether the link took it. -/
def sendCommand (l : Link P) (c : Command) : Bool × Link P :=
  match c.encode with
  | .ok f => l.send f
  | .error _ => (false, l)

/-- Send `data` on `pipe`, at the price of one credit. Says whether the link took it. -/
def sendData (s : Session) (l : Link P) (pipe : UInt8) (data : List UInt8) :
    Bool × Session × Link P :=
  if !s.isAvailable pipe || s.available == 0 then
    (false, s, l)
  else
    match (Command.sendData pipe data).encode with
    | .error e => (false, s, l.note (rejecting pipe e))
    | .ok f =>
      match l.send f with
      | (true, l) => (true, { s with available := s.available - 1 }, l)
      | (false, l) => (false, s, l)

/-- Start advertising; the radio answers when a central has connected. -/
def connect (l : Link P) (timeout interval : UInt16) : Bool × Link P :=
  match sendCommand l (.connect timeout interval) with
  | (true, l) => (true, l.note (advertising timeout interval))
  | (false, l) => (false, l)

/-- Drop the connection. No pipe is open any more once the link has taken the request. -/
def disconnect (s : Session) (l : Link P) (reason : UInt8) : Bool × Session × Link P :=
  match sendCommand l (.disconnect reason) with
  | (true, l) => (true, { s with opened := .empty, closed := .empty }, l)
  | (false, l) => (false, s, l)

/-- Restart the radio without touching its setup. -/
def radioReset (l : Link P) : Bool × Link P := sendCommand l .radioReset

end Session

end RadioBoot
