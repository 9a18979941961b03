import RadioBoot.Updater

/-!
# The bootloader

The loop around an update: start the radio, advertise until a central connects, hand its writes to
the updater, and tell what happens as events.
-/

namespace RadioBoot

/-- How the bootloader was entered. -/
inductive Entry where
  /-- At power-on, with the radio in an unknown state. -/
  | coldBoot
  /-- From an application that leaves the radio running. -/
  | fromApplication
deriving DecidableEq, Repr

namespace Entry

def name : Entry → String
  | .coldBoot => "ColdBoot"
  | .fromApplication => "FromApplication"

end Entry

/-- What the bootloader tells. -/
inductive BootEvent where
  | started (entry : Entry)
  | connecting (timeout interval : UInt16)
  | connected
  | disconnected
  | phaseChanged (before after : Phase)
  | resetIssued
deriving DecidableEq, Repr

/-- An updater, what it is configured with, and what has been told. -/
structure Bootloader (page : Nat) (P F R : Type) where
  updater : Updater page P F R
  config : Config
  /-- Whether a write to the update service has been seen. -/
  updating : Bool
  /-- Everything told, oldest first. -/
  events : List BootEvent

namespace Bootloader

variable {page : Nat} {P F R : Type}

/-- Before the start: nothing has touched the radio. -/
def fresh (port : P) (flash : F) (restart : R) (config : Config) : Bootloader page P F R where
  updater := .fresh config.pipes config.receiptInterval (.fresh config.creditTotal) (.fresh port)
    flash restart
  config
  updating := false
  events := []

/-- How long to leave a radio alone that reports a hardware error, in milliseconds. -/
def errorBackoff : UInt32 := 20

/-! ## Lines of the log -/

def resetNotQueued : Line := .warn "ACI: radio reset not queued"

def starting (entry : Entry) : Line := .info s!"Bootloader started ({entry.name})"

def hardwareError : Line := .warn "ACI: radio reports hardware error, backing off"

def startedIn (mode : DeviceMode) : Line := .debug s!"ACI: radio started in {mode.describe}"

def commandFailed (command status : UInt8) : Line :=
  .warn s!"ACI: command 0x{Hex.upperByte command} failed (0x{Hex.upperByte status})"

def centralConnected : Line := .info "ACI: central connected"

def linkLost (radioStatus linkStatus : UInt8) : Line :=
  .info s!"ACI: disconnected (aci 0x{Hex.upperByte radioStatus}, btle 0x{Hex.upperByte linkStatus})"

def foreign (bytes : Nat) (pipe : UInt8) : Line :=
  .debug s!"ACI: {bytes} bytes on foreign pipe {pipe}"

def entering : Line := .info "Entering DFU mode"

def connectNotQueued : Line := .warn "ACI: connect not queued"

/-! ## Parts -/

def phase (b : Bootloader page P F R) : Phase := b.updater.phase

/-- Work on the link. -/
def withLink (b : Bootloader page P F R) (link : Link P) : Bootloader page P F R :=
  { b with updater := { b.updater with link } }

def note (b : Bootloader page P F R) (line : Line) : Bootloader page P F R :=
  b.withLink (b.updater.link.note line)

/-- Tell an event. -/
def tell (b : Bootloader page P F R) (e : BootEvent) : Bootloader page P F R :=
  { b with events := b.events ++ [e] }

variable [Port P]

/-- Advertise for a central. -/
def advertise (b : Bootloader page P F R) : Bootloader page P F R :=
  match Session.connect b.updater.link b.config.connectTimeout b.config.advertisingInterval with
  | (true, l) =>
    (b.withLink l).tell (.connecting b.config.connectTimeout b.config.advertisingInterval)
  | (false, l) => (b.withLink l).note connectNotQueued

/-- Bring the radio up, by its reset line or by a command. Advertising follows from the event that
the radio answers with. -/
def start (b : Bootloader page P F R) (entry : Entry) : Bootloader page P F R :=
  let b :=
    match entry with
    | .coldBoot => b.withLink b.updater.link.pinReset
    | .fromApplication =>
      match Session.radioReset b.updater.link with
      | (true, l) => b.withLink l
      | (false, l) => (b.withLink l).note resetNotQueued
  (b.note (starting entry)).tell (.started entry)

/-- Hand a write to the updater, and tell when it leads to another phase and when a restart has
been asked for. -/
def feed [Flash F] [Restart R] (b : Bootloader page P F R) (turns : Nat) (pipe : UInt8)
    (data : List UInt8) : Progress (Bootloader page P F R) :=
  match b.updater.write turns pipe data with
  | .waiting updater => .waiting { b with updater }
  | .done updater =>
    let before := b.phase
    let b := { b with updater }
    let b := if b.phase = before then b else b.tell (.phaseChanged before b.phase)
    .done (if b.phase = .terminated then b.tell .resetIssued else b)

/-- Act on an event. Says whether the peer showed signs of life. -/
def handle [Flash F] [Restart R] (b : Bootloader page P F R) (turns : Nat) :
    Event → Progress (Bool × Bootloader page P F R)
  | .deviceStarted .standby false _ => .done (false, b.advertise)
  | .deviceStarted .standby true _ =>
    let b := b.note hardwareError
    .done (false, b.withLink (b.updater.link.delay errorBackoff))
  | .deviceStarted mode _ _ => .done (false, b.note (startedIn mode))
  | .commandResponse command status =>
    if status ≠ Event.statusSuccess then
      .done (false, b.note (commandFailed command status))
    else if command = Command.radioReset.opcode then
      .done (false, b.advertise)
    else
      .done (false, b)
  | .connected .. => .done (true, (b.note centralConnected).tell .connected)
  | .disconnected radioStatus linkStatus =>
    let b := (b.note (linkLost radioStatus linkStatus)).tell .disconnected
    .done (false, if b.phase.isTerminal then b else b.advertise)
  | .dataCredit _ | .pipeError .. => .done (true, b)
  | .dataReceived pipe data =>
    if b.updater.pipes.owns pipe then
      let b := if b.updating then b else { b.note entering with updating := true }
      (b.feed turns pipe data).map (true, ·)
    else
      .done (false, b.note (foreign data.length pipe))
  | _ => .done (false, b)

/-- One turn of the loop: send waiting responses, then receive and act on one event. Says whether
the peer showed signs of life. -/
def poll [Flash F] [Restart R] (b : Bootloader page P F R) (turns : Nat) :
    Progress (Bool × Bootloader page P F R) :=
  let u := b.updater.flushResponses.2
  let (event, session, link) := u.session.nextEvent u.link
  let b := { b with updater := { u with session, link } }
  match event with
  | some e => b.handle turns e
  | none => .done (false, b)

end Bootloader

end RadioBoot
