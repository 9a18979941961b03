import RadioBoot.Config.Basic
import RadioBoot.Progress
import RadioBoot.Restart
import RadioBoot.Session
import RadioBoot.Update.Transfer

/-!
# The updater

An update together with all it works on: the link and its session, the flash, and the restart.
Writes that come in on the service's pipes are routed; the step they lead to is taken, and the
responses it asks for wait in an outbox until the link takes them.
-/

namespace RadioBoot

/-- How many responses can wait. -/
def outboxDepth : Nat := 4

/-- The credit that a start makes sure of, for its responses. -/
def responseCredit : UInt8 := 2

/-- An update and its surroundings. -/
structure Updater (page : Nat) (P F R : Type) where
  transfer : Transfer page
  pipes : UpdatePipes
  /-- Responses that the link has not taken yet, oldest first. -/
  outbox : List Message
  session : Session
  link : Link P
  flash : F
  restart : R

namespace UpdatePipes

/-- Whether writes on `pipe` belong to the update service. -/
def owns (p : UpdatePipes) (pipe : UInt8) : Bool := pipe == p.packetRx || pipe == p.controlRx

/-- What a write on a pipe means; nothing, on a pipe of someone else or without an opcode. -/
def classify (p : UpdatePipes) (pipe : UInt8) (data : List UInt8) : Option Request :=
  if pipe = p.packetRx then
    some (.packet data)
  else if pipe = p.controlRx then
    match data with
    | [] => none
    | opcode :: _ => some (.control opcode data)
  else
    none

end UpdatePipes

namespace Updater

variable {page : Nat} {P F R : Type}

/-- No update yet. -/
def fresh (pipes : UpdatePipes) (interval : UInt16) (session : Session) (link : Link P) (flash : F)
    (restart : R) : Updater page P F R :=
  ⟨.fresh page interval, pipes, [], session, link, flash, restart⟩

def phase (u : Updater page P F R) : Phase := u.transfer.phase

def linkDown : Line := .info "DFU: link down, resetting"

def dropping (m : Message) : Line := .error s!"DFU: response outbox full, dropping {m.describe}"

/-- Log lines through the link. -/
def notes (u : Updater page P F R) (lines : List Line) : Updater page P F R :=
  { u with link := u.link.notes lines }

/-- Put a response into the outbox. A full one drops it. -/
def respond (u : Updater page P F R) (m : Message) : Updater page P F R :=
  if u.outbox.length < outboxDepth then
    { u with outbox := u.outbox ++ [m] }
  else
    u.notes [dropping m]

/-- Do what a step asks for. -/
def perform (u : Updater page P F R) : Effect → Updater page P F R
  | .log line => u.notes [line]
  | .respond m => u.respond m
  | .openResponses =>
    { u with session := (u.session.markOpen u.pipes.controlTx).ensureCredit responseCredit }

/-- Take a step. -/
def step [Flash F] (u : Updater page P F R) (s : Step) (data : List UInt8) :
    Updater page P F R :=
  let x := u.transfer.step u.flash s data
  x.effects.foldl perform { u with transfer := x.transfer, flash := x.flash }

/-- Go on to a phase. -/
def moveTo (u : Updater page P F R) (next : Phase) : Updater page P F R :=
  let x := u.transfer.moveTo next
  { u with transfer := x.1 }.notes x.2

variable [Port P]

/-- Send responses in order as long as the link takes them. What it does not take stays. -/
def sendAll (pipe : UInt8) : List Message → Session → Link P → List Message × Session × Link P
  | [], s, l => ([], s, l)
  | m :: rest, s, l =>
    match s.sendData l pipe m.encode with
    | (true, s, l) => sendAll pipe rest s l
    | (false, s, l) => (m :: rest, s, l)

/-- Send what waits in the outbox, as far as the link takes it. Says how many responses went. -/
def flushResponses (u : Updater page P F R) : Nat × Updater page P F R :=
  let x := sendAll u.pipes.controlTx u.outbox u.session u.link
  (u.outbox.length - x.1.length, { u with outbox := x.1, session := x.2.1, link := x.2.2 })

/-- Ask for the disconnect until the link takes it, and receive until a disconnect is reported, for
so many turns. -/
def awaitDisconnect : (turns : Nat) → (requested : Bool) → Session → Link P →
    Progress (Session × Link P)
  | 0, _, s, l => .waiting (s, l)
  | turns + 1, requested, s, l =>
    let (requested, s, l) :=
      if requested then (true, s, l) else s.disconnect l Command.reasonTerminate
    match s.nextEvent l with
    | (some (.disconnected ..), s, l) => .done (s, l)
    | (_, s, l) => awaitDisconnect turns requested s l

/-- Take the link down, then restart. -/
def reset [Restart R] (u : Updater page P F R) (turns : Nat) : Progress (Updater page P F R) :=
  let u := u.moveTo .awaitingReset
  match awaitDisconnect turns false u.session u.link with
  | .waiting (session, link) => .waiting { u with session, link }
  | .done (session, link) =>
    let u := { u with session, link }.notes [linkDown]
    let x := Restart.restart u.restart
    .done (({ u with restart := x.value }.notes x.lines).moveTo .terminated)

/-- Route a request, take the step it leads to and send the responses. A request that is ignored
sends nothing, and neither does a reset before it is over. -/
def dispatch [Flash F] [Restart R] (u : Updater page P F R) (turns : Nat) (r : Request) :
    Progress (Updater page P F R) :=
  match route u.phase r with
  | none => .done u
  | some (.step s) => .done (u.step s r.data).flushResponses.2
  | some .reset => (u.reset turns).mapDone fun u ↦ u.flushResponses.2

/-- Take in a write on a pipe. -/
def write [Flash F] [Restart R] (u : Updater page P F R) (turns : Nat) (pipe : UInt8)
    (data : List UInt8) : Progress (Updater page P F R) :=
  match u.pipes.classify pipe data with
  | none => .done u
  | some r => u.dispatch turns r

end Updater

end RadioBoot
