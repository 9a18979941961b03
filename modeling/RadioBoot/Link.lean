import RadioBoot.Frame.Ring
import RadioBoot.Port

/-!
# The link

Frames to and from the radio wait in two rings, and each turn of the link runs at most one
transfer. The host clocks a transfer only while the radio is ready; otherwise it asserts the
request line to say that it has something to send. Once ready is seen a transfer runs even with
nothing to send: an empty frame is clocked out, so that the radio can report what it has. No
transfer runs while received frames leave no room for one more.
-/

namespace RadioBoot

/-- The cells of each ring: three frames can wait. -/
def linkSlots : Nat := 4

/-- A port, the frames that wait on both sides of it, and what has been logged. -/
structure Link (P : Type) where
  port : P
  /-- Frames to send. -/
  tx : FrameRing linkSlots
  /-- Frames received. -/
  rx : FrameRing linkSlots
  /-- Everything logged through this link, newest first. -/
  log : List Line

namespace Link

variable {P : Type}

/-- Nothing waits and nothing has been logged. -/
def fresh (port : P) : Link P :=
  ⟨port, .empty linkSlots (by decide), .empty linkSlots (by decide), []⟩

/-- How long the radio takes to answer again after a reset, in milliseconds. -/
def bootDelay : UInt32 := 30

/-! ## Lines of the log -/

def refusing (f : Frame) : Line :=
  .warn s!"ACI: refusing frame of {f.len} bytes (max {maxPayload})"

def truncating (announced : UInt8) : Line :=
  .warn s!"ACI: peer announced {announced} bytes, truncating"

def transferred (sent announced : UInt8) (clocked : Nat) : Line :=
  .debug s!"ACI: transfer tx={sent} rx={announced} clocked={clocked}"

def aborted (e : PortError) (f : Frame) : Line :=
  .warn s!"ACI: transfer aborted ({e.message}), dropped {Frame.describeOpcode f.opcode?}"

def overflowed (f : Frame) : Line :=
  .warn s!"ACI: rx queue full, dropped event {Frame.describeOpcode f.opcode?}"

/-! ## Calls on the port -/

/-- Log a line. -/
def note (l : Link P) (line : Line) : Link P := { l with log := line :: l.log }

@[simp] theorem port_note (l : Link P) (x : Line) : (l.note x).port = l.port := rfl
@[simp] theorem tx_note (l : Link P) (x : Line) : (l.note x).tx = l.tx := rfl
@[simp] theorem rx_note (l : Link P) (x : Line) : (l.note x).rx = l.rx := rfl

/-- Log several lines, oldest first. -/
def notes (l : Link P) (lines : List Line) : Link P := { l with log := lines.reverse ++ l.log }

@[simp] theorem port_notes (l : Link P) (xs : List Line) : (l.notes xs).port = l.port := rfl
@[simp] theorem tx_notes (l : Link P) (xs : List Line) : (l.notes xs).tx = l.tx := rfl
@[simp] theorem rx_notes (l : Link P) (xs : List Line) : (l.notes xs).rx = l.rx := rfl

/-- Put the port back after a call, and log what the call said. -/
def settle (l : Link P) (port : P) (lines : List Line) : Link P :=
  { l with port, log := lines.reverse ++ l.log }

@[simp] theorem port_settle (l : Link P) (p : P) (xs : List Line) : (l.settle p xs).port = p := rfl
@[simp] theorem tx_settle (l : Link P) (p : P) (xs : List Line) : (l.settle p xs).tx = l.tx := rfl
@[simp] theorem rx_settle (l : Link P) (p : P) (xs : List Line) : (l.settle p xs).rx = l.rx := rfl

variable [Port P]

/-- Clock one byte. -/
def exchange (l : Link P) (out : UInt8) : Except PortError UInt8 × Link P :=
  let x := Port.exchange l.port out
  (x.value.1, l.settle x.value.2 x.lines)

/-- Look at the ready line. -/
def isReady (l : Link P) : Bool × Link P :=
  let x := Port.isReady l.port
  (x.value.1, l.settle x.value.2 x.lines)

/-- Drive the request line. -/
def setRequest (l : Link P) (on : Bool) : Link P :=
  let x := Port.setRequest l.port on
  l.settle x.value x.lines

/-- Reset the radio. -/
def pulseReset (l : Link P) : Link P :=
  let x := Port.pulseReset l.port
  l.settle x.value x.lines

/-- Wait. -/
def delay (l : Link P) (milliseconds : UInt32) : Link P :=
  let x := Port.delay l.port milliseconds
  l.settle x.value x.lines

@[simp] theorem tx_exchange (l : Link P) (b : UInt8) : (l.exchange b).2.tx = l.tx := rfl
@[simp] theorem rx_exchange (l : Link P) (b : UInt8) : (l.exchange b).2.rx = l.rx := rfl
@[simp] theorem tx_isReady (l : Link P) : l.isReady.2.tx = l.tx := rfl
@[simp] theorem rx_isReady (l : Link P) : l.isReady.2.rx = l.rx := rfl
@[simp] theorem tx_setRequest (l : Link P) (on : Bool) : (l.setRequest on).tx = l.tx := rfl
@[simp] theorem rx_setRequest (l : Link P) (on : Bool) : (l.setRequest on).rx = l.rx := rfl
@[simp] theorem tx_pulseReset (l : Link P) : l.pulseReset.tx = l.tx := rfl
@[simp] theorem rx_pulseReset (l : Link P) : l.pulseReset.rx = l.rx := rfl
@[simp] theorem tx_delay (l : Link P) (ms : UInt32) : (l.delay ms).tx = l.tx := rfl
@[simp] theorem rx_delay (l : Link P) (ms : UInt32) : (l.delay ms).rx = l.rx := rfl

/-! ## Transfers -/

/-- Clock `out` byte by byte; the first exchange that fails is the last one made. -/
def exchangeAll (l : Link P) : List UInt8 → Except PortError (List UInt8) × Link P
  | [] => (.ok [], l)
  | out :: rest =>
    match l.exchange out with
    | (.error e, l) => (.error e, l)
    | (.ok reply, l) =>
      match l.exchangeAll rest with
      | (.error e, l) => (.error e, l)
      | (.ok replies, l) => (.ok (reply :: replies), l)

/-- How many bytes follow the first two of a transfer: enough for whichever side has more to say,
and never more than a frame has room for. -/
def trailing (out : Frame) (announced : UInt8) : Nat :=
  min maxPayload (max announced.toNat (out.len.toNat - 1))

/-- Clock a frame out and one in. The first byte brings the status and the second the length of
what the radio reports; a length beyond the room of a frame is cut to it. -/
def clock (l : Link P) (out : Frame) : Except PortError Frame × Link P :=
  match l.exchange out.len with
  | (.error e, l) => (.error e, l)
  | (.ok status, l) =>
    match l.exchange (out.room.headD 0) with
    | (.error e, l) => (.error e, l)
    | (.ok announced, l) =>
      let l := if maxPayload < announced.toNat then l.note (truncating announced) else l
      let n := trailing out announced
      match l.exchangeAll ((out.room.tail ++ [0]).take n) with
      | (.error e, l) => (.error e, l)
      | (.ok replies, l) =>
        (.ok (.zeroed status (.ofNat (min announced.toNat maxPayload)) replies),
          l.note (transferred out.len announced (n + 2)))

/-- Ask for a transfer if there is something to send and room for what may come in. -/
def announce (l : Link P) : Link P :=
  if !l.rx.isFull && !l.tx.isEmpty then l.setRequest true else l

/-- Keep a received frame. An empty one is no report and is not kept. -/
def deliver (l : Link P) (f : Frame) : Link P :=
  if f.isEmpty then
    l
  else
    match l.rx.enqueue f with
    | (true, rx) => { l with rx }
    | (false, _) => l.note (overflowed f)

/-- Send the oldest waiting frame, or an empty one, and receive. A transfer that fails loses the
frame it was sending. -/
def transfer (l : Link P) : Bool × Link P :=
  let out := l.tx.dequeue.1.getD .empty
  match ({ l with tx := l.tx.dequeue.2 }.setRequest true).clock out with
  | (.error e, l) => (false, (l.setRequest false).note (aborted e out))
  | (.ok f, l) => (true, ((l.setRequest false).announce).deliver f)

/-! ## Operations -/

/-- One turn of the link: at most one transfer. Says whether one was completed. -/
def poll (l : Link P) : Bool × Link P :=
  if l.rx.isFull then
    (false, l)
  else
    match l.isReady with
    | (true, l) => l.transfer
    | (false, l) => (false, if l.tx.isEmpty then l else l.setRequest true)

/-- Queue a frame to send, and say whether it was taken: a frame that declares more than fits one
is refused, and so is any frame while the ring is full. -/
def send (l : Link P) (f : Frame) : Bool × Link P :=
  if maxPayload < f.len.toNat then
    (false, l.note (refusing f))
  else
    match l.tx.enqueue f with
    | (true, tx) => (true, if l.rx.isFull then { l with tx } else { l with tx }.setRequest true)
    | (false, _) => (false, l)

/-- Take the oldest received frame, after a turn of the link if there is room for one. -/
def tryReceive (l : Link P) : Option Frame × Link P :=
  let l := if l.rx.isFull then l else l.poll.2
  (l.rx.dequeue.1, { l with rx := l.rx.dequeue.2 }.announce)

/-- Forget what waits on both sides. -/
def flush (l : Link P) : Link P := { l with tx := l.tx.clear, rx := l.rx.clear }

/-- Reset the radio, give it time to come up, and forget what waits. -/
def pinReset (l : Link P) : Link P :=
  ((l.pulseReset.setRequest false).delay bootDelay).flush

end Link

end RadioBoot
