import RadioBoot.Bootloader
import RadioBoot.Port.Trace
import RadioBoot.Sim.Faulty
import RadioBoot.Sim.Flash
import RadioBoot.Sim.Radio

/-!
# A test bench

A bootloader with everything around it simulated: a traced port with faults to come, a radio behind
it, a flash, and something to restart. The bench runs the machine until nothing moves any more.
-/

namespace RadioBoot.Sim

/-- The port of the bench. -/
abbrev BenchPort := Port.Traced (Faulty Radio)

namespace BenchPort

/-- A radio on the port, with nothing called and no fault to come. -/
def ofRadio (r : Radio) : BenchPort := .fresh (.sound r)

/-- The radio behind the port. -/
def radio (p : BenchPort) : Radio := p.port.port

/-- Change the radio behind the port's back. -/
def onRadio (p : BenchPort) (f : Radio → Radio) : BenchPort :=
  { p with port := { p.port with port := f p.port.port } }

/-- Let `n` exchanges pass and make the one after them fail. -/
def faultIn (p : BenchPort) (n : Nat) (e : PortError) : BenchPort :=
  { p with port := { p.port with fault := some (n, e) } }

end BenchPort

/-- What a restart is asked of. -/
inductive Supervisor where
  /-- Counts the requests. -/
  | counter (restarts : Nat)
  | watchdog (w : Watchdog)
deriving DecidableEq, Repr

namespace Supervisor

/-- Show a sign of life. Only a watchdog takes notice. -/
def feed : Supervisor → Supervisor
  | .counter n => .counter n
  | .watchdog w => .watchdog w.feed

instance : Restart Supervisor where
  restart
    | .counter n => .silent (.counter (n + 1))
    | .watchdog w => (Restart.restart w).map .watchdog

end Supervisor

variable {page : Nat}

/-- Whether no frame waits on the link and no event at the radio. -/
def quiet (l : Link BenchPort) : Bool :=
  l.tx.isEmpty && l.rx.isEmpty && l.port.radio.pending.isEmpty

/-- Receive events until there is none, for at most so many. -/
def drain : Nat → Session → Link BenchPort → Session × Link BenchPort
  | 0, s, l => (s, l)
  | n + 1, s, l =>
    match s.nextEvent l with
    | (some _, s, l) => drain n s l
    | (none, s, l) => (s, l)

/-- An updater on the bench. -/
abbrev BenchUpdater (page : Nat) := Updater page BenchPort Flash Supervisor

/-- Receive all events, then send responses, until all is quiet or the rounds are used up. In one
round, more events than are pending can only be the answers to the few frames on the link. -/
def pump : (rounds : Nat) → BenchUpdater page → BenchUpdater page
  | 0, u => u
  | rounds + 1, u =>
    let (session, link) := drain (u.link.port.radio.pending.length + 64) u.session u.link
    let u := { u with session, link }.flushResponses.2
    if quiet u.link then u else pump rounds u

/-- A bootloader on the bench. -/
abbrev BenchBootloader (page : Nat) := Bootloader page BenchPort Flash Supervisor

/-- One poll, which feeds the supervisor when the peer shows signs of life. -/
def pollAndFeed (turns : Nat) (b : BenchBootloader page) :
    Progress (Bool × BenchBootloader page) :=
  (b.poll turns).map fun (alive, b) ↦
    (alive, if alive then
      { b with updater := { b.updater with restart := b.updater.restart.feed } } else b)

/-- Poll until all is quiet and no response waits, at most so often, and count the signs of life. -/
def settle (turns : Nat) : (polls : Nat) → (alive : Nat) → BenchBootloader page →
    Progress (Nat × BenchBootloader page)
  | 0, alive, b => .done (alive, b)
  | polls + 1, alive, b =>
    match pollAndFeed turns b with
    | .waiting (_, b) => .waiting (alive, b)
    | .done (sign, b) =>
      let alive := if sign then alive + 1 else alive
      if quiet b.updater.link && b.updater.outbox.isEmpty then
        .done (alive, b)
      else
        settle turns polls alive b

end RadioBoot.Sim
