import RadioBoot.Log

/-!
# Restarting the system

A restart is asked for once and for all. A type that can be asked keeps the request, so that it can
be seen afterwards.
-/

namespace RadioBoot

/-- What can be asked to restart the system. -/
class Restart (R : Type) where
  restart : R → Logged R

/-- A watchdog: it restarts the system on request, or when it has not been fed for too long. -/
structure Watchdog where
  /-- How often it has been fed. -/
  feeds : UInt32 := 0
  resetRequested : Bool := false
deriving DecidableEq, Repr

namespace Watchdog

/-- Start the countdown over. -/
def feed (w : Watchdog) : Watchdog := { w with feeds := w.feeds + 1 }

instance : Restart Watchdog where
  restart w := ⟨{ w with resetRequested := true }, [.info "Watchdog: restarting"]⟩

end Watchdog

end RadioBoot
