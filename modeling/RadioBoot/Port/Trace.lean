import RadioBoot.Port

/-!
# Traces of a port

The calls made on a port, in order and with their answers. Tracing a port changes none of them.
-/

namespace RadioBoot

namespace Port

/-- One call on a port, with its answer. -/
inductive Call where
  | exchange (out : UInt8) (reply : Except PortError UInt8)
  | isReady (answer : Bool)
  | setRequest (on : Bool)
  | pulseReset
  | delay (milliseconds : UInt32)

/-- A port together with the calls made on it. -/
structure Traced (P : Type) where
  port : P
  /-- The calls, newest first. -/
  past : List Call

namespace Traced

variable {P : Type}

/-- Nothing called yet. -/
def fresh (port : P) : Traced P := ⟨port, []⟩

/-- The calls in the order in which they were made. -/
def calls (t : Traced P) : List Call := t.past.reverse

/-- The port after one more call. -/
def after (t : Traced P) (call : Call) (port : P) : Traced P := ⟨port, call :: t.past⟩

@[simp] theorem calls_fresh (port : P) : (fresh port).calls = [] := rfl

@[simp] theorem calls_after (t : Traced P) (call : Call) (port : P) :
    (t.after call port).calls = t.calls ++ [call] := by
  simp [calls, after]

/-- Tracing changes no answer. -/
instance [Port P] : Port (Traced P) where
  exchange t out := (Port.exchange t.port out).map fun x ↦ (x.1, t.after (.exchange out x.1) x.2)
  isReady t := (Port.isReady t.port).map fun x ↦ (x.1, t.after (.isReady x.1) x.2)
  setRequest t on := (Port.setRequest t.port on).map (t.after (.setRequest on))
  pulseReset t := (Port.pulseReset t.port).map (t.after .pulseReset)
  delay t ms := (Port.delay t.port ms).map (t.after (.delay ms))

end Traced

end Port

end RadioBoot
