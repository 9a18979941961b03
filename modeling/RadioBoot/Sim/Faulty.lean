import RadioBoot.Port

/-! # A port with a fault to come -/

namespace RadioBoot.Sim

/-- A port on which one coming exchange fails. -/
structure Faulty (P : Type) where
  port : P
  /-- How many exchanges still pass before the one that fails, and how that one fails. -/
  fault : Option (Nat × PortError)

namespace Faulty

variable {P : Type}

/-- No fault to come. -/
def sound (port : P) : Faulty P := ⟨port, none⟩

/-- Pass an exchange on to the port behind. -/
def pass [Port P] (t : Faulty P) (out : UInt8) (fault : Option (Nat × PortError)) :
    Logged (Except PortError UInt8 × Faulty P) :=
  (Port.exchange t.port out).map fun x ↦ (x.1, ⟨x.2, fault⟩)

/-- The exchange that fails does not reach the port behind, and the fault is spent on it. -/
instance [Port P] : Port (Faulty P) where
  exchange t out :=
    match t.fault with
    | some (0, e) => .silent (.error e, ⟨t.port, none⟩)
    | some (n + 1, e) => t.pass out (some (n, e))
    | none => t.pass out none
  isReady t := (Port.isReady t.port).map fun x ↦ (x.1, ⟨x.2, t.fault⟩)
  setRequest t on := (Port.setRequest t.port on).map (⟨·, t.fault⟩)
  pulseReset t := (Port.pulseReset t.port).map (⟨·, t.fault⟩)
  delay t ms := (Port.delay t.port ms).map (⟨·, t.fault⟩)

end Faulty

end RadioBoot.Sim
