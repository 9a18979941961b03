import RadioBoot.Bootloader

/-!
# Boot events as lines of the log

The advertising interval is counted in units of 0.625 ms and shown in milliseconds with one place,
where a half goes to the even neighbour.
-/

namespace RadioBoot

/-- A quotient rounded to the nearest whole number; a half goes to the even one. -/
def roundHalfEven (num den : Nat) : Nat :=
  let q := num / den
  let r := num % den
  if 2 * r < den then q
  else if den < 2 * r then q + 1
  else q + q % 2

/-- Tenths as a number with one place. -/
def oneDecimal (tenths : Nat) : String := s!"{tenths / 10}.{tenths % 10}"

namespace BootEvent

/-- So many units of 0.625 ms, in tenths of a millisecond. -/
def intervalTenths (units : UInt16) : Nat := roundHalfEven (units.toNat * 25) 4

/-- The line that reports an event. -/
def line : BootEvent → Line
  | .started entry => .info s!"START | entry={entry.name}"
  | .connecting timeout interval =>
    let milliseconds := oneDecimal (intervalTenths interval)
    .info s!"LINK  | advertising timeout={timeout}s interval={milliseconds}ms"
  | .connected => .info "LINK  | connected"
  | .disconnected => .info "LINK  | disconnected"
  | .phaseChanged before after => .info s!"DFU   | {before.name} -> {after.name}"
  | .resetIssued => .info "RESET | system reset issued"

end BootEvent

end RadioBoot
