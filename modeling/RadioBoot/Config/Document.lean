import RadioBoot.Config.Basic
import RadioBoot.Json

/-!
# A configuration as JSON

The text has every field under its name, in order. What is read may have them in any order, but
each of them once and within its range; it may break the rules of a valid configuration.
-/

namespace RadioBoot

namespace RadioPins

def fieldNames : List String := ["reqn", "rdyn", "mosi", "miso", "sck", "reset"]

def toList (p : RadioPins) : List UInt8 := [p.request, p.ready, p.mosi, p.miso, p.clock, p.reset]

def ofList? : List UInt8 → Option RadioPins
  | [request, ready, mosi, miso, clock, reset] =>
    some { request, ready, mosi, miso, clock, reset }
  | _ => none

end RadioPins

namespace UpdatePipes

def fieldNames : List String := ["packet_rx", "control_tx", "control_rx"]

def ofList? : List UInt8 → Option UpdatePipes
  | [packetRx, controlTx, controlRx] => some { packetRx, controlTx, controlRx }
  | _ => none

end UpdatePipes

namespace Config

def fieldNames : List String :=
  ["valid", "pins", "credit_total", "pipes", "conn_timeout", "adv_interval", "notify_interval"]

/-- An object of bytes. -/
def bytesText (names : List String) (bytes : List UInt8) : String :=
  Json.objectText (names.zip (bytes.map toString))

def toText (c : Config) : String :=
  Json.objectText <| fieldNames.zip
    [toString c.valid,
      bytesText RadioPins.fieldNames c.pins.toList,
      toString c.creditTotal,
      bytesText UpdatePipes.fieldNames c.pipes.toList,
      toString c.connectTimeout,
      toString c.advertisingInterval,
      toString c.receiptInterval]

/-- A record of bytes. -/
def bytes? (names : List String) (j : Json) : Option (List UInt8) :=
  (j.fields? names).bind fun fields ↦ fields.mapM Json.byte?

def ofJson? (j : Json) : Option Config := do
  match ← j.fields? fieldNames with
  | [valid, pins, credit, pipes, timeout, interval, receipt] =>
    return {
      valid := ← valid.bool?
      pins := ← (bytes? RadioPins.fieldNames pins).bind RadioPins.ofList?
      creditTotal := ← credit.byte?
      pipes := ← (bytes? UpdatePipes.fieldNames pipes).bind UpdatePipes.ofList?
      connectTimeout := ← timeout.word?
      advertisingInterval := ← interval.word?
      receiptInterval := ← receipt.word? }
  | _ => none

def ofText? (text : String) : Option Config := (Json.parse? text).bind ofJson?

end Config

end RadioBoot
