import RadioBoot.Board
import RadioBoot.Hex

/-!
# A simulated board

Parts that can be told to fail, and that keep a trace of every call made on them.
-/

namespace RadioBoot.Sim

/-- A board under test. -/
structure Board where
  /-- The names of the calls that fail. -/
  failing : List String := []
  /-- How the bus fails; a line always fails in the same way. -/
  busFault : BoardFault := .other
  /-- The level of the ready line. -/
  readyHigh : Bool := false
  /-- What the bus answers with, byte by byte; zero behind its end. -/
  reply : List UInt8 := []
  /-- The calls made, oldest first; one that failed is marked. -/
  trace : List String := []
deriving DecidableEq

namespace Board

/-- Trace a call by its name, marked if it fails. -/
def call (b : Board) (name : String) : Bool × Board :=
  let fails := b.failing.contains name
  (fails, { b with trace := b.trace ++ [if fails then name ++ "!" else name] })

/-- A call that has no answer. -/
def attempt (b : Board) (name : String) (fault : BoardFault) : Except BoardFault Unit × Board :=
  match b.call name with
  | (true, b) => (.error fault, b)
  | (false, b) => (.ok (), b)

def level (high : Bool) : String := if high then "high" else "low"

/-- Send a byte over the bus; both bytes are traced. -/
def transfer (b : Board) (out : UInt8) : Except BoardFault UInt8 × Board :=
  match b.call "spi" with
  | (true, b) => (.error b.busFault, b)
  | (false, b) =>
    let reply := b.reply.headD 0
    (.ok reply, { b with
      reply := b.reply.tail
      trace := b.trace ++ [Hex.bytes [out] ++ ">" ++ Hex.bytes [reply]] })

instance : RadioBoot.Board Board where
  driveRequest b high := b.attempt ("reqn " ++ level high) .other
  driveReset b high := b.attempt ("reset " ++ level high) .other
  readyIsLow b :=
    match b.attempt "rdyn read" .other with
    | (.error e, b) => (.error e, b)
    | (.ok (), b) => (.ok (!b.readyHigh), b)
  transfer := transfer
  flush b := b.attempt "flush" b.busFault
  waitMicros b n := (b.call s!"us {n}").2
  waitMillis b n := (b.call s!"ms {n}").2

end Board

end RadioBoot.Sim
