import RadioBoot.Hex
import RadioBoot.Image
import RadioBoot.Log
import RadioBoot.Update.Route

/-!
# One update, seen from the flash

The part of an update that decides what is written: its phase, its image and the flash. A step
looks at nothing else, so neither the link nor the credit can change what is flashed; what it wants
done elsewhere it asks for in a list of effects.
-/

namespace RadioBoot

/-- What a step asks of its surroundings, besides flash. -/
inductive Effect where
  | log (line : Line)
  | respond (m : Message)
  /-- Take the response pipe for open, with credit enough for the responses of a start. -/
  | openResponses
deriving DecidableEq, Repr

/-- The phase and the image of an update. -/
@[ext] structure Transfer (page : Nat) where
  phase : Phase
  image : Image page
  /-- The receipt interval of an image until the central asks for another. -/
  interval : UInt16
deriving DecidableEq

/-- What a step leaves: the transfer, the flash, and what the step asks for, in order. -/
structure Stepped (page : Nat) (F : Type) where
  transfer : Transfer page
  flash : F
  effects : List Effect

namespace Transfer

/-! ## Lines of the log -/

def moved (before after : Phase) : Line := .info s!"DFU transition: {before.name} -> {after.name}"

def tooShort (bytes : Nat) : Line := .warn s!"DFU: image size packet too short ({bytes} bytes)"

def tooLong (len capacity : UInt32) : Line :=
  .warn s!"DFU: image of {len} bytes does not fit ({capacity} available)"

def announced (len : UInt32) : Line := .info s!"DFU: image size {len} bytes"

def receiving (len : UInt32) : Line := .info s!"DFU: receiving {len} byte image"

def afterEnd (bytes : Nat) : Line := .warn s!"DFU: {bytes} bytes after end of image"

def pastEnd (bytes : Nat) : Line := .warn s!"DFU: dropping {bytes} bytes past end of image"

def arrived (received pages : UInt32) : Line :=
  .info s!"DFU: image received ({received} bytes, {pages} pages)"

def writeFailed (address : UInt32) (e : FlashError) : Line :=
  .error s!"DFU: page write at 0x{Hex.upper 6 address.toNat} failed: {e.message}"

def incomplete (received len : UInt32) : Line :=
  .warn s!"DFU: validate with {received} of {len} bytes"

def commitFailed (e : FlashError) : Line := .error s!"DFU: image commit failed: {e.message}"

def receiptEvery (packets : UInt16) : Line := .info s!"DFU: receipt every {packets} packets"

def noInterval : Line := .warn "DFU: receipt request without interval"

def refused (phase : Phase) (procedure : UInt8) (result : ResultCode) : Line :=
  .warn s!"DFU: request 0x{Hex.upperByte procedure} refused in {phase.name} ({result.message})"

/-! ## Phases -/

variable {page : Nat}

/-- No update yet. -/
def fresh (page : Nat) (interval : UInt16) : Transfer page :=
  ⟨.idle, .fresh page interval, interval⟩

/-- Go on to a phase, which is logged unless it is the one already reached. Back in `idle` the image
is forgotten. -/
def moveTo (t : Transfer page) (next : Phase) : Transfer page × List Line :=
  if next = t.phase then
    (t, [])
  else
    ({ t with
        phase := next
        image := if next = .idle then .fresh page t.interval else t.image },
      [moved t.phase next])

/-- End a step in a phase, after the effects that led there. -/
def arrive {F : Type} (t : Transfer page) (next : Phase) (flash : F) (effects : List Effect) :
    Stepped page F :=
  let x := t.moveTo next
  ⟨x.1, flash, effects ++ x.2.map Effect.log⟩

/-! ## Steps -/

/-- Respond to a procedure. -/
def answer (op : ControlOp) (result : ResultCode) : Effect :=
  .respond (.response op.opcode result)

variable {F : Type} [Flash F]

/-- The image length arrives in the first four bytes of a packet. It must be at least one, and the
flash must have room for it. -/
def announceImage (t : Transfer page) (flash : F) (data : List UInt8) : Stepped page F :=
  match data with
  | a :: b :: c :: d :: _ =>
    let len := Word.ofBytes32 a b c d
    let capacity := Flash.capacity flash
    if len = 0 ∨ capacity < len then
      t.arrive .idle flash [.openResponses, .log (tooLong len capacity), answer .start .dataSize]
    else
      { t with image := t.image.start len }.arrive .ready flash
        [.openResponses, .log (announced len), answer .start .success]
  | _ =>
    t.arrive .idle flash [.openResponses, .log (tooShort data.length), answer .start .dataSize]

/-- A page could not be written: the transfer has failed. -/
def writeFails (t : Transfer page) (flash : F) (effects : List Effect) (e : FlashError) :
    Stepped page F :=
  t.arrive .failed flash
    (effects ++ [Effect.log (writeFailed t.image.pageAddress e),
      answer .receiveFirmware .operationFailed])

/-- With the last byte in, the last page is padded and written. -/
def complete (t : Transfer page) (flash : F) (effects : List Effect) : Stepped page F :=
  if t.image.isComplete then
    match t.image.finish flash with
    | (.error e, image, flash) => { t with image }.writeFails flash effects e
    | (.ok (), image, flash) =>
      { t with image }.arrive .receivingData flash
        (effects ++ [Effect.log (arrived image.received image.pagesWritten),
          answer .receiveFirmware .success])
  else
    t.arrive .receivingData flash effects

/-- A packet of firmware. Bytes past the end of the image are dropped, and a packet that starts
there fails the transfer. A receipt goes out when one is due. -/
def dataPacket (t : Transfer page) (flash : F) (data : List UInt8) : Stepped page F :=
  if t.image.isComplete then
    t.arrive .failed flash [.log (afterEnd data.length), answer .receiveFirmware .dataSize]
  else
    let n := min data.length t.image.remaining.toNat
    let cut : List Effect := if n < data.length then [.log (pastEnd (data.length - n))] else []
    match t.image.absorb flash (data.take n) with
    | (.error e, image, flash) => { t with image }.writeFails flash cut e
    | (.ok (), image, flash) =>
      let (due, image) := image.countPacket
      let receipt : List Effect := if due then [.respond (.receipt image.received)] else []
      { t with image }.complete flash (cut ++ receipt)

/-- An image is valid once all of it has arrived and the flash has committed to it. -/
def validate (t : Transfer page) (flash : F) : Stepped page F :=
  if t.image.isComplete then
    match Flash.commit flash with
    | (.ok (), flash) => t.arrive (.validated .valid) flash [answer .validate .success]
    | (.error e, flash) =>
      t.arrive (.validated .invalid) flash
        [.log (commitFailed e), answer .validate .operationFailed]
  else
    t.arrive (.validated .invalid) flash
      [.log (incomplete t.image.received t.image.len), answer .validate .crcError]

/-- A new receipt interval follows the opcode, in two bytes. -/
def setReceiptInterval (t : Transfer page) (flash : F) (payload : List UInt8) : Stepped page F :=
  match payload with
  | _ :: low :: high :: _ =>
    let interval := Word.ofBytes low high
    ⟨{ t with image := t.image.setInterval interval }, flash, [.log (receiptEvery interval)]⟩
  | _ => ⟨t, flash, [.log noInterval]⟩

/-- Take a step with the bytes of the write that led to it. -/
def step (t : Transfer page) (flash : F) (s : Step) (data : List UInt8) : Stepped page F :=
  match s with
  | .announceImage => t.announceImage flash data
  | .beginInit => t.arrive .receivingInit flash []
  | .initPacket => t.arrive .receivingInit flash [answer .receiveInit .success]
  | .beginTransfer => t.arrive .receivingData flash [.log (receiving t.image.len)]
  | .dataPacket => t.dataPacket flash data
  | .validate => t.validate flash
  | .setReceiptInterval => t.setReceiptInterval flash data
  | .reportImageSize => ⟨t, flash, [.respond (.imageSize t.image.received)]⟩
  | .refuse procedure result =>
    ⟨t, flash, [.log (refused t.phase procedure result), .respond (.response procedure result)]⟩

end Transfer

end RadioBoot
