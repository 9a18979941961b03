import RadioBoot.Flash

/-!
# A firmware image on its way into flash

The bytes of an image fill a page buffer, and each page is written as soon as it is full. The last,
partial page is padded with the value of erased flash. A page that could not be written stays in
the buffer and is tried again before the next byte.
-/

namespace RadioBoot

/-- The value of a byte of erased flash. -/
def erased : UInt8 := 0xFF

/-- How far an image has come, for pages of `page` bytes. -/
@[ext] structure Image (page : Nat) where
  /-- The length that was announced. -/
  len : UInt32
  /-- The bytes counted so far. -/
  received : UInt32
  /-- Where the next page goes. -/
  pageAddress : UInt32
  /-- The page buffer; bytes behind the buffered ones are left over from the page before. -/
  buffer : List UInt8
  /-- How many bytes of the buffer wait to be written. -/
  buffered : Nat
  pagesWritten : UInt32
  /-- Data packets counted since the interval was set, modulo 2¹⁶. -/
  packets : UInt16
  /-- How many packets there are to a receipt; none are sent for zero. -/
  interval : UInt16
  length_buffer : buffer.length = page
  buffered_le : buffered ≤ page
deriving DecidableEq

namespace Image

variable {page : Nat}

/-- Nothing announced and nothing received. -/
def fresh (page : Nat) (interval : UInt16) : Image page :=
  ⟨0, 0, 0, .replicate page erased, 0, 0, 0, interval, by simp, Nat.zero_le _⟩

/-- Start over with an image of `len` bytes, at the interval in force. -/
def start (img : Image page) (len : UInt32) : Image page :=
  { fresh page img.interval with len }

/-- The bytes still to come. -/
def remaining (img : Image page) : UInt32 := img.len - img.received

/-- Whether as many bytes have come as were announced. -/
def isComplete (img : Image page) : Bool := img.received == img.len

/-- Send a receipt every `interval` packets, counted from here. -/
def setInterval (img : Image page) (interval : UInt16) : Image page :=
  { img with interval, packets := 0 }

/-- Count a data packet, and say whether a receipt is due. -/
def countPacket (img : Image page) : Bool × Image page :=
  let packets := img.packets + 1
  (img.interval != 0 && packets % img.interval == 0, { img with packets })

/-- Put one more byte into a buffer that is not full, and count it. -/
def push (img : Image page) (b : UInt8) : Image page :=
  if h : img.buffered < page then
    { img with
      received := img.received + 1
      buffer := img.buffer.set img.buffered b
      buffered := img.buffered + 1
      length_buffer := by simp [img.length_buffer]
      buffered_le := h }
  else
    img

/-- Start the page after one that has been written. -/
def nextPage (img : Image page) : Image page :=
  { img with
    pageAddress := img.pageAddress + .ofNat page
    buffered := 0
    pagesWritten := img.pagesWritten + 1
    buffered_le := Nat.zero_le _ }

/-- Fill the buffer behind the buffered bytes with the value of erased flash. -/
def pad (img : Image page) : Image page :=
  { img with
    buffer := img.buffer.take img.buffered ++ .replicate (page - img.buffered) erased
    length_buffer := by
      have := img.length_buffer; have := img.buffered_le
      simp only [List.length_append, List.length_take, List.length_replicate]
      omega }

variable {F : Type} [Flash F]

/-- Write the page buffer. After a failure the image is as before. -/
def writePage (img : Image page) (flash : F) : Except FlashError Unit × Image page × F :=
  match Flash.program flash img.pageAddress img.buffer with
  | (.ok (), flash) => (.ok (), img.nextPage, flash)
  | (.error e, flash) => (.error e, img, flash)

/-- Write the page buffer if it is full. -/
def writeFull (img : Image page) (flash : F) : Except FlashError Unit × Image page × F :=
  if img.buffered = page then img.writePage flash else (.ok (), img, flash)

/-- Take in the bytes of a packet one after the other, and write each page that they fill. The
first write that fails ends it: the bytes up to the end of that page are counted, no later ones. -/
def absorb (img : Image page) (flash : F) :
    List UInt8 → Except FlashError Unit × Image page × F
  | [] => (.ok (), img, flash)
  | b :: rest =>
    match img.writeFull flash with
    | (.error e, img, flash) => (.error e, img, flash)
    | (.ok (), img, flash) =>
      match (img.push b).writeFull flash with
      | (.error e, img, flash) => (.error e, img, flash)
      | (.ok (), img, flash) => img.absorb flash rest

/-- Pad and write the last page, unless nothing is buffered. -/
def finish (img : Image page) (flash : F) : Except FlashError Unit × Image page × F :=
  if img.buffered = 0 then (.ok (), img, flash) else img.pad.writePage flash

end Image

end RadioBoot
