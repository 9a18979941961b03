/-!
# Program memory

Flash is written a page at a time. A region is any type with these calls, which may succeed or fail
as they like.
-/

namespace RadioBoot

/-- Why flash refused a call. -/
inductive FlashError where
  | outOfRange
  | eraseFailed
  | writeFailed
  | commitFailed
deriving DecidableEq, Repr

namespace FlashError

def message : FlashError → String
  | .outOfRange => "flash address out of range"
  | .eraseFailed => "page erase failed"
  | .writeFailed => "page program failed"
  | .commitFailed => "image commit failed"

end FlashError

/-- The calls of a region of flash. -/
class Flash (F : Type) where
  /-- The longest image that the region takes, in bytes. -/
  capacity : F → UInt32
  /-- Erase the page at `address` and write `page` there. -/
  program : F → (address : UInt32) → (page : List UInt8) → Except FlashError Unit × F
  /-- Make the image that has been written the one to start. -/
  commit : F → Except FlashError Unit × F

end RadioBoot
