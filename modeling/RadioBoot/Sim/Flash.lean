import RadioBoot.Flash

/-!
# A simulated flash

A region that keeps the pages written to it, and fails where it is told to.
-/

namespace RadioBoot.Sim

/-- What a commit does. -/
inductive Commit where
  /-- Succeed, and leave no trace. -/
  | ignored
  /-- Be counted, and fail if there is an error. -/
  | counted (fault : Option FlashError)
deriving DecidableEq, Repr

/-- A region of flash. -/
structure Flash where
  capacity : UInt32
  /-- Addresses that can never be written. -/
  worn : List (UInt32 × FlashError) := []
  /-- Addresses whose next write fails; each entry is used up by one failure. -/
  glitches : List UInt32 := []
  onCommit : Commit := .counted none
  /-- The pages written, oldest first. -/
  pages : List (UInt32 × List UInt8) := []
  commits : Nat := 0
deriving DecidableEq

namespace Flash

/-- Write a page. A worn address fails first, then a page that ends beyond the capacity, then a
glitch. -/
def program (f : Flash) (address : UInt32) (page : List UInt8) : Except FlashError Unit × Flash :=
  match f.worn.lookup address with
  | some e => (.error e, f)
  | none =>
    if f.capacity.toNat < address.toNat + page.length then
      (.error .outOfRange, f)
    else if f.glitches.contains address then
      (.error .writeFailed, { f with glitches := f.glitches.erase address })
    else
      (.ok (), { f with pages := f.pages ++ [(address, page)] })

def commit (f : Flash) : Except FlashError Unit × Flash :=
  match f.onCommit with
  | .ignored => (.ok (), f)
  | .counted none => (.ok (), { f with commits := f.commits + 1 })
  | .counted (some e) => (.error e, { f with commits := f.commits + 1 })

instance : RadioBoot.Flash Flash where
  capacity := capacity
  program := program
  commit := commit

end Flash

end RadioBoot.Sim
