import RadioBoot.Flash

/-!
# Traces of a flash

The writes and commits made on a region of flash, in order and with their answers.  A traced region
answers as the region itself does, so that whatever happens to a flash can be read off the trace.
-/

namespace RadioBoot

namespace Flash

/-- One call that can change a region of flash, with its answer. -/
inductive Call where
  | program (address : UInt32) (page : List UInt8) (answer : Except FlashError Unit)
  | commit (answer : Except FlashError Unit)

/-- A write that has failed. -/
def Call.isFailedWrite : Call → Bool
  | .program _ _ (.error _) => true
  | _ => false

/-- A region of flash together with the calls made on it. -/
structure Traced (F : Type) where
  flash : F
  /-- The calls, newest first. -/
  past : List Call

namespace Traced

variable {F : Type}

/-- Nothing called yet. -/
def fresh (flash : F) : Traced F := ⟨flash, []⟩

/-- The calls in the order in which they were made. -/
def calls (t : Traced F) : List Call := t.past.reverse

/-- The region after one more call. -/
def after (t : Traced F) (call : Call) (flash : F) : Traced F := ⟨flash, call :: t.past⟩

@[simp] theorem calls_fresh (flash : F) : (fresh flash).calls = [] := rfl

@[simp] theorem calls_after (t : Traced F) (call : Call) (flash : F) :
    (t.after call flash).calls = t.calls ++ [call] := by
  simp [calls, after]

/-- Tracing changes no answer. -/
instance [Flash F] : Flash (Traced F) where
  capacity t := Flash.capacity t.flash
  program t address page :=
    let x := Flash.program t.flash address page
    (x.1, t.after (.program address page x.1) x.2)
  commit t :=
    let x := Flash.commit t.flash
    (x.1, t.after (.commit x.1) x.2)

/-- A write adds one call, whatever its answer. -/
theorem calls_program [Flash F] (t : Traced F) (address : UInt32) (page : List UInt8) :
    (Flash.program t address page).2.calls =
      t.calls ++ [.program address page (Flash.program t address page).1] :=
  calls_after _ _ _

/-- A commit adds one call, whatever its answer. -/
theorem calls_commit [Flash F] (t : Traced F) :
    (Flash.commit t).2.calls = t.calls ++ [.commit (Flash.commit t).1] :=
  calls_after _ _ _

end Traced

/-- The calls that write `pages` without a failure, from the page numbered `start` on. -/
def writes (page start : Nat) (pages : List (List UInt8)) : List Call :=
  pages.mapIdx fun k p ↦ .program (.ofNat ((start + k) * page)) p (.ok ())

@[simp] theorem writes_nil (page start : Nat) : writes page start [] = [] := rfl

@[simp] theorem writes_singleton (page start : Nat) (p : List UInt8) :
    writes page start [p] = [.program (.ofNat (start * page)) p (.ok ())] := rfl

/-- Pages written in two goes are numbered through. -/
theorem writes_append (page start : Nat) (ps qs : List (List UInt8)) :
    writes page start (ps ++ qs) = writes page start ps ++ writes page (start + ps.length) qs := by
  simp only [writes, List.mapIdx_append, Nat.add_assoc, Nat.add_comm ps.length]

end Flash

end RadioBoot
