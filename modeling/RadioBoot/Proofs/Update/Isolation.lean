import RadioBoot.Proofs.Flash.Alike
import RadioBoot.Proofs.Update.Write
import RadioBoot.Sim.Faulty
import RadioBoot.Sim.Flash
import RadioBoot.Sim.Radio

/-!
# Only the writes decide what is flashed

An update has a session and a link beside its flash, and responses that wait for them.  None of this
ever gets to the flash: whatever the session, the link and the port are like and whatever becomes of
them between the writes of the central, the writes alone decide on the phase, the image and the
calls on the flash.

This is about two runs, but each of them can be looked at by itself.  `Transfer.views` is what the
writes do when there is nothing but the transfer and its flash, and a run of an updater shows just
that (`Updater.views_eq`), so that two runs over the same writes show the same
(`Updater.views_isolated`).
-/

namespace RadioBoot

variable {page : Nat} {P F R : Type}

/-- How an update looks: its phase, its image and the calls made on its flash so far. -/
structure View (page : Nat) where
  phase : Phase
  image : Image page
  calls : List Flash.Call

/-! ## The transfer alone -/

namespace Transfer

variable [Flash F]

def view (t : Transfer page) (flash : Flash.Traced F) : View page := ⟨t.phase, t.image, flash.calls⟩

/-- How a transfer looks after each of these writes. -/
def views (pipes : UpdatePipes) (t : Transfer page) (flash : Flash.Traced F) :
    List (UInt8 × List UInt8) → List (View page)
  | [] => []
  | w :: ws =>
    let x := t.take pipes flash w.1 w.2
    x.1.view x.2 :: x.1.views pipes x.2 ws

/-- Whether none of these writes, when it is reached, leads to a reset. -/
def staysUp (pipes : UpdatePipes) (t : Transfer page) (flash : Flash.Traced F) :
    List (UInt8 × List UInt8) → Bool
  | [] => true
  | w :: ws =>
    let x := t.take pipes flash w.1 w.2
    !pipes.resets t.phase w.1 w.2 && x.1.staysUp pipes x.2 ws

theorem length_views (pipes : UpdatePipes) (ws : List (UInt8 × List UInt8)) :
    ∀ (t : Transfer page) (flash : Flash.Traced F),
      (t.views pipes flash ws).length = ws.length := by
  induction ws with
  | nil => intro t flash; rfl
  | cons w ws ih => intro t flash; exact congrArg (· + 1) (ih _ _)

variable {F' : Type} [Flash F']

/-- Over flashes that behave alike, a write does the same. -/
theorem take_agree {Rel : F → F' → Prop} (b : Flash.Bisimulation Rel) {f : F} {f' : F'}
    (h : Rel f f') (pipes : UpdatePipes) (t : Transfer page) (pipe : UInt8) (data : List UInt8) :
    (t.take pipes f pipe data).1 = (t.take pipes f' pipe data).1 ∧
      Rel (t.take pipes f pipe data).2 (t.take pipes f' pipe data).2 := by
  rw [take, take]
  split
  · rename_i r s _
    have same := t.step_agree b h s r.data
    exact ⟨same.transfer, same.flash⟩
  · exact ⟨rfl, h⟩

section Traced

variable {Rel : Flash.Traced F → Flash.Traced F' → Prop} (b : Flash.Bisimulation Rel)
variable (calls : ∀ {f : Flash.Traced F} {f' : Flash.Traced F'}, Rel f f' → f.calls = f'.calls)
include b calls

/-- Over flashes that behave alike, a transfer looks the same after every write. -/
theorem views_agree (pipes : UpdatePipes) (ws : List (UInt8 × List UInt8)) :
    ∀ {f : Flash.Traced F} {f' : Flash.Traced F'}, Rel f f' → ∀ t : Transfer page,
      t.views pipes f ws = t.views pipes f' ws := by
  induction ws with
  | nil => intro f f' _ t; rfl
  | cons w ws ih =>
      intro f f' h t
      obtain ⟨transfer, flash⟩ := take_agree b h pipes t w.1 w.2
      rw [views, views, view, view, transfer, calls flash, ih flash]

omit calls in
theorem staysUp_agree (pipes : UpdatePipes) (ws : List (UInt8 × List UInt8)) :
    ∀ {f : Flash.Traced F} {f' : Flash.Traced F'}, Rel f f' → ∀ t : Transfer page,
      t.staysUp pipes f ws = t.staysUp pipes f' ws := by
  induction ws with
  | nil => intro f f' _ t; rfl
  | cons w ws ih =>
      intro f f' h t
      obtain ⟨transfer, flash⟩ := take_agree b h pipes t w.1 w.2
      rw [staysUp, staysUp, transfer, ih flash]

end Traced

end Transfer

/-! ## Runs -/

namespace Updater

/-- One call on an updater, or on what it shares with the rest of the machine. -/
inductive Call (P : Type) where
  | write (pipe : UInt8) (data : List UInt8)
  | flushResponses
  | /-- Anything becomes of the session and the link: events come in, pipes open and close, credit
    comes and goes, queues fill up, transfers fail. -/
    elsewhere (change : Session → Link P → Session × Link P)

namespace Call

/-- The session receives the next event. -/
def nextEvent [Port P] : Call P := .elsewhere fun session link ↦ (session.nextEvent link).2

/-- The write that a call is, if it is one. -/
def write? : Call P → Option (UInt8 × List UInt8)
  | .write pipe data => some (pipe, data)
  | _ => none

end Call

/-- The writes of a run. -/
def writes (calls : List (Call P)) : List (UInt8 × List UInt8) := calls.filterMap Call.write?

variable [Port P] [Flash F] [Restart R]

def call (turns : Nat) (u : Updater page P F R) : Call P → Progress (Updater page P F R)
  | .write pipe data => u.write turns pipe data
  | .flushResponses => .done u.flushResponses.2
  | .elsewhere change =>
    let x := change u.session u.link
    .done { u with session := x.1, link := x.2 }

/-- Whether none of the writes, when it is reached, leads to a reset. -/
def staysUp (turns : Nat) (u : Updater page P F R) : List (Call P) → Bool
  | [] => true
  | c :: cs =>
    !(c.write?.any fun w ↦ u.pipes.resets u.phase w.1 w.2) &&
      (u.call turns c).state.staysUp turns cs

/-- How an update looks after each of the writes, up to a call that is not over. -/
def views (turns : Nat) (u : Updater page P (Flash.Traced F) R) : List (Call P) → List (View page)
  | [] => []
  | c :: cs =>
    match u.call turns c with
    | .done v => (c.write?.map fun _ ↦ v.transfer.view v.flash).toList ++ v.views turns cs
    | .waiting _ => []

variable {turns : Nat}

/-- Which writes lead to a reset is up to the transfer. -/
theorem staysUp_eq (calls : List (Call P)) :
    ∀ u : Updater page P (Flash.Traced F) R,
      u.staysUp turns calls = u.transfer.staysUp u.pipes u.flash (writes calls) := by
  induction calls with
  | nil => intro u; rfl
  | cons c cs ih =>
      intro u
      cases c with
      | flushResponses => exact ih u.flushResponses.2
      | elsewhere change =>
          let x := change u.session u.link
          exact ih { u with session := x.1, link := x.2 }
      | write pipe data =>
          change (!u.pipes.resets u.phase pipe data &&
            (u.write turns pipe data).state.staysUp turns cs) =
              (!u.pipes.resets u.phase pipe data && _)
          cases resets : u.pipes.resets u.phase pipe data with
          | true => rfl
          | false =>
              obtain ⟨v, hv, takes⟩ := u.write_takes resets turns
              rw [hv, Progress.state_done, ih v, takes.transfer, takes.flash, takes.pipes]
              rfl

/-- A run shows what its writes do to the transfer alone. -/
theorem views_eq (calls : List (Call P)) :
    ∀ u : Updater page P (Flash.Traced F) R, u.staysUp turns calls = true →
      u.views turns calls = u.transfer.views u.pipes u.flash (writes calls) := by
  induction calls with
  | nil => intro u _; rfl
  | cons c cs ih =>
      intro u up
      obtain ⟨stays, up⟩ := Bool.and_eq_true_iff.mp up
      cases c with
      | flushResponses => exact ih u.flushResponses.2 up
      | elsewhere change =>
          let x := change u.session u.link
          exact ih { u with session := x.1, link := x.2 } up
      | write pipe data =>
          obtain ⟨v, hv, takes⟩ := u.write_takes (by simpa [Call.write?] using stays) turns
          have hcall : u.call turns (.write pipe data) = .done v := hv
          rw [hcall, Progress.state_done] at up
          rw [views, hcall]
          dsimp only [Call.write?, Option.map_some, Option.toList_some]
          rw [ih v up, takes.transfer, takes.flash, takes.pipes]
          rfl

/-- The link and the credit never matter for what is flashed.  Take two runs of new updaters with
the same pipes and the same receipt interval over flashes that behave alike, in which the central
makes the same writes and none of them, when it is reached, leads to a reset.  Then after every
write the phase, the image and the calls on the flash with their answers are the same in both,
whatever the sessions, the links, the ports and the restarts are, whatever becomes of session and
link between the writes and whenever responses are flushed; and all the writes are over. -/
theorem views_isolated {P' F' R' : Type} [Port P'] [Flash F'] [Restart R'] (pipes : UpdatePipes)
    (interval : UInt16) {flash : F} {flash' : F'} (alike : Flash.Alike flash flash')
    (session session' : Session) (link : Link P) (link' : Link P') (restart : R) (restart' : R')
    (turns turns' : Nat) (calls : List (Call P)) (calls' : List (Call P'))
    (same : writes calls = writes calls')
    (up : (fresh pipes interval session link (.fresh flash) restart :
      Updater page P (Flash.Traced F) R).staysUp turns calls = true) :
    let first : Updater page P (Flash.Traced F) R :=
      fresh pipes interval session link (.fresh flash) restart
    let second : Updater page P' (Flash.Traced F') R' :=
      fresh pipes interval session' link' (.fresh flash') restart'
    first.views turns calls = second.views turns' calls' ∧
      (first.views turns calls).length = (writes calls).length := by
  intro first second
  obtain ⟨Rel, b, h⟩ := alike
  have hfresh : Rel flash flash' ∧
      (Flash.Traced.fresh flash).calls = (Flash.Traced.fresh flash').calls := ⟨h, rfl⟩
  have hfirst := first.views_eq calls up
  -- none of the writes resets in the second run either, since that is up to the transfer as well
  have up' : second.staysUp turns' calls' = true := by
    rw [staysUp_eq, ← same, ← up, staysUp_eq]
    exact (Transfer.staysUp_agree b.traced pipes _ hfresh _).symm
  have hsecond := second.views_eq calls' up'
  refine ⟨?_, by rw [hfirst, Transfer.length_views]⟩
  rw [hfirst, hsecond, ← same]
  exact Transfer.views_agree b.traced And.right pipes _ hfresh _

open Sim in
/-- An image of three bytes is found valid both over a link that works and with no credit at all
over one that is full and about to fail, where responses pile up until they are dropped. -/
theorem views_isolated_no_credit :
    let asks : List (Call (Faulty Radio)) := .replicate 4 (.write 10 [7])
    let full : Link (Faulty Radio) :=
      [.empty, .empty, .empty].foldl (fun l f ↦ (l.send f).2) (.fresh ⟨{}, some (0, .bus)⟩)
    let calls : List (Call Radio) :=
      [.write 8 [3, 0, 0, 0], .nextEvent, .write 10 [3], .write 10 [7], .flushResponses,
        .write 10 [7], .write 10 [7], .write 10 [7], .write 8 [1, 2, 3], .write 10 [4]]
    let calls' : List (Call (Faulty Radio)) :=
      [.write 8 [3, 0, 0, 0], .write 10 [3]] ++ asks ++
        [.elsewhere fun _ _ ↦ (.fresh 0, full), .nextEvent, .write 8 [1, 2, 3], .write 10 [4]]
    let first : Updater 2 Radio (Flash.Traced Sim.Flash) Watchdog :=
      .fresh ⟨8, 9, 10⟩ 0 (.fresh 2) (.fresh {}) (.fresh { capacity := 16 }) {}
    let second : Updater 2 (Faulty Radio) (Flash.Traced Sim.Flash) Watchdog :=
      .fresh ⟨8, 9, 10⟩ 0 (.fresh 0) full (.fresh { capacity := 16 }) {}
    first.staysUp 0 calls = true ∧ first.views 0 calls = second.views 0 calls' ∧
      (second.views 0 calls').getLast?.map View.phase = some (.validated .valid) := by
  intro asks full calls calls' first second
  have up : first.staysUp 0 calls = true := by decide +kernel
  have same : writes calls = writes calls' := by decide +kernel
  have phase : (second.views 0 calls').getLast?.map View.phase = some (.validated .valid) := by
    decide +kernel
  exact ⟨up, (views_isolated ⟨8, 9, 10⟩ 0 (.refl ({ capacity := 16 } : Sim.Flash)) (.fresh 2)
    (.fresh 0) (.fresh ({} : Radio)) full ({} : Watchdog) ({} : Watchdog) 0 0 calls calls' same
    up).1, phase⟩

end Updater

end RadioBoot
