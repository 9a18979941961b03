import RadioBoot.Proofs.Update.Step
import RadioBoot.Updater

/-!
# Writes and what they change

A write leads nowhere, to a step or to a reset (`Updater.write_eq`).  The step is taken by the
update alone, so that the phase, the image and the flash after a write are those that
`Transfer.take` says, whatever the session, the link and the outbox are like (`write_takes`); a
reset leaves the flash and the image as they are (`reset_transfer`).

`Run` collects the writes of a whole run.  Between two writes the rest of the machine may do
anything to the session, the link, the outbox and what can be restarted.
-/

namespace RadioBoot

/-- Where a write on a pipe leads in a phase: the request that it makes and the route of that. -/
def UpdatePipes.lead (p : UpdatePipes) (phase : Phase) (pipe : UInt8) (data : List UInt8) :
    Option (Request × Route) :=
  (p.classify pipe data).bind fun r ↦ (route phase r).map (r, ·)

/-- A write that would take the link down. -/
def UpdatePipes.resets (p : UpdatePipes) (phase : Phase) (pipe : UInt8) (data : List UInt8) :
    Bool :=
  (p.lead phase pipe data).map Prod.snd == some .reset

theorem UpdatePipes.lead_eq_some {p : UpdatePipes} {phase : Phase} {pipe : UInt8}
    {data : List UInt8} {r : Request} {way : Route} :
    p.lead phase pipe data = some (r, way) ↔
      p.classify pipe data = some r ∧ route phase r = some way := by
  simp only [lead, Option.bind_eq_some_iff, Option.map_eq_some_iff, Prod.mk.injEq]
  constructor
  · rintro ⟨r', hr, way', hway, rfl, rfl⟩
    exact ⟨hr, hway⟩
  · rintro ⟨hr, hway⟩
    exact ⟨r, hr, way, hway, rfl, rfl⟩

/-- What a write does to a transfer and to its flash.  One that leads nowhere or to a reset does
nothing to them. -/
def Transfer.take {page : Nat} {F : Type} [Flash F] (pipes : UpdatePipes) (t : Transfer page)
    (flash : F) (pipe : UInt8) (data : List UInt8) : Transfer page × F :=
  match pipes.lead t.phase pipe data with
  | some (r, .step s) => let x := t.step flash s r.data; (x.transfer, x.flash)
  | _ => (t, flash)

namespace Updater

variable {page : Nat} {P F R : Type} (u : Updater page P F R)

/-! ## What is outside of the transfer -/

/-- Two updaters that agree on the transfer, the flash and the pipes; all else may differ. -/
structure SameUpdate {P' R' : Type} (u : Updater page P F R) (v : Updater page P' F R') : Prop where
  transfer : v.transfer = u.transfer
  flash : v.flash = u.flash
  pipes : v.pipes = u.pipes

theorem SameUpdate.refl : SameUpdate u u := ⟨rfl, rfl, rfl⟩

theorem SameUpdate.trans {P' P'' R' R'' : Type} {u : Updater page P F R} {v : Updater page P' F R'}
    {w : Updater page P'' F R''} (h : SameUpdate u v) (h' : SameUpdate v w) : SameUpdate u w :=
  ⟨h'.transfer.trans h.transfer, h'.flash.trans h.flash, h'.pipes.trans h.pipes⟩

theorem SameUpdate.perform (e : Effect) : SameUpdate u (u.perform e) := by
  cases e with
  | log line => exact ⟨rfl, rfl, rfl⟩
  | openResponses => exact ⟨rfl, rfl, rfl⟩
  | respond m =>
      rw [Updater.perform, Updater.respond]
      split <;> exact ⟨rfl, rfl, rfl⟩

/-- Doing what a step asks for does not touch the update. -/
theorem SameUpdate.performAll (es : List Effect) :
    ∀ u : Updater page P F R, SameUpdate u (es.foldl Updater.perform u) := by
  induction es with
  | nil => intro u; exact .refl u
  | cons e es ih => intro u; exact (SameUpdate.perform u e).trans (ih _)

theorem SameUpdate.flushResponses [Port P] : SameUpdate u u.flushResponses.2 := ⟨rfl, rfl, rfl⟩

variable [Flash F]

/-- From `u` to `v` the update has taken a write, given by its pipe and its bytes; all else may
differ. -/
structure Takes {P' R' : Type} (u : Updater page P F R) (w : UInt8 × List UInt8)
    (v : Updater page P' F R') : Prop where
  transfer : v.transfer = (u.transfer.take u.pipes u.flash w.1 w.2).1
  flash : v.flash = (u.transfer.take u.pipes u.flash w.1 w.2).2
  pipes : v.pipes = u.pipes

theorem Takes.of_sameUpdate {P' P'' R' R'' : Type} {u : Updater page P F R}
    {v : Updater page P' F R'} {x : Updater page P'' F R''} {w : UInt8 × List UInt8}
    (h : SameUpdate u v) (hx : Takes v w x) : Takes u w x := by
  refine ⟨?_, ?_, hx.pipes.trans h.pipes⟩
  · rw [hx.transfer, h.transfer, h.flash, h.pipes]
  · rw [hx.flash, h.transfer, h.flash, h.pipes]

/-- What a write does to an update does not depend on anything else. -/
theorem Takes.sameUpdate {P' P₁ P₁' R' R₁ R₁' : Type} {u : Updater page P F R}
    {v : Updater page P' F R'} {u₁ : Updater page P₁ F R₁} {v₁ : Updater page P₁' F R₁'}
    {w : UInt8 × List UInt8} (h : SameUpdate u u₁) (hv : Takes u w v) (hv₁ : Takes u₁ w v₁) :
    SameUpdate v v₁ := by
  have hv₁ := hv₁.of_sameUpdate h
  exact ⟨hv₁.transfer.trans hv.transfer.symm, hv₁.flash.trans hv.flash.symm,
    hv₁.pipes.trans hv.pipes.symm⟩

/-- After a step the update is as the step leaves it. -/
theorem step_sameUpdate (s : Step) (data : List UInt8) :
    SameUpdate { u with
      transfer := (u.transfer.step u.flash s data).transfer
      flash := (u.transfer.step u.flash s data).flash } (u.step s data) :=
  .performAll _ _

variable [Port P] [Restart R]

/-! ## Writes -/

/-- A write leads nowhere, to a step or to a reset. -/
theorem write_eq (turns : Nat) (pipe : UInt8) (data : List UInt8) :
    u.write turns pipe data = match u.pipes.lead u.phase pipe data with
      | none => .done u
      | some (r, .step s) => .done (u.step s r.data).flushResponses.2
      | some (_, .reset) => (u.reset turns).mapDone fun u ↦ u.flushResponses.2 := by
  rw [write, UpdatePipes.lead]
  cases u.pipes.classify pipe data with
  | none => rfl
  | some r =>
      simp only [dispatch, Option.bind_some]
      cases route u.phase r with
      | none => rfl
      | some way => cases way <;> rfl

/-- Short of a reset, a write is over at once. -/
theorem write_takes {pipe : UInt8} {data : List UInt8}
    (stays : u.pipes.resets u.phase pipe data = false) (turns : Nat) :
    ∃ v, u.write turns pipe data = .done v ∧ Takes u (pipe, data) v := by
  have hphase : u.phase = u.transfer.phase := rfl
  rw [UpdatePipes.resets, hphase] at stays
  rw [write_eq, hphase]
  cases hlead : u.pipes.lead u.transfer.phase pipe data with
  | none => exact ⟨u, rfl, by rw [Transfer.take, hlead], by rw [Transfer.take, hlead], rfl⟩
  | some x =>
      obtain ⟨r, way⟩ := x
      cases way with
      | step s =>
          have hv := (step_sameUpdate u s r.data).trans (SameUpdate.flushResponses _)
          refine ⟨_, rfl, ?_, ?_, hv.pipes⟩
          · rw [Transfer.take, hlead]
            exact hv.transfer
          · rw [Transfer.take, hlead]
            exact hv.flash
      | reset =>
          rw [hlead] at stays
          exact absurd stays (by simp)

omit [Flash F] in
/-- A reset ends in a terminal phase, over or not, and leaves the image and the flash alone. -/
theorem reset_transfer (turns : Nat) :
    (u.reset turns).state.phase.isTerminal = true ∧
      (u.reset turns).state.transfer.image = u.transfer.image ∧
      (u.reset turns).state.flash = u.flash ∧ (u.reset turns).state.pipes = u.pipes := by
  have hdown := Transfer.image_moveTo (by decide : Phase.awaitingReset ≠ .idle) u.transfer
  rw [reset]
  split
  · refine ⟨?_, hdown, rfl, rfl⟩
    change (u.transfer.moveTo .awaitingReset).1.phase.isTerminal = true
    rw [Transfer.phase_moveTo]
    rfl
  · refine ⟨?_, ?_, rfl, rfl⟩
    · change ((u.transfer.moveTo .awaitingReset).1.moveTo .terminated).1.phase.isTerminal = true
      rw [Transfer.phase_moveTo]
      rfl
    · exact (Transfer.image_moveTo (by decide) _).trans hdown

end Updater

/-! ## Runs of writes -/

/-- One write of a run, seen from the update: the phase that it found, the request that it made, if
it was one, and the phase that it left. -/
structure Visit where
  before : Phase
  request : Option Request
  after : Phase
deriving DecidableEq

namespace Updater

variable {page : Nat} {P F R : Type} [Port P] [Flash F] [Restart R]

/-- `Run u visits v`: from `u`, the writes `visits` lead to `v`.  Meanwhile the rest of the machine
may do anything that does not touch the update. -/
inductive Run (u : Updater page P F R) : List Visit → Updater page P F R → Prop
  | start : Run u [] u
  | meanwhile {visits : List Visit} {v w : Updater page P F R} :
      Run u visits v → SameUpdate v w → Run u visits w
  | write {visits : List Visit} {v : Updater page P F R} (turns : Nat) (pipe : UInt8)
      (data : List UInt8) : Run u visits v →
        Run u (visits ++
            [⟨v.phase, v.pipes.classify pipe data, (v.write turns pipe data).state.phase⟩])
          (v.write turns pipe data).state

/-- What one write can do: nothing, the step that it is routed to, or a reset. -/
theorem write_cases {v w : Updater page P F R} {turns : Nat} {pipe : UInt8} {data : List UInt8}
    (hw : (v.write turns pipe data).state = w) :
    (w = v ∧ ∀ r, v.pipes.classify pipe data = some r → route v.phase r = none) ∨
    (∃ r s, v.pipes.classify pipe data = some r ∧ route v.phase r = some (.step s) ∧
      w.transfer = (v.transfer.step v.flash s r.data).transfer ∧
      w.flash = (v.transfer.step v.flash s r.data).flash) ∨
    (∃ opcode payload, v.pipes.classify pipe data = some (.control opcode payload)) ∧
      w.phase.isTerminal = true := by
  rw [write_eq] at hw
  split at hw
  · rename_i hlead
    refine .inl ⟨hw.symm, ?_⟩
    intro r hr
    rw [UpdatePipes.lead, hr] at hlead
    simpa using hlead
  · rename_i r s hlead
    obtain ⟨hr, hroute⟩ := UpdatePipes.lead_eq_some.mp hlead
    have hsame := (step_sameUpdate v s r.data).trans (SameUpdate.flushResponses _)
    exact .inr (.inl ⟨r, s, hr, hroute, hw ▸ hsame.transfer, hw ▸ hsame.flash⟩)
  · rename_i r hlead
    obtain ⟨hr, hroute⟩ := UpdatePipes.lead_eq_some.mp hlead
    obtain ⟨opcode, payload, rfl⟩ := control_of_route_reset hroute
    have hdown := (reset_transfer v turns).1
    refine .inr (.inr ⟨⟨opcode, payload, hr⟩, ?_⟩)
    cases hres : v.reset turns <;> rw [hres] at hdown hw <;> exact hw ▸ hdown

end Updater

end RadioBoot
