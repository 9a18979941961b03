import RadioBoot.Proofs.Update.Flush
import RadioBoot.Proofs.Update.Write

/-!
# Taking the link down

A reset asks for a disconnect, listens until the disconnect is reported, and then asks for a
restart.  The wait ends with any disconnect, also with one that nobody has asked for; but where
there is room for a frame to send, the request is accepted in the first turn, and so the disconnect
that ends the wait comes after it (`takesDown_of_reset`).  Who may reset is in `route_eq_reset_iff`.
-/

namespace RadioBoot

/-! ## Who may reset -/

/-- An update that can still go on is not over. -/
theorem Phase.ne_terminated {p : Phase} (live : p.isTerminal = false) : p ≠ .terminated := by
  rintro rfl
  exact absurd live (by decide)

/-- What leads to a reset is the request for one, or the request to activate a valid image. -/
theorem route_eq_reset_iff {phase : Phase} {r : Request} :
    route phase r = some .reset ↔ phase.isTerminal = false ∧
      ∃ opcode payload, r = .control opcode payload ∧
        (ControlOp.ofByte? opcode = some .systemReset ∨
          ControlOp.ofByte? opcode = some .activateAndReset ∧ phase = .validated .valid) := by
  constructor
  · intro h
    obtain ⟨opcode, payload, rfl⟩ := control_of_route_reset h
    have live := live_of_route h
    refine ⟨live, opcode, payload, rfl, ?_⟩
    simp only [route, live, Bool.false_eq_true, if_false] at h
    cases hop : ControlOp.ofByte? opcode with
    | none => simp [hop] at h
    | some op =>
        simp only [hop] at h
        unfold Route.ofControl at h
        split at h <;> simp only [Option.some.injEq, reduceCtorEq] at h
        · exact .inr ⟨rfl, rfl⟩
        · exact .inl rfl
  · rintro ⟨live, opcode, payload, rfl, hop | ⟨hop, rfl⟩⟩
    · simp only [route, live, Bool.false_eq_true, if_false, hop]
      cases phase with
      | validated verdict => cases verdict <;> rfl
      | _ => rfl
    · simp only [route, Phase.isTerminal, Bool.false_eq_true, if_false, hop]
      rfl

/-! ## Listening -/

namespace Session

/-- Not connected, with no pipe open and the whole budget to spend. -/
structure Down (s : Session) : Prop where
  connected : s.connected = false
  opened : s.opened = .empty
  closed : s.closed = .empty
  credit : s.available = s.total

/-- A disconnect leaves nothing of a connection. -/
theorem down_of_disconnected (s : Session) (radioStatus linkStatus : UInt8) :
    (s.apply (.disconnected radioStatus linkStatus)).value.Down := ⟨rfl, rfl, rfl, rfl⟩

variable {P : Type} [Port P]

/-- What is received next reports a disconnect. -/
def HangsUp (s : Session) (l : Link P) : Prop :=
  ∃ radioStatus linkStatus, (s.nextEvent l).1 = some (.disconnected radioStatus linkStatus)

/-- `Listens s l s' l'`: from `s` and `l`, events are received one after the other, and none of
them reports a disconnect. -/
inductive Listens : Session → Link P → Session → Link P → Prop
  | here (s : Session) (l : Link P) : Listens s l s l
  | turn {s s' : Session} {l l' : Link P} :
      ¬s.HangsUp l → Listens (s.nextEvent l).2.1 (s.nextEvent l).2.2 s' l' → Listens s l s' l'

variable {s s' : Session} {l l' : Link P}

/-- Whoever listens takes each frame as it comes in. -/
theorem Listens.rx (h : Listens s l s' l') (none : l.rx.waiting = []) : l'.rx.waiting = [] := by
  induction h with
  | here => exact none
  | turn _ _ ih => exact ih (rings_nextEvent none).1

/-- What reports a disconnect leaves the session down. -/
theorem HangsUp.down (h : s.HangsUp l) : (s.nextEvent l).2.1.Down := by
  obtain ⟨radioStatus, linkStatus, heard⟩ := h
  rcases s.nextEvent_cases l with ⟨hnone, _⟩ | ⟨_, e, _, _, hsome, hs⟩
  · rw [heard] at hnone
    exact absurd hnone (by simp)
  · rw [heard] at hsome
    obtain rfl := Option.some.inj hsome
    rw [hs]
    exact s.down_of_disconnected radioStatus linkStatus

end Session

namespace Updater

open Session (Listens)

variable {page : Nat} {P F R : Type} [Port P]

/-! ## The wait -/

/-- Ask for the disconnect, unless that has been taken. -/
def ask (requested : Bool) (s : Session) (l : Link P) : Bool × Session × Link P :=
  if requested then (true, s, l) else s.disconnect l Command.reasonTerminate

/-- A turn of the wait ends it, or leaves it to the other turns. -/
theorem awaitDisconnect_succ {requested : Bool} {s : Session} {l : Link P}
    {asked : Bool × Session × Link P} (ha : ask requested s l = asked) :
    asked.2.1.HangsUp asked.2.2 ∧ (∀ turns, awaitDisconnect (turns + 1) requested s l =
        .done (asked.2.1.nextEvent asked.2.2).2) ∨
      ¬asked.2.1.HangsUp asked.2.2 ∧ ∀ turns, awaitDisconnect (turns + 1) requested s l =
        awaitDisconnect turns asked.1 (asked.2.1.nextEvent asked.2.2).2.1
          (asked.2.1.nextEvent asked.2.2).2.2 := by
  have hasked : (if requested then (true, s, l) else
    s.disconnect l Command.reasonTerminate) = asked := ha
  by_cases heard : asked.2.1.HangsUp asked.2.2
  · refine .inl ⟨heard, fun turns ↦ ?_⟩
    obtain ⟨radioStatus, linkStatus, heard⟩ := heard
    rw [awaitDisconnect, hasked]
    dsimp only
    generalize asked.2.1.nextEvent asked.2.2 = x at heard
    obtain ⟨_, s', l'⟩ := x
    obtain rfl := heard
    rfl
  · refine .inr ⟨heard, fun turns ↦ ?_⟩
    rw [awaitDisconnect, hasked]
    dsimp only
    split
    · rename_i hx
      exact absurd ⟨_, _, congrArg Prod.fst hx⟩ heard
    · rename_i hx
      rw [hx]

/-- Once the request has been accepted, all that is left is to listen. -/
theorem awaitDisconnect_of_taken {s s₁ : Session} {l l₁ : Link P}
    (h : s.disconnect l Command.reasonTerminate = (true, s₁, l₁)) (turns : Nat) :
    awaitDisconnect (turns + 1) false s l = awaitDisconnect (turns + 1) true s₁ l₁ := by
  rw [awaitDisconnect, awaitDisconnect, h]
  rfl

/-- A wait that is over has listened up to the report of a disconnect. -/
theorem listens_of_awaitDisconnect (turns : Nat) :
    ∀ {s : Session} {l : Link P} {x : Session × Link P}, awaitDisconnect turns true s l = .done x →
      ∃ s₂ l₂, Listens s l s₂ l₂ ∧ s₂.HangsUp l₂ ∧ x = (s₂.nextEvent l₂).2 := by
  induction turns with
  | zero =>
      intro s l x h
      exact absurd h (by simp [awaitDisconnect])
  | succ turns ih =>
      intro s l x h
      rcases awaitDisconnect_succ (show ask true s l = (true, s, l) from rfl)
        with ⟨heard, hover⟩ | ⟨unheard, hover⟩
      · rw [hover] at h
        exact ⟨s, l, .here s l, heard, (Progress.done.inj h).symm⟩
      · rw [hover] at h
        obtain ⟨s₂, l₂, hlistens, hend⟩ := ih h
        exact ⟨s₂, l₂, .turn unheard hlistens, hend⟩

/-! ## The reset -/

/-- With no pipe open, no response can be sent. -/
theorem flushResponses_of_down {u : Updater page P F R} (h : u.session.Down) :
    u.flushResponses.2 = u := by
  have hclosed : u.session.isAvailable u.pipes.controlTx = false := by
    rw [Session.isAvailable, h.opened, PipeMap.contains_empty]
  rw [flushResponses, sendAll_of_quota (quota_eq_zero_iff.mpr (.inr (.inl hclosed)))]

/-- From `u` to `v` the link has been taken down and then a restart been asked for.  While the
update awaits the reset, the request to disconnect is accepted behind the frames that wait; then
events are received up to one that reports the disconnect, which leaves the session down. -/
inductive TakesDown [Restart R] (u v : Updater page P F R) : Prop
  | intro {s₁ s₂ : Session} {l₁ l₂ : Link P}
      (asked : (u.moveTo .awaitingReset).session.disconnect (u.moveTo .awaitingReset).link
        Command.reasonTerminate = (true, s₁, l₁))
      (queued : l₁.tx.waiting =
        u.link.tx.waiting ++ [(Command.disconnect Command.reasonTerminate).bytes])
      (listened : Listens s₁ l₁ s₂ l₂)
      (reported : s₂.HangsUp l₂)
      (session : v.session = (s₂.nextEvent l₂).2.1)
      (down : v.session.Down)
      (restarted : v.restart = (Restart.restart u.restart).value)
      (terminated : v.phase = .terminated)
      (received : u.link.rx.waiting = [] → v.link.rx.waiting = [])

/-- Where there is room for the request, a reset that is over has taken the link down first. -/
theorem takesDown_of_reset [Restart R] {u v : Updater page P F R} {turns : Nat}
    (room : u.link.tx.isFull = false)
    (h : (u.reset turns).mapDone (fun u ↦ u.flushResponses.2) = .done v) : TakesDown u v := by
  have hroom : (u.moveTo .awaitingReset).link.tx.isFull = false := room
  obtain ⟨-, l₁, hasked, htaken⟩ := ((u.moveTo .awaitingReset).session.disconnect_cases
    (u.moveTo .awaitingReset).link Command.reasonTerminate).resolve_left (by simp [hroom])
  cases turns with
  | zero => exact absurd h (by simp [reset, awaitDisconnect])
  | succ turns =>
      rw [reset] at h
      dsimp only at h
      rw [awaitDisconnect_of_taken hasked] at h
      generalize { (u.moveTo .awaitingReset).session with opened := .empty, closed := .empty } = s₁
        at hasked h
      cases hwait : awaitDisconnect (turns + 1) true s₁ l₁ with
      | waiting x => simp [hwait] at h
      | done x =>
          obtain ⟨s₂, l₂, hlistens, hend, hx⟩ := listens_of_awaitDisconnect _ hwait
          have hdown : x.1.Down := hx ▸ hend.down
          have hreceived (none : u.link.rx.waiting = []) : x.2.rx.waiting = [] := by
            rw [hx]
            have hnone : l₁.rx.waiting = [] := by rw [htaken.rx]; exact none
            exact (Session.rings_nextEvent (hlistens.rx hnone)).1
          have hsession := congrArg Prod.fst hx
          obtain ⟨s₃, l₃⟩ := x
          rw [hwait] at h
          simp only [Progress.mapDone_done, Progress.done.injEq] at h
          rw [flushResponses_of_down hdown] at h
          subst h
          exact ⟨hasked, htaken.waiting, hlistens, hend, hsession, hdown, rfl,
            Transfer.phase_moveTo _ _, hreceived⟩

/-! ## What a write comes to -/

omit [Port P] in
/-- Doing what a step asks for does not reach what can be restarted, nor what has been received. -/
theorem performAll_keeps (es : List Effect) :
    ∀ u : Updater page P F R, (es.foldl perform u).restart = u.restart ∧
      (es.foldl perform u).link.rx = u.link.rx := by
  induction es with
  | nil =>
      intro u
      exact ⟨rfl, rfl⟩
  | cons e es ih =>
      intro u
      have hfirst : (u.perform e).restart = u.restart ∧ (u.perform e).link.rx = u.link.rx := by
        cases e with
        | log line => exact ⟨rfl, rfl⟩
        | openResponses => exact ⟨rfl, rfl⟩
        | respond m =>
            rw [perform, respond]
            split <;> exact ⟨rfl, rfl⟩
      obtain ⟨hrestart, hrx⟩ := ih (u.perform e)
      exact ⟨hrestart.trans hfirst.1, hrx.trans hfirst.2⟩

@[simp] theorem rx_flushResponses (u : Updater page P F R) :
    u.flushResponses.2.link.rx = u.link.rx := by
  obtain ⟨link, hflush, hall⟩ := u.flushResponses_eq
  rw [hflush]
  exact hall.rx

/-- Over any port, responses are sent in order, and those that are not taken stay. -/
theorem waiting_flushResponses (u : Updater page P F R) :
    ∃ taken, u.outbox = taken ++ u.flushResponses.2.outbox ∧
      u.flushResponses.2.link.tx.waiting = u.link.tx.waiting ++
        taken.map fun m ↦ (response u.pipes.controlTx m).bytes := by
  obtain ⟨link, hflush, hall⟩ := u.flushResponses_eq
  have hwaiting := hall.waiting
  rw [List.map_map] at hwaiting
  rw [hflush]
  exact ⟨_, (List.take_append_drop _ _).symm, hwaiting⟩

/-- `Ends u pipe data x`: a write of `data` on `pipe` has come to `x`.  It is ignored, or a step is
taken, or the wait for the disconnect is not over, or a restart has been asked for; then there was
a request for it, and the link has been taken down if there was room to ask for that. -/
inductive Ends [Restart R] (u : Updater page P F R) (pipe : UInt8) (data : List UInt8) :
    Progress (Updater page P F R) → Prop
  | ignored : u.pipes.lead u.phase pipe data = none → Ends u pipe data (.done u)
  | stepped {v : Updater page P F R} :
      u.phase.isTerminal = false → v.phase.isTerminal = false → v.restart = u.restart →
      v.link.rx = u.link.rx → Ends u pipe data (.done v)
  | waits {v : Updater page P F R} :
      u.phase.isTerminal = false → v.restart = u.restart → Ends u pipe data (.waiting v)
  | reset {v : Updater page P F R} {opcode : UInt8} :
      u.phase.isTerminal = false →
      u.pipes.classify pipe data = some (.control opcode data) →
      (ControlOp.ofByte? opcode = some .systemReset ∨
        ControlOp.ofByte? opcode = some .activateAndReset ∧ u.phase = .validated .valid) →
      v.phase = .terminated → v.restart = (Restart.restart u.restart).value →
      (u.link.tx.isFull = false → TakesDown u v) → Ends u pipe data (.done v)

/-- Where nothing waits to be received and there is room to ask for the disconnect, nothing waits
after a write that is over. -/
theorem Ends.received [Restart R] {u v : Updater page P F R} {pipe : UInt8} {data : List UInt8}
    (h : Ends u pipe data (.done v)) (room : u.link.tx.isFull = false)
    (none : u.link.rx.waiting = []) : v.link.rx.waiting = [] := by
  cases h with
  | ignored _ => exact none
  | stepped _ _ _ hrx => exact hrx ▸ none
  | reset _ _ _ _ _ hdown =>
      obtain ⟨_, _, _, _, _, _, _, _, hreceived⟩ := hdown room
      exact hreceived none

/-- A reset that is over has asked for a restart. -/
theorem restart_of_reset [Restart R] {u v : Updater page P F R} {turns : Nat}
    (h : u.reset turns = .done v) :
    v.restart = (Restart.restart u.restart).value ∧ v.phase = .terminated := by
  rw [reset] at h
  dsimp only at h
  split at h
  · exact absurd h (by simp)
  · obtain rfl := Progress.done.inj h
    exact ⟨rfl, Transfer.phase_moveTo _ _⟩

/-- One that is not over has not. -/
theorem restart_of_waiting [Restart R] {u v : Updater page P F R} {turns : Nat}
    (h : u.reset turns = .waiting v) : v.restart = u.restart := by
  rw [reset] at h
  dsimp only at h
  split at h
  · obtain rfl := Progress.waiting.inj h
    rfl
  · exact absurd h (by simp)

/-- What a write comes to. -/
theorem ends_write [Flash F] [Restart R] (u : Updater page P F R) (turns : Nat) (pipe : UInt8)
    (data : List UInt8) : Ends u pipe data (u.write turns pipe data) := by
  rw [write_eq]
  split
  · rename_i hlead
    exact .ignored hlead
  · rename_i r s hlead
    have live := live_of_route (UpdatePipes.lead_eq_some.mp hlead).2
    obtain ⟨hrestart, hrx⟩ := performAll_keeps (u.transfer.step u.flash s r.data).effects
      { u with
        transfer := (u.transfer.step u.flash s r.data).transfer
        flash := (u.transfer.step u.flash s r.data).flash }
    refine .stepped live ?_ hrestart ((rx_flushResponses _).trans hrx)
    have hkept := (u.step_sameUpdate s r.data).trans (.flushResponses _)
    rw [phase, hkept.transfer]
    exact Transfer.live_step live u.flash s r.data
  · rename_i r hlead
    obtain ⟨hclass, hroute⟩ := UpdatePipes.lead_eq_some.mp hlead
    obtain ⟨live, opcode, payload, rfl, hop⟩ := route_eq_reset_iff.mp hroute
    have hdown (v : Updater page P F R) (room : u.link.tx.isFull = false) :
        (u.reset turns).mapDone (fun u ↦ u.flushResponses.2) = .done v → TakesDown u v :=
      takesDown_of_reset room
    cases hreset : u.reset turns with
    | waiting v =>
        have hkept := restart_of_waiting hreset
        exact .waits live hkept
    | done v =>
        obtain ⟨hasked, hend⟩ := restart_of_reset hreset
        rw [hreset] at hdown
        have hdata : payload = data := by
          unfold UpdatePipes.classify at hclass
          split at hclass
          · simp at hclass
          · split at hclass
            · split at hclass
              · simp at hclass
              · exact (Request.control.inj (Option.some.inj hclass)).2.symm
            · simp at hclass
        obtain rfl := hdata
        exact .reset live hclass hop hend hasked fun room ↦ hdown _ room rfl

end Updater

end RadioBoot
