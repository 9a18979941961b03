import RadioBoot.Proofs.Bootloader.Turn
import RadioBoot.Proofs.Flash.Trace
import RadioBoot.Proofs.Restart.Trace
import RadioBoot.Sim.Flash
import RadioBoot.Sim.Radio

/-!
# One restart

Over any port, flash and start, as long as every wait for a disconnect is over, a restart is asked
for once at most: by the poll that ends the update, after it has taken the link down, and never
again (`restart_once`).  What is told of restarts is another matter.  It is decided by the phase
after a write, and so a restart is told of again with every write that comes in after it
(`issued_eq`).
-/

namespace RadioBoot.Bootloader

open Sim
open Updater (Ends SameUpdate TakesDown)

variable {page : Nat} {P F R : Type} [Port P] [Flash F] [Restart R]

/-! ## Writes -/

/-- What an action does that reaches a write: the write comes to something, and if that is over,
the restart is told of when the phase is the last one. -/
theorem act_of_write {b : Bootloader page P F R} {a : Action P} {pipe : UInt8} {data : List UInt8}
    (h : b.reaches a = some (pipe, data)) :
    (∃ v b', Ends b.handed.updater pipe data (.done v) ∧ b.act a = .done b' ∧ b'.updater = v ∧
        b'.issued = b.issued + if v.phase = .terminated then 1 else 0) ∨
      ∃ v, Ends b.handed.updater pipe data (.waiting v) ∧
        b.act a = .waiting { b.handed with updater := v } := by
  obtain ⟨_, turns, _, hact⟩ := act_of_reaches h
  have hends := b.handed.updater.ends_write turns pipe data
  cases hw : b.handed.updater.write turns pipe data with
  | done v =>
      rw [hw] at hends
      obtain ⟨b', hb', hupdater, hissued⟩ := feed_done hw
      rw [b.rests_handed.issued] at hissued
      exact .inl ⟨v, b', hends, hact.trans hb', hupdater, hissued⟩
  | waiting v =>
      rw [hw] at hends
      refine .inr ⟨v, hends, hact.trans ?_⟩
      rw [feed, hw]

/-! ## The end of an update -/

/-- Once the update is over, an action changes nothing about it. -/
theorem act_of_terminated {b : Bootloader page P F R} (h : b.phase = .terminated) (a : Action P) :
    ∃ b', b.act a = .done b' ∧ SameUpdate b.updater b'.updater ∧
      b'.updater.restart = b.updater.restart := by
  cases hw : b.reaches a with
  | none =>
      obtain ⟨b', hb', hrests⟩ := act_of_quiet hw
      exact ⟨b', hb', hrests.update, hrests.restart⟩
  | some w =>
      obtain ⟨pipe, data⟩ := w
      have hrests := b.rests_handed
      -- the only thing that can become of a write is that it is ignored
      have ended : b.handed.updater.phase.isTerminal = true := by
        rw [show b.handed.updater.phase = .terminated from hrests.phase.trans h]
        rfl
      rcases act_of_write hw with ⟨v, b', hends, hb', hv, _⟩ | ⟨v, hends, _⟩
      · cases hends with
        | ignored _ => exact ⟨b', hb', hv ▸ hrests.update, hv ▸ hrests.restart⟩
        | stepped live => exact absurd live (by simp [ended])
        | reset live => exact absurd live (by simp [ended])
      · cases hends with
        | waits live => exact absurd live (by simp [ended])

/-- Nor does any number of them. -/
theorem acts_of_terminated (actions : List (Action P)) :
    ∀ {b : Bootloader page P F R}, b.phase = .terminated →
      ∃ b', b.acts actions = .done b' ∧ SameUpdate b.updater b'.updater ∧
        b'.updater.restart = b.updater.restart := by
  induction actions with
  | nil =>
      intro b _
      exact ⟨b, rfl, .refl _, rfl⟩
  | cons a rest ih =>
      intro b h
      obtain ⟨b₁, hb₁, hsame, hrestart⟩ := act_of_terminated h a
      have hphase : b₁.phase = .terminated := (congrArg Transfer.phase hsame.transfer).trans h
      obtain ⟨b₂, hb₂, hsame₂, hrestart₂⟩ := ih hphase
      exact ⟨b₂, by rw [acts, hb₁]; exact hb₂, hsame.trans hsame₂, hrestart₂.trans hrestart⟩

/-! ## Requests for a restart -/

/-- Nothing waits to be received, and a restart has been asked for once if the update is over, and
else not at all. -/
structure Settled (b : Bootloader page P F (Restart.Traced R)) : Prop where
  received : b.updater.link.rx.waiting = []
  requests : b.updater.restart.requests = if b.phase = .terminated then 1 else 0

omit [Port P] [Flash F] [Restart R] in
theorem settled_iff {b : Bootloader page P F (Restart.Traced R)} :
    Settled b ↔ b.updater.link.rx.waiting = [] ∧
      b.updater.restart.requests = if b.updater.phase = .terminated then 1 else 0 :=
  ⟨fun h ↦ ⟨h.received, h.requests⟩, fun h ↦ ⟨h.1, h.2⟩⟩

omit [Port P] [Flash F] [Restart R] in
theorem Settled.rests {b b' : Bootloader page P F (Restart.Traced R)} (h : Settled b)
    (hb : Rests b b') : Settled b' :=
  ⟨hb.received h.received, by rw [hb.restart, hb.phase, h.requests]⟩

/-- `Resets b a b'`: from `b` to `b'`, the action `a` is a poll that reaches a request to reset, or
one to activate a valid image, and it takes the link down before it asks for a restart. -/
inductive Resets (b : Bootloader page P F (Restart.Traced R)) :
    Action P → Bootloader page P F (Restart.Traced R) → Prop
  | poll {turns : Nat} {pipe opcode : UInt8} {data : List UInt8}
      {b' : Bootloader page P F (Restart.Traced R)} :
      b.reached? = some (pipe, data) →
      b.updater.pipes.classify pipe data = some (.control opcode data) →
      (ControlOp.ofByte? opcode = some .systemReset ∨
        ControlOp.ofByte? opcode = some .activateAndReset ∧ b.phase = .validated .valid) →
      TakesDown b.handed.updater b'.updater → Resets b (.poll turns) b'

/-- An action that is over leaves things settled, and only one that resets asks for a restart. -/
theorem Settled.act {b b' : Bootloader page P F (Restart.Traced R)} {a : Action P} (h : Settled b)
    (ha : b.act a = .done b') :
    Settled b' ∧ (b'.updater.restart.requests = b.updater.restart.requests ∨ Resets b a b') := by
  cases hw : b.reaches a with
  | none =>
      obtain ⟨b₁, hb₁, hrests⟩ := act_of_quiet hw
      obtain rfl := Progress.done.inj (hb₁.symm.trans ha)
      exact ⟨h.rests hrests, .inl (by rw [hrests.restart])⟩
  | some w =>
      obtain ⟨pipe, data⟩ := w
      obtain ⟨hreached, turns, rfl, _⟩ := act_of_reaches hw
      have hrests := b.rests_handed
      rcases act_of_write hw with ⟨v, b₁, hends, hb₁, rfl, _⟩ | ⟨_, _, hb₁⟩
      · obtain rfl := Progress.done.inj (hb₁.symm.trans ha)
        obtain ⟨hnone, hcount⟩ := h.rests hrests
        have room := room_of_reached h.received hreached
        have hnone' := hends.received room hnone
        generalize hv : b₁.updater = v at hends hnone'
        rw [settled_iff, hv]
        rw [phase] at hcount
        cases hends with
        | ignored _ => exact ⟨⟨hnone', hcount⟩, .inl (by rw [hrests.restart])⟩
        | stepped live live' hrestart _ =>
            rw [if_neg (Phase.ne_terminated live)] at hcount
            rw [hrestart, hcount, if_neg (Phase.ne_terminated live')]
            exact ⟨⟨hnone', rfl⟩, .inl (by rw [← hrests.restart, hcount])⟩
        | reset live hclass hop hend hrestart hdown =>
            rw [if_neg (Phase.ne_terminated live)] at hcount
            refine ⟨⟨hnone', ?_⟩, .inr ?_⟩
            · rw [hrestart, Restart.Traced.requests_restart, hcount, if_pos hend]
            · rw [hrests.update.pipes] at hclass
              rw [show b.handed.updater.phase = b.phase from hrests.phase] at hop
              exact .poll hreached hclass hop (hv ▸ hdown room)
      · rw [hb₁] at ha
        exact absurd ha (by simp)

/-- A run that is over leaves things settled. -/
theorem Settled.acts (actions : List (Action P))
    {b b' : Bootloader page P F (Restart.Traced R)} (h : Settled b)
    (hb : b.acts actions = .done b') : Settled b' :=
  acts_induction (fun h ha ↦ (Settled.act h ha).1) actions h hb

omit [Port P] [Flash F] [Restart R] in
theorem settled_fresh (port : P) (flash : F) (restart : R) (config : Config) :
    Settled (fresh port flash (.fresh restart) config : Bootloader page P F (Restart.Traced R)) :=
  ⟨FrameRing.waiting_empty _ _, rfl⟩

/-- Whatever is started, polled for or done by the port, as long as each wait for a disconnect is
over, a restart is asked for once at most, and it has been asked for just when the update is over.
The action that asks for it is a poll that reaches a request to reset, or one to activate a valid
image, and it takes the link down before.  And once the update is over, no action changes the
phase, the image or the flash, nor asks for a restart. -/
theorem restart_once (port : P) (flash : F) (restart : R) (config : Config)
    (actions : List (Action P)) {b : Bootloader page P (Flash.Traced F) (Restart.Traced R)}
    (h : (fresh port (.fresh flash) (.fresh restart) config).acts actions = .done b) :
    b.updater.restart.requests ≤ 1 ∧
      (b.updater.restart.requests = 1 ↔ b.phase = .terminated) ∧
      (∀ a b', b.act a = .done b' →
        b'.updater.restart.requests ≠ b.updater.restart.requests → Resets b a b') ∧
      (b.phase = .terminated → ∀ later, ∃ b', b.acts later = .done b' ∧
        b'.updater.transfer = b.updater.transfer ∧ b'.updater.flash = b.updater.flash ∧
        b'.updater.restart = b.updater.restart) := by
  have hsettled := (settled_fresh port (Flash.Traced.fresh flash) restart config).acts actions h
  refine ⟨?_, ?_, ?_, ?_⟩
  · rw [hsettled.requests]
    split <;> simp
  · rw [hsettled.requests]
    split <;> simp [*]
  · intro a b' ha hasked
    exact (hsettled.act ha).2.resolve_left hasked
  · intro hend later
    obtain ⟨b', hb', hsame, hrestart⟩ := acts_of_terminated later hend
    exact ⟨b', hb', hsame.transfer, hsame.flash, hrestart⟩

/-- A radio that answers a request to disconnect, with a request to reset on the control point. -/
def resetting : Radio := ({ autoDisconnect := true } : Radio).pushData 10 [6]

/-- A reset that the radio goes along with is over after two turns of waiting, and has asked for
one restart. -/
theorem restart_once_resetting :
    ∃ b : Bootloader 2 Radio (Flash.Traced Sim.Flash) (Restart.Traced Watchdog),
      (fresh {} (.fresh { capacity := 16 }) (.fresh {}) .standard).acts
        [.start .coldBoot, .port resetting, .poll 2] = .done b ∧
        b.updater.restart.requests = 1 := by
  have finished : ((fresh {} (.fresh { capacity := 16 }) (.fresh {}) .standard :
      Bootloader 2 Radio (Flash.Traced Sim.Flash) (Restart.Traced Watchdog)).acts
        [.start .coldBoot, .port resetting, .poll 2]).isDone = true := by decide +kernel
  have ends : ((fresh {} (.fresh { capacity := 16 }) (.fresh {}) .standard :
      Bootloader 2 Radio (Flash.Traced Sim.Flash) (Restart.Traced Watchdog)).acts
        [.start .coldBoot, .port resetting, .poll 2]).state.phase = .terminated := by
    decide +kernel
  cases hb : (fresh {} (.fresh { capacity := 16 }) (.fresh {}) .standard :
      Bootloader 2 Radio (Flash.Traced Sim.Flash) (Restart.Traced Watchdog)).acts
        [.start .coldBoot, .port resetting, .poll 2] with
  | waiting b => exact absurd finished (by simp [hb, Progress.isDone])
  | done b =>
      rw [hb] at ends
      exact ⟨b, rfl, (restart_once _ _ _ _ _ hb).2.1.mpr ends⟩

/-! ## What is told of restarts -/

/-- Whether an action reaches a write once the update is over. -/
def isLate (b : Bootloader page P F R) (a : Action P) : Bool :=
  b.phase = .terminated && (b.reaches a).isSome

/-- How many writes of a run are reached once the update is over. -/
def lateWrites (b : Bootloader page P F R) : List (Action P) → Nat
  | [] => 0
  | a :: rest =>
    (b.isLate a).toNat +
      match b.act a with
      | .done b => b.lateWrites rest
      | .waiting _ => 0

/-- One action tells of the restart that it asks for, and if it is late, of one more. -/
theorem issued_act (b : Bootloader page P F (Restart.Traced R)) (a : Action P) :
    (b.act a).state.issued + b.updater.restart.requests =
      b.issued + (b.act a).state.updater.restart.requests + (b.isLate a).toNat := by
  cases hw : b.reaches a with
  | none =>
      obtain ⟨b', hb', hrests⟩ := act_of_quiet hw
      rw [isLate, hw, hb', Progress.state_done, hrests.issued, hrests.restart, Option.isSome_none,
        Bool.and_false, Bool.toNat_false, Nat.add_zero]
  | some w =>
      obtain ⟨pipe, data⟩ := w
      have hrests := b.rests_handed
      have hlate : (b.isLate a).toNat = if b.handed.updater.phase = .terminated then 1 else 0 := by
        rw [isLate, hw, show b.handed.updater.phase = b.phase from hrests.phase, Option.isSome_some,
          Bool.and_true]
        by_cases h : b.phase = .terminated <;> simp [h]
      rw [hlate]
      rcases act_of_write hw with ⟨v, b', hends, hb', hv, hissued⟩ | ⟨v, hends, hb'⟩
      · rw [hb', Progress.state_done, hissued, hv]
        cases hends with
        | ignored _ =>
            rw [hrests.restart]
            omega
        | stepped live live' hrestart _ =>
            rw [if_neg (Phase.ne_terminated live), if_neg (Phase.ne_terminated live'), hrestart,
              hrests.restart]
            omega
        | reset live _ _ hend hrestart _ =>
            rw [if_neg (Phase.ne_terminated live), if_pos hend, hrestart,
              Restart.Traced.requests_restart, hrests.restart]
            omega
      · have hissued : ({ b.handed with updater := v } :
            Bootloader page P F (Restart.Traced R)).issued = b.issued := hrests.issued
        rw [hb', Progress.state_waiting, hissued]
        cases hends with
        | waits live hrestart =>
            rw [if_neg (Phase.ne_terminated live), hrestart, hrests.restart, Nat.add_zero]

/-- So does a run, action by action. -/
theorem issued_acts (actions : List (Action P)) :
    ∀ b : Bootloader page P F (Restart.Traced R),
      (b.acts actions).state.issued + b.updater.restart.requests =
        b.issued + (b.acts actions).state.updater.restart.requests + b.lateWrites actions := by
  induction actions with
  | nil =>
      intro b
      rfl
  | cons a rest ih =>
      intro b
      have hfirst := b.issued_act a
      rw [acts, lateWrites]
      cases ha : b.act a with
      | waiting b' =>
          rw [ha] at hfirst
          exact hfirst
      | done b' =>
          have hrest := ih b'
          rw [ha, Progress.state_done] at hfirst
          dsimp only
          omega

/-- Whatever is started, polled for or done by the port, as many restarts have been told of as have
been asked for, and one more for each write that was reached after the update was over.  So it is
the same number just when there was no such write. -/
theorem issued_eq (port : P) (flash : F) (restart : R) (config : Config)
    (actions : List (Action P)) :
    let first : Bootloader page P F (Restart.Traced R) := fresh port flash (.fresh restart) config
    let last := (first.acts actions).state
    last.issued = last.updater.restart.requests + first.lateWrites actions ∧
      (last.issued = last.updater.restart.requests ↔ first.lateWrites actions = 0) := by
  intro first last
  have hcount : last.issued + 0 = 0 + last.updater.restart.requests + first.lateWrites actions :=
    issued_acts actions first
  omega

/-- A request to reset, and a second write once the update is over: one restart has been asked for,
and two have been told of. -/
theorem issued_twice :
    let run := (fresh {} { capacity := 16 } (.fresh {}) .standard :
      Bootloader 2 Radio Sim.Flash (Restart.Traced Watchdog)).acts
        [.start .coldBoot, .port resetting, .poll 2, .port resetting, .poll 2]
    run.isDone = true ∧ run.state.updater.restart.requests = 1 ∧ run.state.issued = 2 := by
  decide +kernel

end RadioBoot.Bootloader
