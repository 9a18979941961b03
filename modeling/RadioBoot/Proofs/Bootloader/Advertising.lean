import RadioBoot.Proofs.Bootloader.Reset

/-!
# Advertising

A radio that has restarted or has lost its central is told to advertise, and nobody tells it again:
a command that the link refused would be lost.  None is, whatever the port does and however many
responses wait.  Between two actions all that has come in has been received (`Listening`), so an
event that a poll hears of has come in during this poll, and the transfer that brought it in has
sent the oldest frame that waited.  That was after the responses had been sent, and so there is room
for the command (`advertises`).
-/

namespace RadioBoot

/-- What is told to be advertised: the timeout and the interval. -/
def BootEvent.connecting? : BootEvent → Option (UInt16 × UInt16)
  | .connecting timeout interval => some (timeout, interval)
  | _ => none

namespace Bootloader

open Sim
open Updater (Ends response)

variable {page : Nat} {P F R : Type}

/-- What has been told of advertising, oldest first. -/
def advertised (b : Bootloader page P F R) : List (UInt16 × UInt16) :=
  b.events.filterMap BootEvent.connecting?

theorem advertised_tell (b : Bootloader page P F R) (e : BootEvent) :
    (b.tell e).advertised = b.advertised ++ e.connecting?.toList := by
  rw [advertised, tell, List.filterMap_append, advertised]
  cases e <;> rfl

/-- From `b` to `b'` nothing has been told of advertising, and what is configured is as it was. -/
structure Quiet (b b' : Bootloader page P F R) : Prop where
  config : b'.config = b.config
  advertised : b'.advertised = b.advertised

namespace Quiet

variable {b b' b'' : Bootloader page P F R}

theorem trans (h : Quiet b b') (h' : Quiet b' b'') : Quiet b b'' :=
  ⟨h'.config.trans h.config, h'.advertised.trans h.advertised⟩

theorem tell (h : Quiet b b') {e : BootEvent} (other : e.connecting? = none) :
    Quiet b (b'.tell e) := by
  refine ⟨h.config, ?_⟩
  rw [advertised_tell, other, Option.toList_none, List.append_nil, h.advertised]

theorem of_updater (updater : Updater page P F R) : Quiet b { b with updater } := ⟨rfl, rfl⟩

end Quiet

theorem quiet_enter (b : Bootloader page P F R) : Quiet b b.enter := by
  rw [enter]
  split <;> exact ⟨rfl, rfl⟩

/-- Whether an event calls for advertising: the radio has started up or has been reset without an
error, or the central is gone and the update is not over. -/
def calls (b : Bootloader page P F R) : Event → Bool
  | .deviceStarted .standby false _ => true
  | .commandResponse command status =>
    status == Event.statusSuccess && command == Command.radioReset.opcode
  | .disconnected .. => !b.phase.isTerminal
  | _ => false

/-- What is told of an event that calls for advertising, before it is answered. -/
def told : Event → List BootEvent
  | .disconnected .. => [.disconnected]
  | _ => []

variable [Port P]

/-- With room for it, the command to advertise is taken. -/
theorem advertise_of_room {b : Bootloader page P F R} (room : b.updater.link.tx.isFull = false) :
    ∃ l, b.advertise = (b.withLink l).tell
        (.connecting b.config.connectTimeout b.config.advertisingInterval) ∧
      l.tx.waiting = b.updater.link.tx.waiting ++
        [(Command.connect b.config.connectTimeout b.config.advertisingInterval).bytes] := by
  obtain ⟨-, l, hconnect, htakes⟩ := (Session.connect_cases b.updater.link b.config.connectTimeout
    b.config.advertisingInterval).resolve_left (by simp [room])
  rw [advertise, hconnect]
  exact ⟨l, rfl, htakes.waiting⟩

theorem config_advertise (b : Bootloader page P F R) : b.advertise.config = b.config := by
  rw [advertise]
  split <;> rfl

theorem quiet_start (b : Bootloader page P F R) (entry : Entry) : Quiet b (b.start entry) := by
  unfold start
  refine .tell ?_ rfl
  cases entry with
  | coldBoot => exact .of_updater _
  | fromApplication =>
      dsimp only
      split <;> exact .of_updater _

/-- The responses are sent before an event is heard of, and then the oldest frame goes out. -/
theorem waiting_hear {b : Bootloader page P F R} (none : b.updater.link.rx.waiting = [])
    (some : b.hear.1.isSome = true) :
    ∃ sent, b.updater.outbox = sent ++ b.hear.2.updater.outbox ∧
      b.hear.2.updater.link.tx.waiting =
        (b.updater.link.tx.waiting ++
          sent.map fun m ↦ (response b.updater.pipes.controlTx m).bytes).tail := by
  obtain ⟨sent, hsplit, hflushed⟩ := b.updater.waiting_flushResponses
  have htx : b.hear.2.updater.link.tx = b.updater.flushResponses.2.link.tx.dequeue.2 :=
    (Session.rings_nextEvent ((Updater.rx_flushResponses b.updater).symm ▸ none)).2 some
  refine ⟨sent, hsplit, ?_⟩
  rw [htx, FrameRing.waiting_dequeue_snd, ← hflushed]

/-! ## Handling an event -/

variable [Flash F] [Restart R]

/-- An event that calls for advertising is answered with the command to advertise, and with nothing
else. -/
theorem handle_of_calls {b : Bootloader page P F R} {e : Event} (h : b.calls e = true)
    (turns : Nat) :
    ∃ b₁ : Bootloader page P F R, b.handle turns e = .done (false, b₁.advertise) ∧
      b₁.updater.link.tx = b.updater.link.tx ∧ b₁.updater.outbox = b.updater.outbox ∧
      b₁.config = b.config ∧ b₁.events = b.events ++ told e := by
  unfold calls at h
  split at h
  · exact ⟨b, rfl, rfl, rfl, rfl, (List.append_nil _).symm⟩
  · rename_i command status
    obtain ⟨rfl, rfl⟩ : status = Event.statusSuccess ∧ command = Command.radioReset.opcode := by
      simpa using h
    exact ⟨b, rfl, rfl, rfl, rfl, (List.append_nil _).symm⟩
  · rename_i radioStatus linkStatus
    refine ⟨(b.note (linkLost radioStatus linkStatus)).tell .disconnected, ?_, rfl, rfl, rfl, rfl⟩
    have live : b.phase.isTerminal = false := by simpa using h
    exact congrArg (fun b ↦ Progress.done (false, b)) (if_neg (Bool.eq_false_iff.mp live))
  · exact absurd h (by simp)

/-- A write to the update service leads to no advertising. -/
theorem quiet_feed (b : Bootloader page P F R) (turns : Nat) (pipe : UInt8) (data : List UInt8) :
    Quiet b (b.feed turns pipe data).state := by
  rw [feed]
  cases b.updater.write turns pipe data with
  | waiting updater => exact .of_updater updater
  | done updater =>
      have hwritten : Quiet b { b with updater } := .of_updater updater
      dsimp only [Progress.state_done]
      generalize ({ b with updater } : Bootloader page P F R) = b₁ at hwritten
      have hmoved : Quiet b
          (if b₁.phase = b.phase then b₁ else b₁.tell (.phaseChanged b.phase b₁.phase)) := by
        split
        · exact hwritten
        · exact hwritten.tell rfl
      generalize (if b₁.phase = b.phase then b₁ else b₁.tell (.phaseChanged b.phase b₁.phase)) = b₂
        at hmoved
      split
      · exact hmoved.tell rfl
      · exact hmoved

/-- Nor does any event that does not call for it. -/
theorem quiet_handle {b : Bootloader page P F R} {e : Event} (h : b.calls e = false)
    (turns : Nat) : Quiet b (b.handle turns e).state.2 := by
  unfold handle
  split
  · exact absurd h (by simp [calls])
  · exact .of_updater _
  · exact .of_updater _
  · split
    · exact .of_updater _
    · rename_i failed
      split
      · exact absurd h (by simp_all [calls])
      · exact .of_updater _
  · exact (Quiet.of_updater _).tell rfl
  · have ended : b.phase.isTerminal = true := by simpa [calls] using h
    dsimp only [Progress.state_done]
    split
    · exact (Quiet.of_updater _).tell rfl
    · rename_i live
      exact absurd ended live
  · exact .of_updater _
  · exact .of_updater _
  · split
    · rw [Progress.state_map]
      exact b.quiet_enter.trans (b.enter.quiet_feed _ _ _)
    · exact .of_updater _
  · exact .of_updater _

/-! ## Actions -/

/-- All that has come in has been received, and this is what is configured. -/
structure Listening (config : Config) (b : Bootloader page P F R) : Prop where
  received : b.updater.link.rx.waiting = []
  config : b.config = config

variable {config : Config}

omit [Port P] [Flash F] [Restart R] in
theorem listening_fresh (port : P) (flash : F) (restart : R) (config : Config) :
    Listening config (fresh port flash restart config : Bootloader page P F R) :=
  ⟨FrameRing.waiting_empty _ _, rfl⟩

/-- No action changes what is configured. -/
theorem config_act (b : Bootloader page P F R) (a : Action P) :
    (b.act a).state.config = b.config := by
  cases a with
  | start entry => exact (b.quiet_start entry).config
  | port port => rfl
  | poll turns =>
      rw [act, Progress.state_map, poll_eq]
      cases b.hear.1 with
      | none => rfl
      | some e =>
          change (b.hear.2.handle turns e).state.2.config = b.hear.2.config
          cases calls : b.hear.2.calls e with
          | false => exact (quiet_handle calls turns).config
          | true =>
              obtain ⟨b₁, hb₁, -, -, hconfig, -⟩ := handle_of_calls calls turns
              rw [hb₁]
              exact b₁.config_advertise.trans hconfig

/-- After an action that is over, all that has come in has been received. -/
theorem Listening.act {b b' : Bootloader page P F R} {a : Action P} (h : Listening config b)
    (ha : b.act a = .done b') : Listening config b' := by
  have hconfig := b.config_act a
  rw [ha] at hconfig
  refine ⟨?_, hconfig.trans h.config⟩
  cases hw : b.reaches a with
  | none =>
      obtain ⟨b₁, hb₁, hrests⟩ := act_of_quiet hw
      obtain rfl := Progress.done.inj (hb₁.symm.trans ha)
      exact hrests.received h.received
  | some w =>
      obtain ⟨pipe, data⟩ := w
      rcases act_of_write hw with ⟨v, b₁, hends, hb₁, rfl, _⟩ | ⟨_, _, hb₁⟩
      · obtain rfl := Progress.done.inj (hb₁.symm.trans ha)
        exact hends.received (room_of_reached h.received (act_of_reaches hw).1)
          (b.rests_handed.received h.received)
      · rw [hb₁] at ha
        exact absurd ha (by simp)

/-- The command to advertise is never lost: whatever is started, polled for or done by the port, as
long as each wait for a disconnect is over, nothing waits to be received between two actions, and a
poll that hears of an event that calls for advertising queues the command once, with the configured
timeout and interval, behind all that waits, and tells of it once.  No other poll tells of
advertising. -/
theorem advertises (port : P) (flash : F) (restart : R) (config : Config)
    (actions : List (Action P)) {b : Bootloader page P F R}
    (h : (fresh port flash restart config).acts actions = .done b) :
    b.updater.link.rx.waiting = [] ∧
      (∀ turns e, b.hear.1 = some e → b.calls e = true →
        ∃ sent b', b.poll turns = .done (false, b') ∧
          b.updater.outbox = sent ++ b'.updater.outbox ∧
          b'.updater.link.tx.waiting =
            (b.updater.link.tx.waiting ++
              sent.map fun m ↦ (response b.updater.pipes.controlTx m).bytes).tail ++
            [(Command.connect config.connectTimeout config.advertisingInterval).bytes] ∧
          b'.events = b.events ++ told e ++
            [.connecting config.connectTimeout config.advertisingInterval]) ∧
      ∀ turns, (∀ e, b.hear.1 = some e → b.calls e = false) →
        (b.poll turns).state.2.advertised = b.advertised := by
  have hlistening : Listening config b :=
    acts_induction Listening.act actions (listening_fresh port flash restart config) h
  refine ⟨hlistening.received, fun turns e he hcalls ↦ ?_, fun turns hcalls ↦ ?_⟩
  · have some : b.hear.1.isSome = true := by rw [he]; rfl
    obtain ⟨sent, hsplit, hsent⟩ := waiting_hear hlistening.received some
    obtain ⟨b₁, hb₁, htx, houtbox, hconfig, hevents⟩ := handle_of_calls (b := b.hear.2) hcalls turns
    obtain ⟨l, hadvertise, hqueued⟩ :=
      advertise_of_room (b := b₁) (htx ▸ room_of_hear hlistening.received some)
    have hconfig : b₁.config = config := hconfig.trans hlistening.config
    rw [hconfig] at hadvertise hqueued
    refine ⟨sent, b₁.advertise, ?_, ?_, ?_, ?_⟩
    · rw [poll_eq, he]
      exact hb₁
    · rw [hsplit, hadvertise, ← houtbox]
      rfl
    · rw [← hsent, ← htx, hadvertise]
      exact hqueued
    · rw [hadvertise]
      exact congrArg (· ++ _) hevents
  · rw [poll_eq]
    cases he : b.hear.1 with
    | none => rfl
    | some e => exact (quiet_handle (b := b.hear.2) (hcalls e he) turns).advertised

/-- Three commands to reset fill the ring, and then the radio reports that the central is gone: the
poll that hears of it takes the command to advertise. -/
theorem advertises_crowded :
    ∃ b b' : Bootloader 2 Radio Sim.Flash Watchdog,
      (fresh {} { capacity := 16 } {} .standard).acts [.start .fromApplication,
        .start .fromApplication, .start .fromApplication,
        .port ({} : Radio).pushDisconnected] = .done b ∧
      b.updater.link.tx.isFull = true ∧ b.poll 0 = .done (false, b') ∧
      b'.events = b.events ++ [.disconnected, .connecting 180 80] := by
  obtain ⟨b, hb, full, heard, calls⟩ : ∃ b : Bootloader 2 Radio Sim.Flash Watchdog,
      (fresh {} { capacity := 16 } {} .standard).acts [.start .fromApplication,
        .start .fromApplication, .start .fromApplication,
        .port ({} : Radio).pushDisconnected] = .done b ∧
      b.updater.link.tx.isFull = true ∧ b.hear.1 = some (.disconnected 0x03 0x13) ∧
      b.calls (.disconnected 0x03 0x13) = true :=
    ⟨_, rfl, by decide +kernel, by decide +kernel, rfl⟩
  obtain ⟨-, hcalls, -⟩ := advertises _ _ _ _ _ hb
  obtain ⟨sent, b', hpoll, -, -, hevents⟩ := hcalls 0 _ heard calls
  refine ⟨b, b', hb, full, hpoll, ?_⟩
  rw [hevents, List.append_assoc]
  rfl

end Bootloader

end RadioBoot
