import RadioBoot.Bootloader
import RadioBoot.Proofs.Update.Shutdown

/-!
# One turn, over any port

Whatever the port does, a poll hears of one event at most.  Only a write to the update service
reaches the update (`act_of_reaches`), and everything else leaves it alone, and with it what can be
restarted and what has been told of restarts (`Rests`, `act_of_quiet`).  A write that is reached
finds room for a frame to send: if nothing waits to be received, then the poll that received the
write has made that room (`room_of_reached`).
-/

namespace RadioBoot

open Updater (SameUpdate)

/-- The write to the update service that an event reports, if it reports one. -/
def UpdatePipes.ownWrite? (p : UpdatePipes) : Event → Option (UInt8 × List UInt8)
  | .dataReceived pipe data => if p.owns pipe then some (pipe, data) else none
  | _ => none

namespace Bootloader

variable {page : Nat} {P F R : Type}

/-! ## What rests -/

/-- How many restarts have been told of. -/
def issued (b : Bootloader page P F R) : Nat := b.events.count .resetIssued

/-- Telling of anything else leaves that number as it is. -/
theorem issued_tell (b : Bootloader page P F R) (e : BootEvent) :
    (b.tell e).issued = b.issued + if e = .resetIssued then 1 else 0 := by
  simp only [issued, tell, List.count_append, List.count_singleton, beq_iff_eq]

/-- From `b` to `b'` the update, what can be restarted and what has been told of restarts are as
they were, and if nothing waited to be received, nothing does. -/
structure Rests (b b' : Bootloader page P F R) : Prop where
  update : SameUpdate b.updater b'.updater
  restart : b'.updater.restart = b.updater.restart
  issued : b'.issued = b.issued
  received : b.updater.link.rx.waiting = [] → b'.updater.link.rx.waiting = []

namespace Rests

variable {b b' b'' : Bootloader page P F R}

theorem refl (b : Bootloader page P F R) : Rests b b := ⟨.refl _, rfl, rfl, id⟩

theorem trans (h : Rests b b') (h' : Rests b' b'') : Rests b b'' :=
  ⟨h.update.trans h'.update, h'.restart.trans h.restart, h'.issued.trans h.issued,
    h'.received ∘ h.received⟩

theorem of_link {l : Link P} (h : b.updater.link.rx.waiting = [] → l.rx.waiting = []) :
    Rests b (b.withLink l) := ⟨⟨rfl, rfl, rfl⟩, rfl, rfl, h⟩

theorem note (h : Rests b b') (line : Line) : Rests b (b'.note line) := h.trans (.of_link id)

theorem tell (h : Rests b b') {e : BootEvent} (other : e ≠ .resetIssued) : Rests b (b'.tell e) :=
  h.trans ⟨.refl _, rfl, by rw [issued_tell, if_neg other]; rfl, id⟩

theorem phase (h : Rests b b') : b'.phase = b.phase := congrArg Transfer.phase h.update.transfer

end Rests

variable [Port P]

theorem rests_advertise (b : Bootloader page P F R) : Rests b b.advertise := by
  have hrx : (Session.connect b.updater.link b.config.connectTimeout
      b.config.advertisingInterval).2.rx = b.updater.link.rx :=
    b.updater.session.rx_order b.updater.link (.connect _ _)
  rw [advertise]
  generalize Session.connect b.updater.link b.config.connectTimeout b.config.advertisingInterval = x
    at hrx
  have hlink : Rests b (b.withLink x.2) := .of_link fun none ↦ by rw [hrx, none]
  rcases x with ⟨_ | _, l⟩
  · exact hlink.note _
  · exact hlink.tell (by simp)

theorem rests_start (b : Bootloader page P F R) (entry : Entry) : Rests b (b.start entry) := by
  unfold start
  refine .tell (.note ?_ _) (by simp)
  cases entry with
  | coldBoot => exact .of_link fun _ ↦ FrameRing.waiting_clear _
  | fromApplication =>
      have hrx : (Session.radioReset b.updater.link).2.rx = b.updater.link.rx :=
        b.updater.session.rx_order b.updater.link .radioReset
      generalize Session.radioReset b.updater.link = x at hrx
      have hlink : Rests b (b.withLink x.2) := .of_link fun none ↦ by rw [hrx, none]
      rcases x with ⟨_ | _, l⟩
      · exact hlink.note _
      · exact hlink

/-! ## Hearing of an event -/

/-- What a poll hears of, and the bootloader once it has heard: the responses that waited have been
sent as far as the link took them, and the session is up to date with the event. -/
def hear (b : Bootloader page P F R) : Option Event × Bootloader page P F R :=
  let u := b.updater.flushResponses.2
  let x := u.session.nextEvent u.link
  (x.1, { b with updater := { u with session := x.2.1, link := x.2.2 } })

theorem rests_hear (b : Bootloader page P F R) : Rests b b.hear.2 := by
  refine ⟨⟨rfl, rfl, rfl⟩, rfl, rfl, fun none ↦ ?_⟩
  exact (Session.rings_nextEvent ((Updater.rx_flushResponses b.updater).symm ▸ none)).1

/-- When something has been heard of, there is room for a frame to send. -/
theorem room_of_hear {b : Bootloader page P F R} (none : b.updater.link.rx.waiting = [])
    (some : b.hear.1.isSome = true) : b.hear.2.updater.link.tx.isFull = false :=
  Session.room_of_nextEvent ((Updater.rx_flushResponses b.updater).symm ▸ none) some

/-- The first write to the update service is noted. -/
def enter (b : Bootloader page P F R) : Bootloader page P F R :=
  if b.updating then b else { b.note entering with updating := true }

omit [Port P] in
theorem rests_enter (b : Bootloader page P F R) : Rests b b.enter := by
  rw [enter]
  split
  · exact .refl b
  · exact ⟨⟨rfl, rfl, rfl⟩, rfl, rfl, id⟩

omit [Port P] in
@[simp] theorem tx_enter (b : Bootloader page P F R) :
    b.enter.updater.link.tx = b.updater.link.tx := by
  rw [enter]
  split <;> rfl

/-- The write to the update service that the next poll reaches, if it reaches one. -/
def reached? (b : Bootloader page P F R) : Option (UInt8 × List UInt8) :=
  b.hear.1.bind b.updater.pipes.ownWrite?

/-- The bootloader as that write finds it. -/
def handed (b : Bootloader page P F R) : Bootloader page P F R := b.hear.2.enter

theorem rests_handed (b : Bootloader page P F R) : Rests b b.handed :=
  b.rests_hear.trans (rests_enter _)

/-- A write that is reached finds room for a frame to send. -/
theorem room_of_reached {b : Bootloader page P F R} (none : b.updater.link.rx.waiting = [])
    {w : UInt8 × List UInt8} (h : b.reached? = some w) :
    b.handed.updater.link.tx.isFull = false := by
  obtain ⟨e, he, _⟩ := Option.bind_eq_some_iff.mp h
  rw [handed, tx_enter]
  exact room_of_hear none (by rw [he]; rfl)

/-! ## Handling an event -/

variable [Flash F] [Restart R]

/-- An event that reports no write to the update service is acted on at once. -/
theorem handle_of_other (b : Bootloader page P F R) (turns : Nat) {e : Event}
    (other : b.updater.pipes.ownWrite? e = none) :
    ∃ alive b', b.handle turns e = .done (alive, b') ∧ Rests b b' := by
  unfold handle
  split
  · exact ⟨_, _, rfl, b.rests_advertise⟩
  · exact ⟨_, _, rfl, ((Rests.refl b).note _).trans (.of_link id)⟩
  · exact ⟨_, _, rfl, (Rests.refl b).note _⟩
  · split
    · exact ⟨_, _, rfl, (Rests.refl b).note _⟩
    · split
      · exact ⟨_, _, rfl, b.rests_advertise⟩
      · exact ⟨_, _, rfl, .refl b⟩
  · exact ⟨_, _, rfl, ((Rests.refl b).note _).tell (by simp)⟩
  · have hlost (line : Line) : Rests b ((b.note line).tell .disconnected) :=
      ((Rests.refl b).note line).tell (by simp)
    refine ⟨_, _, rfl, ?_⟩
    split
    · exact hlost _
    · exact (hlost _).trans (rests_advertise _)
  · exact ⟨_, _, rfl, .refl b⟩
  · exact ⟨_, _, rfl, .refl b⟩
  · split
    · rename_i owned
      simp [UpdatePipes.ownWrite?, owned] at other
    · exact ⟨_, _, rfl, (Rests.refl b).note _⟩
  · exact ⟨_, _, rfl, .refl b⟩

/-- A poll handles what it has heard of. -/
theorem poll_eq (b : Bootloader page P F R) (turns : Nat) :
    b.poll turns = b.hear.1.elim (.done (false, b.hear.2)) (b.hear.2.handle turns) := by
  rw [poll, hear]
  dsimp only
  generalize b.updater.flushResponses.2.session.nextEvent b.updater.flushResponses.2.link = x
  obtain ⟨_ | e, s, l⟩ := x <;> rfl

/-- A poll that reaches no write to the update service is over at once. -/
theorem poll_of_quiet {b : Bootloader page P F R} (h : b.reached? = none) (turns : Nat) :
    ∃ alive b', b.poll turns = .done (alive, b') ∧ Rests b b' := by
  rw [poll_eq]
  cases he : b.hear.1 with
  | none => exact ⟨_, _, rfl, b.rests_hear⟩
  | some e =>
      rw [reached?, he] at h
      obtain ⟨alive, b', hb', hrests⟩ := b.hear.2.handle_of_other turns h
      exact ⟨alive, b', hb', b.rests_hear.trans hrests⟩

/-- A poll that reaches a write hands it over. -/
theorem poll_of_reached {b : Bootloader page P F R} {pipe : UInt8} {data : List UInt8}
    (h : b.reached? = some (pipe, data)) (turns : Nat) :
    b.poll turns = (b.handed.feed turns pipe data).map (true, ·) := by
  obtain ⟨e, he, hw⟩ := Option.bind_eq_some_iff.mp h
  rw [poll_eq, he]
  unfold UpdatePipes.ownWrite? at hw
  split at hw
  · split at hw
    · rename_i owned
      obtain ⟨rfl, rfl⟩ := Prod.mk.inj (Option.some.inj hw)
      exact if_pos owned
    · exact absurd hw (by simp)
  · exact absurd hw (by simp)

/-- What is told of a write is whether it has led to another phase, and whether the phase that it
has led to is the last one. -/
theorem feed_done {b : Bootloader page P F R} {turns : Nat} {pipe : UInt8} {data : List UInt8}
    {v : Updater page P F R} (h : b.updater.write turns pipe data = .done v) :
    ∃ b', b.feed turns pipe data = .done b' ∧ b'.updater = v ∧
      b'.issued = b.issued + if v.phase = .terminated then 1 else 0 := by
  obtain ⟨b₁, hb₁, hupdater, hissued⟩ : ∃ b₁,
      ({ b with updater := v } : Bootloader page P F R) = b₁ ∧ b₁.updater = v ∧
        b₁.issued = b.issued := ⟨_, rfl, rfl, rfl⟩
  rw [feed, h]
  dsimp only
  rw [hb₁]
  obtain ⟨b₂, hb₂, hupdater₂, hissued₂⟩ : ∃ b₂, (if b₁.phase = b.phase then b₁
      else b₁.tell (.phaseChanged b.phase b₁.phase)) = b₂ ∧ b₂.updater = v ∧
        b₂.issued = b.issued := by
    refine ⟨_, rfl, ?_⟩
    split
    · exact ⟨hupdater, hissued⟩
    · refine ⟨hupdater, ?_⟩
      rw [issued_tell, if_neg (by simp), hissued, Nat.add_zero]
  have hphase : b₂.phase = v.phase := congrArg Updater.phase hupdater₂
  rw [hb₂, hphase]
  refine ⟨_, rfl, ?_, ?_⟩
  · split <;> exact hupdater₂
  · split
    · rw [issued_tell, if_pos rfl, hissued₂]
    · rw [hissued₂, Nat.add_zero]

/-! ## Runs -/

/-- What can happen to a bootloader. -/
inductive Action (P : Type) where
  | start (entry : Entry)
  | poll (turns : Nat)
  | /-- Meanwhile anything happens to the port. -/
    port (port : P)

def act (b : Bootloader page P F R) : Action P → Progress (Bootloader page P F R)
  | .start entry => .done (b.start entry)
  | .poll turns => (b.poll turns).map Prod.snd
  | .port port => .done (b.withLink { b.updater.link with port })

/-- One action after the other, as long as each of them is over. -/
def acts (b : Bootloader page P F R) : List (Action P) → Progress (Bootloader page P F R)
  | [] => .done b
  | a :: rest =>
    match b.act a with
    | .done b => b.acts rest
    | .waiting b => .waiting b

/-- What each action that is over leaves true, a run that is over leaves true. -/
theorem acts_induction {Inv : Bootloader page P F R → Prop}
    (act : ∀ {b b' a}, Inv b → b.act a = .done b' → Inv b') (actions : List (Action P)) :
    ∀ {b b' : Bootloader page P F R}, Inv b → b.acts actions = .done b' → Inv b' := by
  induction actions with
  | nil =>
      intro b b' h hb
      obtain rfl := Progress.done.inj hb
      exact h
  | cons a rest ih =>
      intro b b' h hb
      rw [acts] at hb
      split at hb
      · rename_i b₁ hb₁
        exact ih (act h hb₁) hb
      · exact absurd hb (by simp)

/-- A run that is not over has come to an action that is not over. -/
theorem exists_act_of_waiting {Inv : Bootloader page P F R → Prop}
    (act : ∀ {b b' a}, Inv b → b.act a = .done b' → Inv b') (actions : List (Action P)) :
    ∀ {b b' : Bootloader page P F R}, Inv b → b.acts actions = .waiting b' →
      ∃ b₁ a, Inv b₁ ∧ b₁.act a = .waiting b' := by
  induction actions with
  | nil =>
      intro b b' _ hb
      exact absurd hb (by simp [acts])
  | cons a rest ih =>
      intro b b' h hb
      rw [acts] at hb
      split at hb
      · rename_i b₁ hb₁
        exact ih (act h hb₁) hb
      · rename_i b₁ hb₁
        exact ⟨b, a, h, hb₁.trans hb⟩

/-- The write to the update service that an action reaches, if it reaches one. -/
def reaches (b : Bootloader page P F R) : Action P → Option (UInt8 × List UInt8)
  | .poll _ => b.reached?
  | _ => none

/-- An action that reaches no write is over at once. -/
theorem act_of_quiet {b : Bootloader page P F R} {a : Action P} (h : b.reaches a = none) :
    ∃ b', b.act a = .done b' ∧ Rests b b' := by
  cases a with
  | start entry => exact ⟨_, rfl, b.rests_start entry⟩
  | port port => exact ⟨_, rfl, .of_link id⟩
  | poll turns =>
      obtain ⟨alive, b', hb', hrests⟩ := poll_of_quiet h turns
      exact ⟨b', by rw [act, hb']; rfl, hrests⟩

/-- An action that reaches a write is a poll, and what it does is what the write does. -/
theorem act_of_reaches {b : Bootloader page P F R} {a : Action P} {pipe : UInt8}
    {data : List UInt8} (h : b.reaches a = some (pipe, data)) :
    b.reached? = some (pipe, data) ∧
      ∃ turns, a = .poll turns ∧ b.act a = b.handed.feed turns pipe data := by
  cases a with
  | start entry => exact absurd h (by simp [reaches])
  | port port => exact absurd h (by simp [reaches])
  | poll turns =>
      refine ⟨h, turns, rfl, ?_⟩
      rw [act, poll_of_reached h]
      cases b.handed.feed turns pipe data <;> rfl

end Bootloader

end RadioBoot
