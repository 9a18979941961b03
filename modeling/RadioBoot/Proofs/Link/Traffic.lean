import RadioBoot.Proofs.Link.Rings
import RadioBoot.Proofs.Link.Transfer

/-!
# Traffic on the link

Over a simulated radio, every frame on its way out is either waiting to be sent or recorded, and
everything on its way in is either waiting to be received or pending at the radio (`Link.outgoing`,
`Link.incoming`).  Whatever the link does, it moves frames along these two lines and nothing else:
`Moves` says which frames have come in at one end and left at the other, and `Queues` is the move
that only puts frames behind those that wait to be sent.  There is one lemma for each operation, and
moves are put together with `Moves.trans`.
-/

namespace RadioBoot

open Sim

namespace Sim.Radio

/-- Up to the request line and the waits, the same radio. -/
def Aside (r r' : Radio) : Prop :=
  r' = { r with request := r'.request, requestEdges := r'.requestEdges, delays := r'.delays }

namespace Aside

variable {r r' r'' : Radio}

theorem refl (r : Radio) : Aside r r := rfl

theorem trans (h : Aside r r') (h' : Aside r' r'') : Aside r r'' := by
  rw [Aside, h', h]

theorem pending (h : Aside r r') : r'.pending = r.pending := by rw [h]

theorem sent (h : Aside r r') : r'.sent = r.sent := by rw [h]

theorem settings (h : Aside r r') : r'.settings = r.settings := by rw [h]; rfl

theorem calm (h : Aside r r') (hr : r.Calm) : r'.Calm := by
  rw [h]
  exact ⟨hr.busFault, hr.clocked⟩

end Aside

variable {r r' : Radio}

/-- The frames of a transfer do not depend on the request line. -/
theorem Aside.exchanged (h : Aside r r') (frames : List (List UInt8)) :
    Aside (r.exchanged frames) (r'.exchanged frames) := by
  rw [h]
  rfl

/-- Between transfers, the request line is all that driving it changes. -/
theorem Calm.drive {r : Radio} (h : r.Calm) (on : Bool) : Aside r (r.drive on).value := by
  obtain ⟨_, hclocked⟩ := h
  cases r with
  | mk _ _ request _ _ clocked =>
      obtain rfl : clocked = [] := hclocked
      cases on <;> cases request <;> rfl

/-- Letting go of the request line ends a transfer. -/
theorem drive_underway (r : Radio) {out : Frame} (fits : out.len.toNat ≤ maxPayload)
    (announced : UInt8) :
    Aside (r.exchanged (if out.isEmpty then [] else [out.bytes]))
      ((r.underway (Link.clockedOut out announced)).drive false).value := by
  rw [← r.finish_eq fits announced]
  rfl

/-- A frame that was heard of an event is empty just when the event is not heard. -/
theorem toList_heard? {f : Frame} {event : List UInt8} (h : f.bytes = heard event) :
    (heard? event).toList = if f.isEmpty then [] else [f.bytes] := by
  have hlen : f.len = .ofNat (min (event.headD 0).toNat maxPayload) := (List.cons.inj h).1
  have hzero : f.isEmpty = true ↔ event.headD 0 = 0 := by
    rw [Frame.isEmpty, decide_eq_true_eq, hlen, ← UInt8.toNat_inj, ← UInt8.toNat_inj,
      UInt8.toNat_ofNat_of_lt' (Nat.lt_of_le_of_lt (Nat.min_le_right _ _) (by decide))]
    simp only [maxPayload, UInt8.toNat_zero]
    omega
  rw [heard?]
  split
  · rename_i zero
    rw [if_pos (hzero.mpr zero)]
    rfl
  · rename_i nonzero
    rw [if_neg (fun empty ↦ nonzero (hzero.mp empty)), h]
    rfl

end Sim.Radio

namespace Link

variable {l l' l'' : Link Radio}

/-- The frames that have been sent and those that still wait, oldest first. -/
def outgoing (l : Link Radio) : List (List UInt8) := l.port.sent ++ l.tx.waiting

/-- What is still to be received, oldest first: the frames that wait, and what will be heard of the
events that the radio has pending. -/
def incoming (l : Link Radio) : List (List UInt8) :=
  l.rx.waiting ++ l.port.pending.filterMap Radio.heard?

/-- Between transfers, on a bus that works, with nothing but whole frames on the way out. -/
structure Sound (l : Link Radio) : Prop where
  calm : l.port.Calm
  sendable : ∀ bs ∈ l.outgoing, Frame.Sendable bs

/-- From `l` to `l'` the link has taken the frames `queued` to send and given up the frames
`returned`; the radio has recorded the frames `recorded`, and its answers to them are on their way
in. -/
structure Moves (l : Link Radio) (queued recorded returned : List (List UInt8)) (l' : Link Radio) :
    Prop where
  sent : l'.port.sent = l.port.sent ++ recorded
  waiting : recorded ++ l'.tx.waiting = l.tx.waiting ++ queued
  incoming : returned ++ l'.incoming =
    l.incoming ++ (recorded.flatMap l.port.answersTo).filterMap Radio.heard?
  settings : l'.port.settings = l.port.settings
  calm : l'.port.Calm

namespace Moves

variable {queued queued' recorded recorded' returned returned' : List (List UInt8)}

theorem refl (h : l.port.Calm) : Moves l [] [] [] l := by
  refine ⟨?_, ?_, ?_, rfl, h⟩ <;> simp

theorem trans (h : Moves l queued recorded returned l')
    (h' : Moves l' queued' recorded' returned' l'') :
    Moves l (queued ++ queued') (recorded ++ recorded') (returned ++ returned') l'' := by
  have hans : l'.port.answersTo = l.port.answersTo := Radio.answersTo_congr h.settings
  refine ⟨?_, ?_, ?_, h'.settings.trans h.settings, h'.calm⟩
  · rw [h'.sent, h.sent, List.append_assoc]
  · rw [List.append_assoc, h'.waiting, ← List.append_assoc, h.waiting, List.append_assoc]
  · rw [List.append_assoc, h'.incoming, hans, ← List.append_assoc, h.incoming, List.append_assoc,
      List.flatMap_append, List.filterMap_append]

/-- What comes in at the near end comes out at the far end. -/
theorem outgoing (h : Moves l queued recorded returned l') :
    l'.outgoing = l.outgoing ++ queued := by
  rw [Link.outgoing, h.sent, List.append_assoc, h.waiting, ← List.append_assoc, Link.outgoing]

theorem sound (h : Moves l queued recorded returned l') (hl : l.Sound)
    (hq : ∀ bs ∈ queued, Frame.Sendable bs) : l'.Sound := by
  constructor
  · exact h.calm
  · intro bs hbs
    rw [h.outgoing, List.mem_append] at hbs
    rcases hbs with hbs | hbs
    · exact hl.sendable bs hbs
    · exact hq bs hbs

end Moves

/-- From `l` to `l'` the frames `queued` have been put behind those that wait to be sent, and at
most the request line has been driven. -/
structure Queues (l : Link Radio) (queued : List (List UInt8)) (l' : Link Radio) : Prop where
  port : l.port.Aside l'.port
  tx : l'.tx.waiting = l.tx.waiting ++ queued
  rx : l'.rx = l.rx

namespace Queues

variable {queued queued' : List (List UInt8)}

theorem refl (l : Link Radio) : Queues l [] l := ⟨.refl _, by simp, rfl⟩

theorem trans (h : Queues l queued l') (h' : Queues l' queued' l'') :
    Queues l (queued ++ queued') l'' :=
  ⟨h.port.trans h'.port, by rw [h'.tx, h.tx, List.append_assoc], h'.rx.trans h.rx⟩

theorem moves (h : Queues l queued l') (hl : l.port.Calm) : Moves l queued [] [] l' := by
  refine ⟨?_, ?_, ?_, h.port.settings, h.port.calm hl⟩
  · rw [h.port.sent, List.append_nil]
  · rw [h.tx, List.nil_append]
  · simp [Link.incoming, h.rx, h.port.pending]

end Queues

/-! ## Calls on the port -/

theorem queues_setRequest (h : l.port.Calm) (on : Bool) : Queues l [] (l.setRequest on) :=
  ⟨h.drive on, by simp, rfl⟩

theorem queues_delay (l : Link Radio) (ms : UInt32) : Queues l [] (l.delay ms) :=
  ⟨rfl, by simp, rfl⟩

theorem queues_notes (l : Link Radio) (lines : List Line) : Queues l [] (l.notes lines) :=
  ⟨rfl, by simp, rfl⟩

theorem queues_note (l : Link Radio) (line : Line) : Queues l [] (l.note line) :=
  ⟨rfl, by simp, rfl⟩

theorem queues_announce (h : l.port.Calm) : Queues l [] l.announce := by
  rw [announce]
  split
  · exact queues_setRequest h true
  · exact .refl l

/-! ## Operations -/

/-- A frame that is accepted waits behind the others, and one that is refused changes nothing. -/
theorem queues_send (h : l.port.Calm) (f : Frame) :
    Queues l (if (l.send f).1 then [f.bytes] else []) (l.send f).2 := by
  refine ⟨?_, l.waiting_send f, l.rx_send f⟩
  rcases l.send_cases f with ⟨-, hsend⟩ | ⟨-, -, hsend⟩ | ⟨-, -, hsend⟩ <;> rw [hsend]
  · exact .refl _
  · exact .refl _
  · dsimp only
    split
    · exact .refl _
    · exact h.drive true

/-- Of the frames that declare something, only those that fit are accepted. -/
theorem sendable_of_accepted {f : Frame} (declares : f.isEmpty = false) {bs : List UInt8}
    (h : bs ∈ if (l.send f).1 then [f.bytes] else []) : Frame.Sendable bs := by
  by_cases long : maxPayload < f.len.toNat
  · rw [send, if_pos long] at h
    exact absurd h (by simp)
  · split at h
    · obtain rfl := List.mem_singleton.mp h
      exact ⟨f, rfl, declares, Nat.le_of_not_lt long⟩
    · exact absurd h (by simp)

/-- A transfer takes the oldest waiting frame, or an empty one, and ends with what was heard of the
oldest event. -/
theorem transfer_eq (h : l.port.Calm) (fits : (l.tx.dequeue.1.getD .empty).len.toNat ≤ maxPayload) :
    ∃ (f : Frame) (l' : Link Radio), l.transfer.2 = l'.deliver f ∧
      f.bytes = Radio.heard (l.port.pending.headD []) ∧
      l'.tx.waiting = l.tx.dequeue.2.waiting ∧ l'.rx = l.rx ∧
      (l.port.exchanged (if (l.tx.dequeue.1.getD .empty).isEmpty then []
        else [(l.tx.dequeue.1.getD .empty).bytes])).Aside l'.port := by
  have hbefore := queues_setRequest (l := { l with tx := l.tx.dequeue.2 }) h true
  rw [transfer]
  generalize { l with tx := l.tx.dequeue.2 }.setRequest true = asking at hbefore
  have hcalm := hbefore.port.calm h
  obtain ⟨f, log, hclock, hf⟩ := clock_eq hcalm (l.tx.dequeue.1.getD .empty)
  rw [hclock]
  have hdown := Radio.drive_underway asking.port fits ((asking.port.pending.headD []).headD 0)
  have hafter := queues_announce
    (l := { asking with port := asking.port.underway _, log := log }.setRequest false)
    (hdown.calm ⟨hcalm.busFault, rfl⟩)
  refine ⟨f, _, rfl, hbefore.port.pending ▸ hf, ?_, ?_, ?_⟩
  · rw [hafter.tx, List.append_nil, tx_setRequest]
    simpa using hbefore.tx
  · rw [hafter.rx, rx_setRequest]
    exact hbefore.rx
  · exact ((hbefore.port.exchanged _).trans hdown).trans hafter.port

/-- What is sent is the oldest waiting frame, which is whole, or nothing if there is none. -/
theorem sending_of_sendable {P : Type} {l : Link P}
    (h : ∀ bs ∈ l.tx.waiting, Frame.Sendable bs) :
    (l.tx.dequeue.1.getD .empty).len.toNat ≤ maxPayload ∧
      (if (l.tx.dequeue.1.getD .empty).isEmpty then []
        else [(l.tx.dequeue.1.getD .empty).bytes]) = (l.tx.dequeue.1.map Frame.bytes).toList := by
  cases hout : l.tx.dequeue.1 with
  | none => exact ⟨by decide, rfl⟩
  | some f =>
      have whole : Frame.Sendable f.bytes := by
        refine h _ ?_
        rw [l.tx.waiting_dequeue, hout]
        simp
      exact ⟨whole.fits, by simp [whole.isEmpty]⟩

/-- A transfer sends the oldest waiting frame and receives the oldest event, each of them if there
is one. -/
theorem moves_transfer (h : l.Sound) (room : l.rx.isFull = false) :
    ∃ recorded, Moves l [] recorded [] l.transfer.2 ∧
      l.transfer.2.rx.waiting =
        l.rx.waiting ++ (Radio.heard? (l.port.pending.headD [])).toList := by
  have hwait := l.tx.waiting_dequeue
  obtain ⟨fits, hframes⟩ := sending_of_sendable fun bs hbs ↦
    h.sendable bs (List.mem_append_right _ hbs)
  obtain ⟨f, l', hl', hf, htx, hrx, hport⟩ := transfer_eq h.calm fits
  rw [hframes] at hport
  have hheard : l.transfer.2.rx.waiting =
      l.rx.waiting ++ (Radio.heard? (l.port.pending.headD [])).toList := by
    rw [hl', waiting_deliver (hrx ▸ room), hrx, Radio.toList_heard? hf]
  have hpending : l.port.pending.filterMap Radio.heard? =
      (Radio.heard? (l.port.pending.headD [])).toList ++
        l.port.pending.tail.filterMap Radio.heard? := by
    cases l.port.pending with
    | nil => rfl
    | cons e es => cases he : Radio.heard? e <;> simp [he]
  refine ⟨(l.tx.dequeue.1.map Frame.bytes).toList, ⟨?_, ?_, ?_, ?_, ?_⟩, hheard⟩
  · rw [hl', port_deliver, hport.sent, Radio.exchanged]
  · rw [hl', tx_deliver, htx, ← hwait, List.append_nil]
  · rw [incoming, hheard, hl', port_deliver, hport.pending, Radio.exchanged, incoming, hpending]
    simp
  · rw [hl', port_deliver, hport.settings]
    rfl
  · rw [hl', port_deliver]
    exact hport.calm ⟨h.calm.busFault, rfl⟩

/-- A turn of the link sends and receives, or it does neither; it receives one frame at most. -/
theorem moves_poll (h : l.Sound) :
    ∃ recorded, Moves l [] recorded [] l.poll.2 ∧
      l.poll.2.rx.waiting.length ≤ l.rx.waiting.length + 1 := by
  -- looking at the ready line does nothing to the radio
  have hlooked : l.isReady.2 = l := rfl
  rcases l.poll_cases with ⟨-, hpoll⟩ | ⟨-, -, hpoll⟩ | ⟨room, -, hpoll⟩
  · rw [hpoll]
    exact ⟨[], .refl h.calm, Nat.le_succ _⟩
  · rw [hpoll, hlooked]
    dsimp only
    split
    · exact ⟨[], .refl h.calm, Nat.le_succ _⟩
    · exact ⟨[], (queues_setRequest h.calm true).moves h.calm, Nat.le_succ _⟩
  · obtain ⟨recorded, hmoves, hrx⟩ := moves_transfer h room
    rw [hpoll, hlooked]
    refine ⟨recorded, hmoves, ?_⟩
    rw [hrx, List.length_append]
    cases Radio.heard? (l.port.pending.headD []) <;> simp

/-- Taking a received frame takes the oldest one. -/
theorem moves_dequeue (h : l.port.Calm) :
    Moves l [] [] (l.rx.dequeue.1.map Frame.bytes).toList { l with rx := l.rx.dequeue.2 } := by
  refine ⟨by simp, by simp, ?_, rfl, h⟩
  rw [incoming, incoming, l.rx.waiting_dequeue]
  simp

theorem moves_tryReceive (h : l.Sound) :
    ∃ recorded, Moves l [] recorded (l.tryReceive.1.map Frame.bytes).toList l.tryReceive.2 := by
  obtain ⟨recorded, hturn⟩ : ∃ recorded,
      Moves l [] recorded [] (if l.rx.isFull then l else l.poll.2) := by
    split
    · exact ⟨[], .refl h.calm⟩
    · exact ⟨_, (moves_poll h).choose_spec.1⟩
  rw [tryReceive]
  generalize (if l.rx.isFull then l else l.poll.2) = turn at hturn
  have htake := moves_dequeue hturn.calm
  have hmoves := (hturn.trans htake).trans ((queues_announce htake.calm).moves htake.calm)
  simp only [List.append_nil, List.nil_append] at hmoves
  exact ⟨recorded, hmoves⟩

/-- When all received frames have been taken, the next one is taken at once. -/
theorem waiting_tryReceive (h : l.Sound) (none : l.rx.waiting = []) :
    l.tryReceive.2.rx.waiting = [] := by
  obtain ⟨_, hpoll, hroom⟩ := moves_poll h
  rw [none] at hroom
  rw [tryReceive]
  generalize hturn : (if l.rx.isFull then l else l.poll.2) = turn
  have hcalm : turn.port.Calm := by
    rw [← hturn]
    split
    · exact h.calm
    · exact hpoll.calm
  have hlen : turn.rx.waiting.length ≤ 1 := by
    rw [← hturn]
    split
    · rw [none]
      exact Nat.zero_le _
    · exact hroom
  dsimp only
  rw [(queues_announce (moves_dequeue hcalm).calm).rx, FrameRing.waiting_dequeue_snd,
    ← List.length_eq_zero_iff, List.length_tail]
  omega

/-! ## New links -/

/-- Nothing has been sent, and nothing waits on either side. -/
structure Still (l : Link Radio) : Prop where
  calm : l.port.Calm
  sent : l.port.sent = []
  pending : l.port.pending = []
  tx : l.tx.waiting = []
  rx : l.rx.waiting = []

theorem Still.outgoing (h : l.Still) : l.outgoing = [] := by
  rw [Link.outgoing, h.sent, h.tx, List.append_nil]

theorem Still.incoming (h : l.Still) : l.incoming = [] := by
  rw [Link.incoming, h.rx, h.pending, List.filterMap_nil, List.append_nil]

theorem Still.sound (h : l.Still) : l.Sound := ⟨h.calm, by simp [h.outgoing]⟩

theorem still_fresh : (Link.fresh {} : Link Radio).Still :=
  ⟨⟨rfl, rfl⟩, rfl, rfl, FrameRing.waiting_empty _ _, FrameRing.waiting_empty _ _⟩

/-- A reset brings nothing on its way. -/
theorem Still.pinReset (h : l.Still) : l.pinReset.Still := by
  have hpulse : l.pulseReset.port.Calm := ⟨h.calm.busFault, rfl⟩
  have hreset := (queues_setRequest hpulse false).trans (queues_delay _ bootDelay)
  refine ⟨hreset.port.calm hpulse, hreset.port.sent.trans h.sent, hreset.port.pending, ?_, ?_⟩
  · exact FrameRing.waiting_clear _
  · exact FrameRing.waiting_clear _

end Link

/-! ## The radio's side -/

namespace Sim.Radio

/-- What can happen to a radio between two calls of the host. -/
inductive Change where
  | /-- It has an event to report, whatever the bytes. -/
    push (event : List UInt8)
  | busy (on : Bool)
  | /-- From now on it does these things by itself. -/
    answering (autoCredit autoDisconnect : Bool) (autoConnect : Option (List UInt8))

/-- The events that a change brings. -/
def Change.events : Change → List (List UInt8)
  | .push event => [event]
  | _ => []

def change (r : Radio) : Change → Radio
  | .push event => r.push event
  | .busy on => { r with busy := on }
  | .answering autoCredit autoDisconnect autoConnect =>
    { r with autoCredit, autoDisconnect, autoConnect }

@[simp] theorem sent_change (r : Radio) (c : Change) : (r.change c).sent = r.sent := by
  cases c <;> rfl

@[simp] theorem pending_change (r : Radio) (c : Change) :
    (r.change c).pending = r.pending ++ c.events := by
  cases c with
  | push event => rfl
  | _ => exact (List.append_nil _).symm

theorem Calm.change (h : Calm r) (c : Change) : (r.change c).Calm := by
  cases c <;> exact ⟨h.busFault, h.clocked⟩

end Sim.Radio

namespace Link

variable {l : Link Radio}

/-- Change the radio behind the link's back. -/
def onRadio (l : Link Radio) (c : Radio.Change) : Link Radio := { l with port := l.port.change c }

@[simp] theorem outgoing_onRadio (l : Link Radio) (c : Radio.Change) :
    (l.onRadio c).outgoing = l.outgoing := by
  simp [outgoing, onRadio]

@[simp] theorem incoming_onRadio (l : Link Radio) (c : Radio.Change) :
    (l.onRadio c).incoming = l.incoming ++ c.events.filterMap Radio.heard? := by
  simp [incoming, onRadio]

theorem Sound.onRadio (h : l.Sound) (c : Radio.Change) : (l.onRadio c).Sound :=
  ⟨h.calm.change c, by simpa using h.sendable⟩

end Link

end RadioBoot
