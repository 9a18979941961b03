import RadioBoot.Proofs.Link.Channel
import RadioBoot.Proofs.Link.Faults

/-!
# What a fault can cost

On a port on which any exchange may fail, at any byte and as often as it likes, the link still
changes no order, repeats nothing and makes up nothing; and each transfer that is aborted costs one
frame at most in each direction (`losses_le_aborted`).  `Leaks` says this of a part of a run: what
has gone in at one end has come out at the other, or is on its way, but for at most so many frames.
-/

namespace RadioBoot

open Sim

/-- `AllBut k xs ys`: the list `xs` is `ys`, in order, but for at most `k` entries. -/
structure AllBut {α : Type} (k : Nat) (xs ys : List α) : Prop where
  sublist : xs.Sublist ys
  length_le : ys.length ≤ xs.length + k

namespace AllBut

variable {α : Type} {k k' : Nat} {xs ys zs : List α}

theorem refl (xs : List α) : AllBut 0 xs xs := ⟨.refl xs, Nat.le_refl _⟩

theorem trans (h : AllBut k xs ys) (h' : AllBut k' ys zs) : AllBut (k + k') xs zs := by
  have hle := h.length_le
  have hle' := h'.length_le
  exact ⟨h.sublist.trans h'.sublist, by omega⟩

theorem append (h : AllBut k xs ys) (before behind : List α) :
    AllBut k (before ++ (xs ++ behind)) (before ++ (ys ++ behind)) := by
  have hle := h.length_le
  refine ⟨(h.sublist.append_right behind).append_left before, ?_⟩
  simp only [List.length_append]
  omega

theorem tail (xs : List α) : AllBut 1 xs.tail xs := by
  refine ⟨List.tail_sublist xs, ?_⟩
  rw [List.length_tail]
  omega

theorem mono (h : AllBut k xs ys) (hk : k ≤ k') : AllBut k' xs ys :=
  ⟨h.sublist, Nat.le_trans h.length_le (Nat.add_le_add_left hk _)⟩

end AllBut

/-! ## Whole events -/

namespace Sim.Radio

/-- An event that is the bytes of a frame, and declares something, is heard as it is. -/
theorem heard?_of_sendable {event : List UInt8} (h : Frame.Sendable event) :
    heard? event = some event := by
  obtain ⟨f, rfl, declares, fits⟩ := h
  have hlen : f.payload.length = f.len.toNat := by
    rw [Frame.length_payload, Frame.declared, Nat.min_eq_left fits]
  rw [heard?, show f.bytes.headD 0 = f.len from rfl, if_neg (of_decide_eq_false declares), heard,
    Frame.bytes, List.headD_cons, List.tail_cons, Nat.min_eq_left fits, UInt8.ofNat_toNat, ← hlen,
    overlay, List.length_replicate, List.take_length, List.drop_replicate, Nat.sub_self,
    List.replicate_zero, List.append_nil]

/-- What the radio adds by itself are whole events. -/
theorem sendable_answersTo (r : Radio) (frame : List UInt8) :
    ∀ e ∈ r.answersTo frame, Frame.Sendable e := by
  intro e he
  obtain ⟨opcode, params, -, short, rfl⟩ := of_mem_answersTo he
  obtain ⟨hbytes, hsendable⟩ := Frame.Sendable.of_ofOpcode?
    (show Frame.ofOpcode? opcode params = some _ from if_pos short)
  exact hbytes ▸ hsendable

end Sim.Radio

namespace Link

variable {l l' l'' : Link Radio}

/-- Between transfers, on a bus that works, with nothing but whole frames on the way out and whole
events on the way in. -/
structure Whole (l : Link Radio) : Prop where
  calm : l.port.Calm
  sendable : ∀ bs ∈ l.tx.waiting, Frame.Sendable bs
  reportable : ∀ bs ∈ l.rx.waiting ++ l.port.pending, Frame.Sendable bs

/-! ## What a part of a run may lose -/

/-- From `l` to `l'` the link has taken the frames `queued` to send and given up the frames
`returned`, and the radio has recorded the frames `recorded`.  All frames and events that have not
come through are still on their way, but for at most `k` of each. -/
structure Leaks (l : Link Radio) (queued recorded returned : List (List UInt8)) (k : Nat)
    (l' : Link Radio) : Prop where
  sent : l'.port.sent = l.port.sent ++ recorded
  waiting : AllBut k (recorded ++ l'.tx.waiting) (l.tx.waiting ++ queued)
  coming : AllBut k (returned ++ (l'.rx.waiting ++ l'.port.pending))
    (l.rx.waiting ++ l.port.pending ++ recorded.flatMap l.port.answersTo)
  settings : l'.port.settings = l.port.settings
  calm : l'.port.Calm

namespace Leaks

variable {queued queued' recorded recorded' returned returned' : List (List UInt8)} {k k' : Nat}

theorem trans (h : Leaks l queued recorded returned k l')
    (h' : Leaks l' queued' recorded' returned' k' l'') :
    Leaks l (queued ++ queued') (recorded ++ recorded') (returned ++ returned') (k' + k) l'' := by
  have hans : l'.port.answersTo = l.port.answersTo := Radio.answersTo_congr h.settings
  refine ⟨?_, ?_, ?_, h'.settings.trans h.settings, h'.calm⟩
  · rw [h'.sent, h.sent, List.append_assoc]
  · have hlate := h'.waiting.append recorded []
    have hearly := h.waiting.append [] queued'
    simp only [List.append_nil, List.nil_append, List.append_assoc] at hlate hearly ⊢
    exact hlate.trans hearly
  · have hlate := h'.coming.append returned []
    have hearly := h.coming.append [] (recorded'.flatMap l.port.answersTo)
    rw [hans] at hlate
    simp only [List.append_nil, List.nil_append, List.append_assoc, List.flatMap_append]
      at hlate hearly ⊢
    exact hlate.trans hearly

theorem of_queues (h : Queues l queued l') (hl : l.port.Calm) : Leaks l queued [] [] 0 l' := by
  refine ⟨?_, ?_, ?_, h.port.settings, h.port.calm hl⟩
  · rw [h.port.sent, List.append_nil]
  · rw [h.tx]
    exact .refl _
  · rw [h.rx, h.port.pending, List.flatMap_nil, List.append_nil]
    exact .refl _

/-- All that is on its way stays whole. -/
theorem whole (h : Leaks l queued recorded returned k l') (hl : l.Whole)
    (hq : ∀ bs ∈ queued, Frame.Sendable bs) : l'.Whole := by
  refine ⟨h.calm, fun bs hbs ↦ ?_, fun bs hbs ↦ ?_⟩
  · have hold := h.waiting.sublist.subset (List.mem_append_right _ hbs)
    rcases List.mem_append.mp hold with hbs | hbs
    · exact hl.sendable bs hbs
    · exact hq bs hbs
  · have hold := h.coming.sublist.subset (List.mem_append_right _ hbs)
    rcases List.mem_append.mp hold with hbs | hbs
    · exact hl.reportable bs hbs
    · obtain ⟨frame, -, hbs⟩ := List.mem_flatMap.mp hbs
      exact l.port.sendable_answersTo frame bs hbs

end Leaks

/-! ## Operations -/

section

variable (l : Link (Flaky Radio))

/-- Whether the next turn of the link is a transfer that is aborted. -/
def aborts : Bool := !l.rx.isFull && l.isReady.1 && !l.isReady.2.transfer.1

theorem leaks_send (h : l.direct.Whole) (f : Frame) :
    Leaks l.direct (if (l.send f).1 then [f.bytes] else []) [] [] 0 (l.send f).2.direct := by
  obtain ⟨hfst, hsnd⟩ := l.direct_send f
  have hqueues := queues_send h.calm f
  rw [hfst, hsnd] at hqueues
  exact .of_queues hqueues h.calm

/-- A transfer loses nothing, or it is aborted and loses one frame at most in each direction. -/
theorem leaks_transfer (h : l.direct.Whole) (room : l.rx.isFull = false) :
    ∃ recorded, Leaks l.direct [] recorded [] (!l.transfer.1).toNat l.transfer.2.direct := by
  have hwait := l.tx.waiting_dequeue
  obtain ⟨fits, hframes⟩ := sending_of_sendable (l := l) h.sendable
  cases passed : l.transfer.1 with
  | true =>
      obtain ⟨f, l', hl', hf, htx, hrx, hport⟩ := transfer_eq (l := l.direct) h.calm fits
      rw [tx_direct, hframes] at hport
      rw [l.transfer_passed passed, hl']
      refine ⟨(l.tx.dequeue.1.map Frame.bytes).toList, ?_, ?_, ?_, ?_, ?_⟩
      · rw [port_deliver, hport.sent, Radio.exchanged]
      · rw [tx_deliver, htx, tx_direct, ← hwait, List.append_nil]
        exact .refl _
      · rw [waiting_deliver (hrx ▸ room), hrx, port_deliver, hport.pending, Radio.exchanged,
          ← Radio.toList_heard? hf]
        -- a whole event is heard as it is
        cases hpending : l.direct.port.pending with
        | nil =>
            exact .refl _
        | cons e es =>
            have whole : Frame.Sendable e :=
              h.reportable e (List.mem_append_right _ (hpending ▸ List.mem_cons_self))
            rw [List.headD_cons, Radio.heard?_of_sendable whole, List.nil_append, List.tail_cons,
              Option.toList_some, List.append_assoc, List.append_assoc, List.singleton_append]
            exact .refl _
      · rw [port_deliver, hport.settings]
        rfl
      · rw [port_deliver]
        exact hport.calm ⟨h.calm.busFault, rfl⟩
  | false =>
      obtain ⟨htx, hrx, -, hport⟩ := l.transfer_failed h.calm fits passed
      have hlost : AllBut 1 l.transfer.2.tx.waiting l.tx.waiting := by
        rw [htx, FrameRing.waiting_dequeue_snd]
        exact .tail _
      rcases hport with hport | ⟨frames, hsent, hport⟩
      · refine ⟨[], ?_, ?_, ?_, hport.settings, hport.calm h.calm⟩
        · rw [List.append_nil]
          exact hport.sent
        · rw [List.append_nil]
          exact hlost
        · rw [rx_direct, hrx, port_direct, hport.pending, List.flatMap_nil, List.append_nil]
          exact (AllBut.refl _).mono (Nat.zero_le 1)
      · refine ⟨frames, hport.sent, ?_, ?_, hport.settings.trans rfl,
          hport.calm ⟨h.calm.busFault, rfl⟩⟩
        · rcases hsent with rfl | ⟨declares, rfl⟩
          · rw [List.append_nil]
            exact hlost
          · rw [declares] at hframes
            rw [tx_direct, htx, tx_direct, hwait, ← hframes, List.append_nil]
            exact (AllBut.refl _).mono (Nat.zero_le 1)
        · rw [rx_direct, hrx, port_direct, hport.pending, List.append_assoc]
          exact (AllBut.tail _).append _ _

/-- A turn of the link loses nothing, unless it is a transfer that is aborted. -/
theorem leaks_poll (h : l.direct.Whole) :
    ∃ recorded, Leaks l.direct [] recorded [] l.aborts.toNat l.poll.2.direct := by
  have hlooked : l.isReady.2 = l := rfl
  rcases l.poll_cases with ⟨full, hpoll⟩ | ⟨room, busy, hpoll⟩ | ⟨room, ready, hpoll⟩
  · rw [hpoll, aborts, full]
    exact ⟨[], .of_queues (.refl _) h.calm⟩
  · rw [hpoll, hlooked, aborts, room, busy]
    dsimp only
    split
    · exact ⟨[], .of_queues (.refl _) h.calm⟩
    · exact ⟨[], .of_queues (queues_setRequest h.calm true) h.calm⟩
  · rw [hpoll, hlooked, aborts, room, ready]
    exact l.leaks_transfer h room

/-- Taking a received frame takes the oldest one. -/
theorem leaks_dequeue (h : l.direct.port.Calm) :
    Leaks l.direct [] [] (l.rx.dequeue.1.map Frame.bytes).toList 0
      { l with rx := l.rx.dequeue.2 }.direct := by
  refine ⟨(List.append_nil _).symm, ?_, ?_, rfl, h⟩
  · rw [List.append_nil]
    exact .refl _
  · have hwait := l.rx.waiting_dequeue
    rw [List.flatMap_nil, List.append_nil, rx_direct, rx_direct, hwait, List.append_assoc]
    exact .refl _

theorem leaks_tryReceive (h : l.direct.Whole) :
    ∃ recorded, Leaks l.direct [] recorded (l.tryReceive.1.map Frame.bytes).toList l.aborts.toNat
      l.tryReceive.2.direct := by
  obtain ⟨recorded, hturn⟩ : ∃ recorded, Leaks l.direct [] recorded [] l.aborts.toNat
      (if l.rx.isFull then l else l.poll.2).direct := by
    split
    · rename_i full
      rw [aborts, full]
      exact ⟨[], .of_queues (.refl _) h.calm⟩
    · exact l.leaks_poll h
  rw [tryReceive]
  generalize (if l.rx.isFull then l else l.poll.2) = turn at hturn
  have htake := turn.leaks_dequeue hturn.calm
  have hannounce := Leaks.of_queues (queues_announce htake.calm) htake.calm
  rw [← direct_announce] at hannounce
  have hall := (hturn.trans htake).trans hannounce
  simp only [List.append_nil, List.nil_append, Nat.zero_add] at hall
  exact ⟨recorded, hall⟩

/-- A transfer that is aborted has let go of the request line.  Receiving asserts it anew only if
there are more frames to send. -/
theorem request_of_aborts (h : l.direct.Whole) (aborted : l.aborts = true) :
    l.poll.2.port.port.request = false ∧
      l.tryReceive.2.port.port.request = !l.tryReceive.2.tx.isEmpty := by
  obtain ⟨fits, -⟩ := sending_of_sendable (l := l) h.sendable
  simp only [aborts, Bool.and_eq_true, Bool.not_eq_true'] at aborted
  obtain ⟨⟨room, ready⟩, failed⟩ := aborted
  obtain ⟨-, hrx, hdown, -⟩ := l.transfer_failed h.calm fits failed
  have hpoll : l.poll.2 = l.transfer.2 := congrArg Prod.snd (poll_of_ready room ready)
  refine ⟨by rw [hpoll, hdown], ?_⟩
  rw [tryReceive, room]
  simp only [Bool.false_eq_true, if_false, hpoll]
  rw [announce, FrameRing.isFull_dequeue (by decide)]
  cases waiting : l.transfer.2.tx.isEmpty with
  | true => simpa [waiting] using hdown
  | false =>
      change true = !l.transfer.2.tx.isEmpty
      rw [waiting, Bool.not_false]

end

/-! ## Runs of a link -/

/-- What the radio is given to report here are whole events. -/
def Happening.Whole : Happening → Prop
  | .radio c => ∀ e ∈ c.events, Frame.Sendable e
  | _ => True

/-- A link on which any exchange may fail, what has gone through it, oldest first, and how many
transfers have been aborted. -/
structure Tally where
  link : Link (Flaky Radio)
  /-- The frames that have been accepted to be sent. -/
  accepted : List (List UInt8)
  /-- The frames that have been received. -/
  received : List (List UInt8)
  /-- The events that the radio was given to report or has added by itself. -/
  reported : List (List UInt8)
  aborted : Nat

namespace Tally

/-- A new link to a new radio. -/
def fresh (plan : List (Option PortError)) : Tally := ⟨.fresh ⟨{}, plan⟩, [], [], [], 0⟩

/-- The tally after one more thing has happened. -/
def after (x : Tally) : Happening → Tally
  | .send f _ =>
    { x with
      link := (x.link.send f).2
      accepted := x.accepted ++ if (x.link.send f).1 then [f.bytes] else [] }
  | .poll =>
    { x with
      link := x.link.poll.2
      reported := x.reported ++ Record.answered x.link.direct x.link.poll.2.direct
      aborted := x.aborted + x.link.aborts.toNat }
  | .tryReceive =>
    { x with
      link := x.link.tryReceive.2
      received := x.received ++ (x.link.tryReceive.1.map Frame.bytes).toList
      reported := x.reported ++ Record.answered x.link.direct x.link.tryReceive.2.direct
      aborted := x.aborted + x.link.aborts.toNat }
  | .radio c =>
    { x with
      link := { x.link with port := ⟨x.link.port.port.change c, x.link.port.plan⟩ }
      reported := x.reported ++ c.events }

/-- The tally after all of this has happened, in order, on exchanges that fail as planned. -/
def run (plan : List (Option PortError)) (happenings : List Happening) : Tally :=
  happenings.foldl after (fresh plan)

/-! ## What is kept -/

/-- All that has gone in is accounted for, but for one frame and one event at most for each transfer
that was aborted. -/
structure Kept (x : Tally) : Prop where
  whole : x.link.direct.Whole
  outgoing : AllBut x.aborted x.link.direct.outgoing x.accepted
  incoming : AllBut x.aborted
    (x.received ++ (x.link.direct.rx.waiting ++ x.link.direct.port.pending)) x.reported

theorem kept_fresh (plan : List (Option PortError)) : Kept (fresh plan) := by
  have hstill : (fresh plan).link.direct.Still := Link.still_fresh
  refine ⟨⟨hstill.calm, ?_, ?_⟩, ?_, ?_⟩
  · rw [hstill.tx]
    exact List.forall_mem_nil _
  · rw [hstill.rx, hstill.pending]
    exact List.forall_mem_nil _
  · rw [hstill.outgoing]
    exact .refl []
  · rw [hstill.rx, hstill.pending]
    exact .refl []

variable {x : Tally}

/-- What may be lost on the way may be lost in the end. -/
theorem Kept.leaks (h : Kept x) {queued recorded returned : List (List UInt8)} {k : Nat}
    {l : Link (Flaky Radio)} (hleaks : Leaks x.link.direct queued recorded returned k l.direct)
    (hq : ∀ bs ∈ queued, Frame.Sendable bs) :
    Kept ⟨l, x.accepted ++ queued, x.received ++ returned,
      x.reported ++ Record.answered x.link.direct l.direct, x.aborted + k⟩ := by
  have hans : Record.answered x.link.direct l.direct =
      recorded.flatMap x.link.direct.port.answersTo := by
    rw [Record.answered, hleaks.sent, List.drop_left]
  refine ⟨hleaks.whole h.whole hq, ?_, ?_⟩
  · have hlate := hleaks.waiting.append x.link.direct.port.sent []
    have hearly := h.outgoing.append [] queued
    simp only [Link.outgoing, List.append_nil, List.nil_append, List.append_assoc] at hlate hearly ⊢
    rw [hleaks.sent, List.append_assoc, Nat.add_comm]
    exact hlate.trans hearly
  · have hlate := hleaks.coming.append x.received []
    have hearly := h.incoming.append [] (Record.answered x.link.direct l.direct)
    rw [← hans] at hlate
    simp only [List.append_nil, List.nil_append, List.append_assoc] at hlate hearly ⊢
    rw [Nat.add_comm]
    exact hlate.trans hearly

theorem Kept.after (h : Kept x) {e : Happening} (he : e.Whole) : Kept (x.after e) := by
  cases e with
  | send f declares =>
      have hleaks := x.link.leaks_send h.whole f
      have hnone : Record.answered x.link.direct (x.link.send f).2.direct = [] := by
        rw [Record.answered, hleaks.sent, List.append_nil, List.drop_length, List.flatMap_nil]
      have hsendable : ∀ bs ∈ if (x.link.send f).1 then [f.bytes] else [], Frame.Sendable bs := by
        rw [← (x.link.direct_send f).1]
        exact fun bs hbs ↦ sendable_of_accepted declares hbs
      have hkept := h.leaks hleaks hsendable
      rw [hnone, List.append_nil, List.append_nil] at hkept
      exact hkept
  | poll =>
      obtain ⟨recorded, hleaks⟩ := x.link.leaks_poll h.whole
      simpa [Tally.after] using h.leaks hleaks (by simp)
  | tryReceive =>
      obtain ⟨recorded, hleaks⟩ := x.link.leaks_tryReceive h.whole
      simpa [Tally.after] using h.leaks hleaks (by simp)
  | radio c =>
      have hpending := x.link.port.port.pending_change c
      refine ⟨⟨?_, h.whole.sendable, fun bs hbs ↦ ?_⟩, ?_, ?_⟩
      · cases c <;> exact ⟨h.whole.calm.busFault, h.whole.calm.clocked⟩
      · change bs ∈ x.link.rx.waiting ++ (x.link.port.port.change c).pending at hbs
        rw [hpending, ← List.append_assoc] at hbs
        rcases List.mem_append.mp hbs with hbs | hbs
        · exact h.whole.reportable bs hbs
        · exact he bs hbs
      · change AllBut x.aborted ((x.link.port.port.change c).sent ++ x.link.tx.waiting) x.accepted
        rw [Radio.sent_change]
        exact h.outgoing
      · change AllBut x.aborted
          (x.received ++ (x.link.rx.waiting ++ (x.link.port.port.change c).pending))
          (x.reported ++ c.events)
        rw [hpending]
        simpa using h.incoming.append [] c.events

theorem kept_run (plan : List (Option PortError)) (happenings : List Happening)
    (whole : ∀ e ∈ happenings, e.Whole) : Kept (run plan happenings) :=
  List.foldlRecOn happenings _ (kept_fresh plan) fun _ h e he ↦ h.after (whole e he)

end Tally

/-- A fault costs at most the frames of the transfer that it hits.  Whatever fails, and at whatever
bytes, the frames that the radio has recorded and then those that wait to be sent are the accepted
frames, in order, but for at most one for each transfer that was aborted; and so are the frames that
have been received, then those that wait to be received and then the pending events the reported
events.  A transfer that is aborted lets go of the request line, and receiving asserts it anew only
if more waits to be sent. -/
theorem losses_le_aborted (plan : List (Option PortError)) (happenings : List Happening)
    (whole : ∀ e ∈ happenings, e.Whole) :
    let x := Tally.run plan happenings
    AllBut x.aborted (x.link.port.port.sent ++ x.link.tx.waiting) x.accepted ∧
      AllBut x.aborted (x.received ++ x.link.rx.waiting ++ x.link.port.port.pending) x.reported ∧
      (x.link.aborts = true → x.link.poll.2.port.port.request = false ∧
        x.link.tryReceive.2.port.port.request = !x.link.tryReceive.2.tx.isEmpty) := by
  have h := Tally.kept_run plan happenings whole
  refine ⟨h.outgoing, ?_, fun aborted ↦ Link.request_of_aborts _ h.whole aborted⟩
  rw [List.append_assoc]
  exact h.incoming

/-- The second byte of a transfer fails: the radio drops the frame that it has heard one byte of,
and does not report again the event that it has begun, and that is all that one aborted transfer has
cost. -/
theorem losses_le_aborted_second_byte :
    let happenings : List Happening :=
      [.send (.zeroed 0 1 [5]) rfl, .radio (.push [2, 0x8A, 1]), .poll, .tryReceive]
    (Tally.run [none, some .bus] happenings).aborted = 1 ∧
      AllBut 1 [] (Tally.run [none, some .bus] happenings).accepted ∧
      AllBut 1 [] (Tally.run [none, some .bus] happenings).reported := by
  intro happenings
  have whole : ∀ e ∈ happenings, e.Whole := by
    intro e he
    simp only [happenings, List.mem_cons, List.not_mem_nil, or_false] at he
    rcases he with rfl | rfl | rfl | rfl
    · trivial
    · exact fun bs hbs ↦ ⟨.zeroed 0 2 [0x8A, 1], by rw [List.mem_singleton.mp hbs]; rfl, rfl,
        by decide⟩
    · trivial
    · trivial
  obtain ⟨hout, hin, -⟩ := losses_le_aborted [none, some .bus] happenings whole
  have once : (Tally.run [none, some .bus] happenings).aborted = 1 := by decide +kernel
  have gone : (Tally.run [none, some .bus] happenings).link.port.port.sent ++
      (Tally.run [none, some .bus] happenings).link.tx.waiting = [] := by decide +kernel
  have unheard : (Tally.run [none, some .bus] happenings).received ++
      (Tally.run [none, some .bus] happenings).link.rx.waiting ++
      (Tally.run [none, some .bus] happenings).link.port.port.pending = [] := by decide +kernel
  rw [once, gone] at hout
  rw [once, unheard] at hin
  exact ⟨once, hout, hin⟩

end Link
end RadioBoot
