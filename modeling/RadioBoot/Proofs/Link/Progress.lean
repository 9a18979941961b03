import RadioBoot.Proofs.Link.Traffic

/-!
# How a link gets on

Over a radio that is not busy, a turn of the link takes what comes first of the frames to send, of
the events that the radio has pending and of the frames received; what it takes, and what becomes
of it, is in `Advances`.  The work that is left gets less by each of them, although a radio answers
frames with events: a frame brings two events at most, and an event one received frame
(`Advances.load`).  After any turn the request line is up as long as there is something to send
(`Poised`), and from there on every turn takes something while there is anything left
(`advances_tryReceive`).
-/

namespace RadioBoot

open Sim

/-- Whether the bytes of a frame declare something. -/
def Frame.declares (bs : List UInt8) : Bool := bs.headD 0 != 0

@[simp] theorem Frame.declares_bytes (f : Frame) : declares f.bytes = !f.isEmpty := rfl

/-- What is taken is the frame that waited first. -/
theorem FrameRing.waiting_dequeue_fst {slots : Nat} (r : FrameRing slots) :
    r.dequeue.1.map Frame.bytes = r.waiting.head? := by
  cases none : r.isEmpty with
  | true =>
      have hnone : r.waiting = [] := by rwa [isEmpty_eq, List.isEmpty_iff] at none
      simp [dequeue, none, hnone]
  | false => simp [waiting, toList_of_dequeue none, dequeue, none]

/-- A radio answers a frame with two events at most. -/
theorem Sim.Radio.length_answersTo (r : Radio) (frame : List UInt8) :
    (r.answersTo frame).length ≤ 2 := by
  have hnone : r.settings.pending.length ≤ 2 := Nat.zero_le _
  unfold answersTo
  split
  · unfold answer
    split
    · split
      · exact Nat.le_succ 1
      · exact hnone
    · split
      · exact Nat.le_succ 1
      · exact hnone
    · split
      · exact Nat.le_refl 2
      · exact hnone
    · exact hnone
  · exact Nat.zero_le _

/-- And so several frames with twice as many. -/
theorem Sim.Radio.length_answers (r : Radio) (frames : List (List UInt8)) :
    (frames.flatMap r.answersTo).length ≤ 2 * frames.length := by
  induction frames with
  | nil => exact Nat.zero_le _
  | cons frame rest ih =>
      have hfirst := r.length_answersTo frame
      rw [List.flatMap_cons, List.length_append, List.length_cons]
      omega

namespace Link

variable {l l' l'' : Link Radio}
variable {given given' taken taken' returned returned' : List (List UInt8)}

/-! ## What a turn takes -/

/-- A radio that is not busy, between transfers on a bus that works, and no frame to send declares
more than fits. -/
structure Willing (l : Link Radio) : Prop where
  calm : l.port.Calm
  free : l.port.busy = false
  fits : ∀ bs ∈ l.tx.waiting, (bs.headD 0).toNat ≤ maxPayload

/-- A radio that is not busy and answers a request to disconnect, between transfers on a bus that
works, and no frame to send declares more than fits. -/
structure Cooperative (l : Link Radio) : Prop where
  calm : l.port.Calm
  free : l.port.busy = false
  answers : l.port.autoDisconnect = true
  fits : ∀ bs ∈ l.tx.waiting, (bs.headD 0).toNat ≤ maxPayload

theorem Cooperative.willing (h : l.Cooperative) : l.Willing := ⟨h.calm, h.free, h.fits⟩

/-- From `l` to `l'` the link has given the frames `given` to the radio, the radio has reported the
events `taken`, and the link has given up the frames `returned`.  The radio has recorded the frames
that declare something; the answers to the frames are pending behind the other events, and what was
heard of the events waits behind the other frames. -/
structure Advances (l : Link Radio) (given taken returned : List (List UInt8)) (l' : Link Radio) :
    Prop where
  tx : l.tx.waiting = given ++ l'.tx.waiting
  sent : l'.port.sent = l.port.sent ++ given.filter Frame.declares
  pending : l.port.pending ++ given.flatMap l.port.answersTo = taken ++ l'.port.pending
  rx : l.rx.waiting ++ taken.filterMap Radio.heard? = returned ++ l'.rx.waiting
  settings : l'.port.settings = l.port.settings
  busy : l'.port.busy = l.port.busy
  calm : l'.port.Calm

namespace Advances

theorem of_aside (h : l.port.Calm) (rings : SameRings l l') (port : l.port.Aside l'.port) :
    Advances l [] [] [] l' := by
  refine ⟨?_, ?_, ?_, ?_, port.settings, by rw [port], port.calm h⟩
  · rw [rings.tx, List.nil_append]
  · rw [port.sent, List.filter_nil, List.append_nil]
  · rw [port.pending, List.flatMap_nil, List.append_nil, List.nil_append]
  · rw [rings.rx, List.filterMap_nil, List.append_nil, List.nil_append]

theorem trans (h : Advances l given taken returned l')
    (h' : Advances l' given' taken' returned' l'') :
    Advances l (given ++ given') (taken ++ taken') (returned ++ returned') l'' := by
  have hans : l'.port.answersTo = l.port.answersTo := Radio.answersTo_congr h.settings
  refine ⟨?_, ?_, ?_, ?_, h'.settings.trans h.settings, h'.busy.trans h.busy, h'.calm⟩
  · rw [h.tx, h'.tx, List.append_assoc]
  · rw [h'.sent, h.sent, List.filter_append, List.append_assoc]
  · rw [List.flatMap_append, ← List.append_assoc, h.pending, List.append_assoc, ← hans, h'.pending,
      List.append_assoc]
  · rw [List.filterMap_append, ← List.append_assoc, h.rx, List.append_assoc, h'.rx,
      List.append_assoc]

theorem cooperative (h : Advances l given taken returned l') (hl : l.Cooperative) :
    l'.Cooperative := by
  refine ⟨h.calm, h.busy.trans hl.free, ?_, fun bs hbs ↦ hl.fits bs ?_⟩
  · exact (congrArg Radio.autoDisconnect h.settings).trans hl.answers
  · rw [h.tx]
    exact List.mem_append_right _ hbs

end Advances

/-! ## The work that is left -/

/-- How much there is on its way out or back. -/
def underway (l : Link Radio) : Nat :=
  l.tx.waiting.length + l.port.pending.length + l.rx.waiting.length

/-- How much there is to do at most before nothing is left to send or to receive: a received frame
has to be taken, an event has to be reported as well, and a frame to send can bring two events. -/
def load (l : Link Radio) : Nat :=
  5 * l.tx.waiting.length + 2 * l.port.pending.length + l.rx.waiting.length

/-- All that is taken makes the work less. -/
theorem Advances.load (h : Advances l given taken returned l') :
    l'.load + (given.length + taken.length + returned.length) ≤ l.load := by
  have hans := l.port.length_answers given
  have hheard : (taken.filterMap Radio.heard?).length ≤ taken.length :=
    List.length_filterMap_le _ _
  have htx := congrArg List.length h.tx
  have hpending := congrArg List.length h.pending
  have hrx := congrArg List.length h.rx
  simp only [List.length_append] at htx hpending hrx
  rw [Link.load, Link.load]
  omega

/-- The link is ready to go on: there is room for a received frame, and the radio is asked for a
transfer as long as there is something to send. -/
structure Poised (l : Link Radio) : Prop where
  room : l.rx.isFull = false
  request : l.tx.waiting ≠ [] → l.port.request = true

/-! ## Turns -/

/-- A transfer takes what comes first on both sides. -/
theorem advances_transfer (h : l.Willing) (room : l.rx.isFull = false) :
    Advances l (l.tx.waiting.take 1) (l.port.pending.take 1) [] l.transfer.2 := by
  have hfirst := l.tx.waiting_dequeue_fst
  have fits : (l.tx.dequeue.1.getD .empty).len.toNat ≤ maxPayload := by
    cases hout : l.tx.dequeue.1 with
    | none => exact Nat.zero_le _
    | some f =>
        rw [hout, Option.map_some, eq_comm] at hfirst
        exact h.fits f.bytes (List.mem_of_head? hfirst)
  obtain ⟨f, l', hl', hf, htx, hrx, hport⟩ := transfer_eq h.calm fits
  have hrecorded : (if (l.tx.dequeue.1.getD .empty).isEmpty then []
      else [(l.tx.dequeue.1.getD .empty).bytes]) =
        (l.tx.waiting.take 1).filter Frame.declares := by
    rw [List.take_one, ← hfirst]
    cases l.tx.dequeue.1 with
    | none => rfl
    | some out => cases empty : out.isEmpty <;> simp [empty]
  -- an empty frame is not recorded, but it would not be answered either
  have hanswers : ((l.tx.waiting.take 1).filter Frame.declares).flatMap l.port.answersTo =
      (l.tx.waiting.take 1).flatMap l.port.answersTo := by
    rw [List.take_one, ← hfirst]
    cases l.tx.dequeue.1 with
    | none => rfl
    | some out =>
        cases empty : out.isEmpty with
        | false => simp [empty]
        | true =>
            have hbytes : out.bytes = [0] := by
              rw [Frame.isEmpty, decide_eq_true_eq] at empty
              rw [Frame.bytes, Frame.payload, Frame.declared, empty]
              rfl
            simp [hbytes, Radio.answersTo]
  rw [hrecorded] at hport
  refine ⟨?_, ?_, ?_, ?_, ?_, ?_, ?_⟩
  · rw [hl', tx_deliver, htx, FrameRing.waiting_dequeue_snd, ← List.drop_one,
      List.take_append_drop]
  · rw [hl', port_deliver, hport.sent, Radio.exchanged]
  · rw [hl', port_deliver, hport.pending, Radio.exchanged, hanswers, ← List.append_assoc,
      ← List.drop_one, List.take_append_drop]
  · rw [hl', waiting_deliver (hrx ▸ room), hrx, List.nil_append, ← Radio.toList_heard? hf]
    cases l.port.pending with
    | nil => rfl
    | cons e es => cases he : Radio.heard? e <;> simp [he]
  · rw [hl', port_deliver, hport.settings]
    rfl
  · rw [hl', port_deliver, hport]
    rfl
  · rw [hl', port_deliver]
    exact hport.calm ⟨h.calm.busFault, rfl⟩

/-- A turn of the link with room for a frame takes what comes first on both sides, or nothing; and
not nothing, if the link is poised and there is something on one of the sides. -/
theorem advances_poll (h : l.Willing) (room : l.rx.isFull = false) :
    ∃ given taken, Advances l given taken [] l.poll.2 ∧
      (l.Poised → given = [] → taken = [] → l.tx.waiting = [] ∧ l.port.pending = []) := by
  have hready : l.isReady.1 = (!l.port.busy && (l.port.request || !l.port.pending.isEmpty)) := rfl
  have hlooked : l.isReady.2 = l := rfl
  rcases l.poll_cases with ⟨full, -⟩ | ⟨-, busy, hpoll⟩ | ⟨-, -, hpoll⟩
  · exact absurd (full.symm.trans room) (by decide)
  · rw [hready, h.free, Bool.not_false, Bool.true_and] at busy
    simp only [Bool.or_eq_false_iff, Bool.not_eq_false', List.isEmpty_iff] at busy
    refine ⟨[], [], ?_, fun poised _ _ ↦ ⟨?_, busy.2⟩⟩
    · rw [hpoll, hlooked]
      dsimp only
      split
      · exact .of_aside h.calm (.refl l) (.refl _)
      · exact .of_aside h.calm ⟨rfl, rfl⟩ (h.calm.drive true)
    · refine Classical.byContradiction fun some ↦ ?_
      exact absurd (poised.request some) (by simp [busy.1])
  · rw [hpoll, hlooked]
    refine ⟨_, _, advances_transfer h room, fun _ hgiven htaken ↦ ?_⟩
    exact ⟨by simpa using hgiven, by simpa using htaken⟩

/-- Taking a received frame takes the oldest one. -/
theorem advances_dequeue (h : l.port.Calm) :
    Advances l [] [] (l.rx.dequeue.1.map Frame.bytes).toList { l with rx := l.rx.dequeue.2 } := by
  refine ⟨rfl, by simp, by simp, ?_, rfl, rfl, h⟩
  rw [List.filterMap_nil, List.append_nil]
  exact l.rx.waiting_dequeue

/-- Asking for a transfer, if there is room, leaves the link poised. -/
theorem poised_announce (room : l.rx.isFull = false) : l.announce.Poised := by
  rw [announce, room, FrameRing.isEmpty_eq]
  cases none : l.tx.waiting.isEmpty with
  | true =>
      rw [List.isEmpty_iff] at none
      exact ⟨room, fun some ↦ absurd none some⟩
  | false => exact ⟨room, fun _ ↦ rfl⟩

/-- Whatever the link was like, receiving leaves it poised; and where it was poised before, the
work that was left has become less. -/
theorem advances_tryReceive (h : l.Willing) :
    ∃ given taken,
      Advances l given taken (l.tryReceive.1.map Frame.bytes).toList l.tryReceive.2 ∧
        l.tryReceive.2.Poised ∧
        (l.Poised → 0 < l.load → l.tryReceive.2.load < l.load) := by
  obtain ⟨given, taken, hturn, hdone⟩ : ∃ given taken,
      Advances l given taken [] (if l.rx.isFull then l else l.poll.2) ∧
        (l.Poised → given = [] → taken = [] → l.tx.waiting = [] ∧ l.port.pending = []) := by
    cases full : l.rx.isFull with
    | true =>
        refine ⟨[], [], .of_aside h.calm (.refl l) (.refl _), fun poised ↦ ?_⟩
        exact absurd poised.room (by simp [full])
    | false => exact advances_poll h full
  rw [tryReceive]
  generalize (if l.rx.isFull then l else l.poll.2) = turn at hturn
  have htake := advances_dequeue hturn.calm
  have hall := (hturn.trans htake).trans (.of_aside htake.calm (sameRings_announce _)
    (queues_announce htake.calm).port)
  simp only [List.append_nil, List.nil_append] at hall
  refine ⟨given, taken, hall, poised_announce (FrameRing.isFull_dequeue (by decide) _), ?_⟩
  intro poised some
  have hless := hall.load
  refine Nat.lt_of_not_le fun more ↦ ?_
  dsimp only at more
  -- nothing has been taken, so nothing was there to send or pending: a received frame is left
  have hgiven : given = [] := List.eq_nil_of_length_eq_zero (by omega)
  have htaken : taken = [] := List.eq_nil_of_length_eq_zero (by omega)
  obtain ⟨htx, hpending⟩ := hdone poised hgiven htaken
  have hrx := hturn.rx
  rw [htaken, List.filterMap_nil, List.append_nil, List.nil_append] at hrx
  rw [FrameRing.waiting_dequeue_fst, ← hrx] at hless
  rw [load, htx, hpending] at some
  cases hwait : l.rx.waiting with
  | nil => simp [hwait] at some
  | cons bs rest =>
      simp only [hwait, List.head?_cons, Option.toList_some, List.length_singleton] at hless
      omega

end Link

end RadioBoot
