import RadioBoot.Link
import RadioBoot.Proofs.Frame.Travel

/-!
# The rings of a link

What an operation does to the two rings of a link does not depend much on the port: whatever the
radio answers, a frame is put behind those that wait to be sent or it is refused, a transfer takes
one frame to send and brings in one at most, and nothing else touches the rings.  So over any port
there is a free place among the frames to send whenever a frame has just been received
(`rings_tryReceive`).

The operations are taken apart here once and for all (`send_cases`, `transfer_cases`, `poll_cases`).
-/

namespace RadioBoot

namespace FrameRing

variable {slots : Nat}

/-- A ring is full just when all its cells but one are in use. -/
theorem isFull_iff_waiting {r : FrameRing slots} :
    r.isFull = true ↔ r.waiting.length + 1 = slots := by
  rw [isFull_iff, length_waiting]

/-- Taking a frame makes room, if there is room for one at all. -/
theorem isFull_dequeue (h : 1 < slots) (r : FrameRing slots) : r.dequeue.2.isFull = false := by
  have hlt := r.size_lt
  rw [Bool.eq_false_iff, Ne, isFull_iff_waiting, waiting_dequeue_snd, List.length_tail,
    length_waiting]
  omega

end FrameRing

namespace Link

variable {P : Type}

/-- From `l` to `l'` nothing has been put into a ring or taken out of one. -/
structure SameRings (l l' : Link P) : Prop where
  tx : l'.tx = l.tx
  rx : l'.rx = l.rx

namespace SameRings

variable {l l' l'' : Link P}

theorem refl (l : Link P) : SameRings l l := ⟨rfl, rfl⟩

theorem trans (h : SameRings l l') (h' : SameRings l' l'') : SameRings l l'' :=
  ⟨h'.tx.trans h.tx, h'.rx.trans h.rx⟩

theorem note (h : SameRings l l') (line : Line) : SameRings l (l'.note line) := ⟨h.tx, h.rx⟩

end SameRings

variable [Port P]

/-! ## The cases of an operation -/

/-- A frame is refused because it is too long or because the ring is full; else it is stored, and
the radio is asked for a transfer if what comes in with it can be kept. -/
theorem send_cases (l : Link P) (f : Frame) :
    (maxPayload < f.len.toNat ∧ l.send f = (false, l.note (refusing f))) ∨
      (f.len.toNat ≤ maxPayload ∧ l.tx.isFull = true ∧ l.send f = (false, l)) ∨
      f.len.toNat ≤ maxPayload ∧ l.tx.isFull = false ∧
        l.send f = (true, if l.rx.isFull then { l with tx := (l.tx.enqueue f).2 }
          else { l with tx := (l.tx.enqueue f).2 }.setRequest true) := by
  have hstored := l.tx.enqueue_fst f
  rw [send]
  split
  · rename_i long
    exact .inl ⟨long, rfl⟩
  · rename_i fits
    have fits := Nat.le_of_not_lt fits
    generalize l.tx.enqueue f = x at hstored
    rcases x with ⟨_ | _, tx⟩
    · exact .inr (.inl ⟨fits, by simpa using hstored, rfl⟩)
    · exact .inr (.inr ⟨fits, by simpa using hstored, rfl⟩)

/-- The exchanges of a transfer: with the request line asserted the oldest waiting frame is clocked,
or an empty one. -/
def clockNext (l : Link P) : Except PortError Frame × Link P :=
  ({ l with tx := l.tx.dequeue.2 }.setRequest true).clock (l.tx.dequeue.1.getD .empty)

/-- A transfer releases the request line after its exchanges.  If none has failed it keeps what has
come in; else the frame is lost. -/
theorem transfer_cases (l : Link P) :
    (∃ e, l.clockNext.1 = .error e ∧ l.transfer =
        (false, (l.clockNext.2.setRequest false).note (aborted e (l.tx.dequeue.1.getD .empty)))) ∨
      ∃ f, l.clockNext.1 = .ok f ∧
        l.transfer = (true, ((l.clockNext.2.setRequest false).announce).deliver f) := by
  rw [transfer, clockNext]
  generalize ({ l with tx := l.tx.dequeue.2 }.setRequest true).clock
    (l.tx.dequeue.1.getD .empty) = x
  rcases x with ⟨e | f, l'⟩
  · exact .inl ⟨e, rfl, rfl⟩
  · exact .inr ⟨f, rfl, rfl⟩

/-- A turn does nothing while there is no room; with room it is a transfer, unless the radio is not
ready, and then it asserts the request line for what waits. -/
theorem poll_cases (l : Link P) :
    (l.rx.isFull = true ∧ l.poll = (false, l)) ∨
      (l.rx.isFull = false ∧ l.isReady.1 = false ∧
        l.poll = (false, if l.tx.isEmpty then l.isReady.2 else l.isReady.2.setRequest true)) ∨
      l.rx.isFull = false ∧ l.isReady.1 = true ∧ l.poll = l.isReady.2.transfer := by
  have htx : l.isReady.2.tx = l.tx := rfl
  rw [poll]
  cases full : l.rx.isFull with
  | true => exact .inl ⟨rfl, rfl⟩
  | false =>
      refine .inr ?_
      generalize l.isReady = x at htx
      rcases x with ⟨_ | _, l'⟩
      · dsimp only at htx
        refine .inl ⟨rfl, rfl, ?_⟩
        rw [← htx]
        rfl
      · exact .inr ⟨rfl, rfl, rfl⟩

theorem poll_of_ready {l : Link P} (room : l.rx.isFull = false) (ready : l.isReady.1 = true) :
    l.poll = l.isReady.2.transfer := by
  rcases l.poll_cases with ⟨full, -⟩ | ⟨-, busy, -⟩ | ⟨-, -, h⟩
  · exact absurd (full.symm.trans room) (by decide)
  · exact absurd (ready.symm.trans busy) (by decide)
  · exact h

/-! ## Sending -/

/-- A frame is taken just when it fits and there is room for it. -/
theorem send_fst (l : Link P) (f : Frame) :
    (l.send f).1 = (decide (f.len.toNat ≤ maxPayload) && !l.tx.isFull) := by
  rcases l.send_cases f with ⟨long, h⟩ | ⟨fits, full, h⟩ | ⟨fits, room, h⟩
  · rw [h, decide_eq_false (Nat.not_le_of_lt long), Bool.false_and]
  · rw [h, full, Bool.not_true, Bool.and_false]
  · rw [h, room, decide_eq_true fits]
    rfl

@[simp] theorem rx_send (l : Link P) (f : Frame) : (l.send f).2.rx = l.rx := by
  rcases l.send_cases f with ⟨-, h⟩ | ⟨-, -, h⟩ | ⟨-, -, h⟩ <;> rw [h]
  · rfl
  · dsimp only
    split <;> rfl

/-- A frame that is taken waits behind the others, and one that is refused changes nothing. -/
theorem waiting_send (l : Link P) (f : Frame) :
    (l.send f).2.tx.waiting = l.tx.waiting ++ if (l.send f).1 then [f.bytes] else [] := by
  have hstored := l.tx.waiting_enqueue f
  rcases l.send_cases f with ⟨-, h⟩ | ⟨-, -, h⟩ | ⟨-, room, h⟩
  · rw [h]
    exact (List.append_nil _).symm
  · rw [h]
    exact (List.append_nil _).symm
  · rw [FrameRing.enqueue_fst, room] at hstored
    rw [h]
    dsimp only
    split <;> exact hstored

/-! ## Transfers -/

theorem sameRings_announce (l : Link P) : SameRings l l.announce := by
  rw [announce]
  split <;> exact ⟨rfl, rfl⟩

theorem sameRings_exchangeAll (bytes : List UInt8) :
    ∀ l : Link P, SameRings l (l.exchangeAll bytes).2 := by
  induction bytes with
  | nil =>
      intro l
      exact .refl l
  | cons b rest ih =>
      intro l
      have hfirst : SameRings l (l.exchange b).2 := ⟨rfl, rfl⟩
      rw [exchangeAll]
      generalize l.exchange b = x at hfirst
      rcases x with ⟨_ | reply, l'⟩
      · exact hfirst
      · have hrest := hfirst.trans (ih l')
        dsimp only at hrest ⊢
        generalize l'.exchangeAll rest = y at hrest
        rcases y with ⟨_ | replies, l''⟩ <;> exact hrest

/-- Clocking a frame does not look at the rings. -/
theorem sameRings_clock (l : Link P) (out : Frame) : SameRings l (l.clock out).2 := by
  have hstatus : SameRings l (l.exchange out.len).2 := ⟨rfl, rfl⟩
  rw [clock]
  generalize l.exchange out.len = x at hstatus
  rcases x with ⟨_ | status, l₁⟩
  · exact hstatus
  have hlength : SameRings l (l₁.exchange (out.room.headD 0)).2 := hstatus.trans ⟨rfl, rfl⟩
  dsimp only
  generalize l₁.exchange (out.room.headD 0) = x at hlength
  rcases x with ⟨_ | announced, l₂⟩
  · exact hlength
  have hnoted : SameRings l
      (if maxPayload < announced.toNat then l₂.note (truncating announced) else l₂) := by
    split
    · exact hlength.note _
    · exact hlength
  have hall := hnoted.trans
    (sameRings_exchangeAll ((out.room.tail ++ [0]).take (trailing out announced)) _)
  dsimp only
  generalize exchangeAll (P := P) _ ((out.room.tail ++ [0]).take (trailing out announced)) = x
    at hall
  rcases x with ⟨_ | replies, l₃⟩
  · exact hall
  · exact hall.note _

@[simp] theorem tx_clockNext (l : Link P) : l.clockNext.2.tx = l.tx.dequeue.2 :=
  (sameRings_clock _ _).tx

@[simp] theorem rx_clockNext (l : Link P) : l.clockNext.2.rx = l.rx := (sameRings_clock _ _).rx

omit [Port P] in
@[simp] theorem port_deliver (l : Link P) (f : Frame) : (l.deliver f).port = l.port := by
  rw [deliver]
  split
  · rfl
  · split <;> rfl

omit [Port P] in
@[simp] theorem tx_deliver (l : Link P) (f : Frame) : (l.deliver f).tx = l.tx := by
  rw [deliver]
  split
  · rfl
  · split <;> rfl

omit [Port P] in
/-- With room for it, a frame that is not empty is kept. -/
theorem waiting_deliver {l : Link P} (room : l.rx.isFull = false) (f : Frame) :
    (l.deliver f).rx.waiting = l.rx.waiting ++ if f.isEmpty then [] else [f.bytes] := by
  have hq := l.rx.waiting_enqueue f
  have taken : (l.rx.enqueue f).1 = true := by rw [FrameRing.enqueue_fst, room]; rfl
  rw [deliver]
  split
  · simp
  · cases hx : l.rx.enqueue f with
    | mk t rx =>
        rw [hx] at hq taken
        obtain rfl : t = true := taken
        exact hq

/-- A transfer takes one frame to send and brings in one at most. -/
theorem rings_transfer {l : Link P} (room : l.rx.isFull = false) :
    l.transfer.2.tx = l.tx.dequeue.2 ∧
      ∃ received : Option (List UInt8),
        l.transfer.2.rx.waiting = l.rx.waiting ++ received.toList := by
  rcases l.transfer_cases with ⟨e, -, h⟩ | ⟨f, -, h⟩
  · refine ⟨?_, none, ?_⟩
    · rw [h, tx_note, tx_setRequest, tx_clockNext]
    · rw [h, rx_note, rx_setRequest, rx_clockNext, Option.toList_none, List.append_nil]
  · have hrx : (l.clockNext.2.setRequest false).announce.rx = l.rx := by
      rw [(sameRings_announce _).rx, rx_setRequest, rx_clockNext]
    refine ⟨?_, if f.isEmpty then none else some f.bytes, ?_⟩
    · rw [h, tx_deliver, (sameRings_announce _).tx, tx_setRequest, tx_clockNext]
    · rw [h, waiting_deliver (hrx ▸ room), hrx]
      cases f.isEmpty <;> rfl

/-- A turn of the link is a transfer, or it leaves the rings as they are. -/
theorem rings_poll (l : Link P) :
    SameRings l l.poll.2 ∨ l.poll.2.tx = l.tx.dequeue.2 ∧
      ∃ received : Option (List UInt8),
        l.poll.2.rx.waiting = l.rx.waiting ++ received.toList := by
  have hlooked : SameRings l l.isReady.2 := ⟨rfl, rfl⟩
  rcases l.poll_cases with ⟨-, hpoll⟩ | ⟨-, -, hpoll⟩ | ⟨room, -, hpoll⟩
  · rw [hpoll]
    exact .inl (.refl l)
  · rw [hpoll]
    split
    · exact .inl hlooked
    · exact .inl (hlooked.trans ⟨rfl, rfl⟩)
  · have hrings := rings_transfer (l := l.isReady.2) (hlooked.rx ▸ room)
    rw [hlooked.tx, hlooked.rx] at hrings
    rw [hpoll]
    exact .inr hrings

/-! ## Receiving -/

/-- When all received frames have been taken, the next one is taken at once, and whenever there was
one to take, a frame has been sent before. -/
theorem rings_tryReceive {l : Link P} (none : l.rx.waiting = []) :
    l.tryReceive.2.rx.waiting = [] ∧
      (l.tryReceive.1.isSome = true → l.tryReceive.2.tx = l.tx.dequeue.2) := by
  have room : l.rx.isFull = false := by
    rw [Bool.eq_false_iff, Ne, FrameRing.isFull_iff_waiting, none]
    decide
  rw [tryReceive, room]
  simp only [Bool.false_eq_true, if_false]
  have hpoll := l.rings_poll
  generalize l.poll.2 = turn at hpoll
  rw [(sameRings_announce _).rx, (sameRings_announce _).tx, FrameRing.waiting_dequeue_snd]
  rcases hpoll with hsame | ⟨htx, received, hrx⟩
  · -- nothing has come in, so nothing is taken
    have hwait := turn.rx.waiting_dequeue
    rw [hsame.rx, none] at hwait
    refine ⟨by rw [hsame.rx, none]; rfl, fun some ↦ ?_⟩
    rw [hsame.rx] at some
    cases htaken : l.rx.dequeue.1 with
    | none => simp [htaken] at some
    | some f => simp [htaken] at hwait
  · refine ⟨?_, fun _ ↦ htx⟩
    rw [hrx, none]
    cases received <;> rfl

end Link

end RadioBoot
