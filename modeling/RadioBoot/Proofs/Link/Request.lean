import RadioBoot.Proofs.Link.Handshake

/-!
# The request line

The host asserts the request line to say that it has something to send, and the radio sees nothing
else of what waits.  Four operations drive the line, each under conditions of its own: a frame that
is taken asserts it, unless a full ring of received frames suspends the link; so does a turn that
finds the radio busy; a transfer releases it, and asserts it again if more waits; and taking a
received frame, which may end such a suspension, asserts it once more.

What all of them keep is `Announcing`: the line is never asserted for nothing, and it is asserted
for what waits while there is room for a received frame.  The second half is lost when an exchange
fails, for then the line stays released whatever waits behind the frame that is dropped; the next
time that a frame is asked for brings it back (`request_announces`).
-/

namespace RadioBoot

namespace Port.Call

/-! ## The level of the line -/

/-- The level that a call drives the request line to, if it drives it. -/
def driven? : Call → Option Bool
  | .setRequest on => some on
  | _ => none

/-- The level that the request line was last driven to. -/
def lastDriven (calls : List Call) : Option Bool := (calls.filterMap driven?).getLast?

theorem lastDriven_append (calls more : List Call) :
    lastDriven (calls ++ more) = (lastDriven more).or (lastDriven calls) := by
  rw [lastDriven, List.filterMap_append, List.getLast?_append]
  rfl

end Port.Call

namespace Link

open Port.Call (lastDriven fails)

variable {P : Type}

/-- The request line is asserted only for a frame that waits, and while there is room for a received
frame and no exchange has failed, it is asserted for every one. -/
structure Announcing (l : Link (Port.Traced P)) : Prop where
  honest : lastDriven l.port.calls = some true → l.tx.isEmpty = false
  eager : (∀ c ∈ l.port.calls, c.fails = false) → l.rx.isFull = false → l.tx.isEmpty = false →
    lastDriven l.port.calls = some true

variable [Port P] {l : Link (Port.Traced P)}

/-! ## Operations -/

theorem lastDriven_setRequest (l : Link (Port.Traced P)) (on : Bool) :
    lastDriven (l.setRequest on).port.calls = some on := by
  rw [calls_setRequest, Port.Call.lastDriven_append]
  rfl

/-- Announcing sets the line right, unless it is asserted for nothing. -/
theorem lastDriven_announce (honest : lastDriven l.port.calls = some true → l.tx.isEmpty = false)
    (room : l.rx.isFull = false) :
    lastDriven l.announce.port.calls = some true ↔ l.announce.tx.isEmpty = false := by
  rw [(sameRings_announce l).tx, announce, room]
  cases none : l.tx.isEmpty with
  | true => simpa [none] using honest
  | false => simpa using lastDriven_setRequest l true

/-- And it does not assert the line for nothing. -/
theorem honest_announce (honest : lastDriven l.port.calls = some true → l.tx.isEmpty = false) :
    lastDriven l.announce.port.calls = some true → l.announce.tx.isEmpty = false := by
  cases full : l.rx.isFull with
  | true =>
      rw [announce, full]
      exact honest
  | false => exact (lastDriven_announce honest full).mp

theorem announcing_send (h : l.Announcing) (f : Frame) : (l.send f).2.Announcing := by
  rcases l.send_cases f with ⟨-, hsend⟩ | ⟨-, -, hsend⟩ | ⟨-, room, hsend⟩
  · rw [hsend]
    exact ⟨h.honest, h.eager⟩
  · rw [hsend]
    exact h
  · have some : (l.tx.enqueue f).2.isEmpty = false := by
      rw [FrameRing.isEmpty_eq, FrameRing.waiting_enqueue, FrameRing.enqueue_fst, room]
      simp
    rw [hsend]
    dsimp only
    split
    · rename_i full
      exact ⟨fun _ ↦ some, fun _ room ↦ absurd full (by simp [room])⟩
    · exact ⟨fun _ ↦ some, fun _ _ _ ↦ lastDriven_setRequest _ true⟩

/-- A transfer leaves the line right whatever it was before, if no exchange fails; else it leaves
it released. -/
theorem announcing_transfer (room : l.rx.isFull = false) : l.transfer.2.Announcing := by
  have released := l.clockNext.2.lastDriven_setRequest false
  rcases l.transfer_cases with ⟨e, failed, h⟩ | ⟨f, -, h⟩ <;> rw [h]
  · obtain ⟨e', -, xs, b, hcalls⟩ := l.clockNext_spec.resolve_left (by simp [failed])
    refine ⟨fun asserted ↦ ?_, fun passes ↦ ?_⟩
    · rw [port_note, released] at asserted
      exact absurd asserted (by simp)
    · have failed := passes (.exchange b (.error e')) (by
        rw [port_note, calls_setRequest, hcalls]
        simp)
      exact absurd failed (by simp [fails])
  · have kept : (l.clockNext.2.setRequest false).rx.isFull = false := by
      rw [rx_setRequest, rx_clockNext]
      exact room
    have right := lastDriven_announce (fun asserted ↦ absurd (released.symm.trans asserted)
      (by simp)) kept
    refine ⟨fun asserted ↦ ?_, fun _ _ waits ↦ ?_⟩
    · rw [port_deliver] at asserted
      rw [tx_deliver]
      exact right.mp asserted
    · rw [tx_deliver] at waits
      rw [port_deliver]
      exact right.mpr waits

theorem announcing_poll (h : l.Announcing) : l.poll.2.Announcing := by
  have unchanged : lastDriven l.isReady.2.port.calls = lastDriven l.port.calls := by
    rw [calls_isReady, Port.Call.lastDriven_append]
    rfl
  rcases l.poll_cases with ⟨-, hpoll⟩ | ⟨-, -, hpoll⟩ | ⟨room, -, hpoll⟩ <;> rw [hpoll]
  · exact h
  · dsimp only
    split
    · rename_i none
      exact ⟨fun asserted ↦ h.honest (unchanged ▸ asserted), fun _ _ waits ↦
        absurd (none.symm.trans waits) (by decide)⟩
    · rename_i some
      exact ⟨fun _ ↦ Bool.eq_false_iff.mpr some, fun _ _ _ ↦ lastDriven_setRequest _ true⟩
  · exact announcing_transfer room

/-- Taking a frame ends with announcing, after a turn that keeps the line as it should be. -/
theorem tryReceive_announces (h : l.Announcing) :
    ∃ turn : Link (Port.Traced P), l.tryReceive.2 = turn.announce ∧
      (lastDriven turn.port.calls = some true → turn.tx.isEmpty = false) := by
  have hturn : (if l.rx.isFull then l else l.poll.2).Announcing := by
    split
    · exact h
    · exact announcing_poll h
  exact ⟨_, rfl, hturn.honest⟩

/-- So once a frame has been asked for, the line is right, also after a failure. -/
theorem lastDriven_tryReceive (h : l.Announcing) (room : l.tryReceive.2.rx.isFull = false) :
    lastDriven l.tryReceive.2.port.calls = some true ↔ l.tryReceive.2.tx.isEmpty = false := by
  obtain ⟨turn, hturn, honest⟩ := tryReceive_announces h
  rw [hturn] at room ⊢
  rw [(sameRings_announce turn).rx] at room
  exact lastDriven_announce honest room

/-- Every operation keeps the line as it should be, unless it forgets what waits and leaves the line
alone. -/
theorem announcing_operate (h : l.Announcing) {op : Operation} (kept : op ≠ .flush) :
    (l.operate op).Announcing := by
  cases op with
  | send f => exact announcing_send h f
  | poll => exact announcing_poll h
  | tryReceive =>
      obtain ⟨turn, hturn, honest⟩ := tryReceive_announces h
      refine ⟨?_, fun _ room waits ↦ (lastDriven_tryReceive h room).mpr waits⟩
      rw [operate, hturn]
      exact honest_announce honest
  | flush => exact absurd rfl kept
  | pinReset =>
      have released : lastDriven (l.operate .pinReset).port.calls = some false := by
        simp only [operate, pinReset, flush, calls_delay, calls_setRequest, calls_pulseReset,
          List.append_assoc, Port.Call.lastDriven_append]
        rfl
      have none : (l.operate .pinReset).tx.isEmpty = true := by
        rw [operate, pinReset, flush, FrameRing.isEmpty_eq, FrameRing.waiting_clear]
        rfl
      refine ⟨fun asserted ↦ ?_, fun _ _ waits ↦ absurd none (by simp [waits])⟩
      rw [released] at asserted
      exact absurd asserted (by simp)

/-! ## Runs -/

theorem announcing_foldl (port : P) {ops : List Operation} (kept : Operation.flush ∉ ops) :
    (ops.foldl operate (fresh (Port.Traced.fresh port))).Announcing := by
  refine List.foldlRecOn (motive := Announcing) ops operate ⟨fun asserted ↦ ?_, fun _ _ waits ↦ ?_⟩
    fun l h op mem ↦ announcing_operate h fun flush ↦ kept (flush ▸ mem)
  · exact absurd asserted (show none ≠ some true by simp)
  · exact absurd waits (by simp [fresh, FrameRing.isEmpty_eq])

/-- Over any port, after any run of sending, turns, receiving and resets, the request line is
asserted only if a frame waits to be sent.  As long as no exchange has failed and there is room for
a received frame, it is asserted just when one does.  After a failure this holds again as soon as a
frame is asked for. -/
theorem request_announces (port : P) {ops : List Operation} (kept : Operation.flush ∉ ops) :
    let l := ops.foldl operate (fresh (Port.Traced.fresh port))
    (lastDriven l.port.calls = some true → l.tx.isEmpty = false) ∧
      ((∀ c ∈ l.port.calls, c.fails = false) → l.rx.isFull = false →
        (lastDriven l.port.calls = some true ↔ l.tx.isEmpty = false)) ∧
      (l.tryReceive.2.rx.isFull = false →
        (lastDriven l.tryReceive.2.port.calls = some true ↔
          l.tryReceive.2.tx.isEmpty = false)) := by
  intro l
  have h : l.Announcing := announcing_foldl port kept
  exact ⟨h.honest, fun passes room ↦ ⟨h.honest, h.eager passes room⟩, lastDriven_tryReceive h⟩

/-- Of two frames one has been sent; the line is asserted for the other one, until that is sent with
the next frame that is asked for. -/
theorem request_announces_second :
    let ops : List Operation := [.send (.zeroed 0 1 [5]), .send (.zeroed 0 1 [6]), .poll]
    let l := ops.foldl operate (fresh (Port.Traced.fresh ({} : Sim.Radio)))
    Operation.flush ∉ ops ∧ (∀ c ∈ l.port.calls, c.fails = false) ∧ l.rx.isFull = false ∧
      l.tx.isEmpty = false ∧ lastDriven l.port.calls = some true ∧
      l.tryReceive.2.rx.isFull = false ∧ l.tryReceive.2.tx.isEmpty = true ∧
      lastDriven l.tryReceive.2.port.calls ≠ some true := by
  intro ops l
  have kept : Operation.flush ∉ ops := by simp [ops]
  have passes : ∀ c ∈ l.port.calls, c.fails = false := by decide +kernel
  have room : l.rx.isFull = false := by decide +kernel
  have waits : l.tx.isEmpty = false := by decide +kernel
  have room' : l.tryReceive.2.rx.isFull = false := by decide +kernel
  have sent : l.tryReceive.2.tx.isEmpty = true := by decide +kernel
  obtain ⟨-, turn, receive⟩ := request_announces ({} : Sim.Radio) kept
  refine ⟨kept, passes, room, waits, (turn passes room).mpr waits, room', sent, fun asserted ↦ ?_⟩
  have waiting : l.tryReceive.2.tx.isEmpty = false := (receive room').mp asserted
  exact absurd (sent.symm.trans waiting) (by decide)

end Link

end RadioBoot
