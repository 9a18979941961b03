import RadioBoot.Proofs.Command.RoundTrip
import RadioBoot.Proofs.Link.Rings
import RadioBoot.Session

/-!
# What a session asks of the link

Over any port, a command that fits a frame is taken whole whenever there is room for it, and else
nothing happens at all (`sendCommand_cases`).  What it means to be taken is in `Link.Takes`: one
frame waits behind the others, and the radio is asked for a transfer unless there is no room for
what comes in with it.  The calls of a session that send follow this pattern (`connect_cases`,
`disconnect_cases`), and data needs an open pipe and a credit besides (`sendData_of_short`);
`order_cases` says it for all of them at once.

Receiving leaves a session as it was, or brings it up to date with the event that is returned
(`nextEvent_cases`), and there is always room when an event has been received
(`room_of_nextEvent`).
-/

namespace RadioBoot

variable {P : Type} [Port P]

namespace FrameRing

variable {slots : Nat}

/-- How many more frames can wait. -/
def free (r : FrameRing slots) : Nat := r.capacity - r.size

theorem free_eq_zero_iff {r : FrameRing slots} : r.free = 0 ↔ r.isFull = true := by
  have hlt := r.size_lt
  rw [isFull_iff, free, capacity]
  omega

end FrameRing

namespace Link

/-! ## Taking commands -/

/-- From `l` to `l'` the link has taken the command `c`, which fits a frame, and nothing else has
happened to the rings or the port. -/
structure Takes (l : Link P) (c : Command) (l' : Link P) : Prop where
  short : c.params.length < maxPayload
  tx : ∃ f, l'.tx.toList = l.tx.toList ++ [f] ∧ f.bytes = c.bytes
  rx : l'.rx = l.rx
  port : l'.port = if l.rx.isFull then l.port else (Port.setRequest l.port true).value

/-- From `l` to `l'` the link has taken these commands, one after the other. -/
inductive TakesAll : Link P → List Command → Link P → Prop
  | nil (l : Link P) : TakesAll l [] l
  | cons {l l' l'' : Link P} {c : Command} {cs : List Command} :
      Takes l c l' → TakesAll l' cs l'' → TakesAll l (c :: cs) l''

variable {l l' : Link P} {c : Command} {cs : List Command}

theorem Takes.note (h : Takes l c l') (line : Line) : Takes l c (l'.note line) :=
  ⟨h.short, h.tx, h.rx, h.port⟩

theorem Takes.waiting (h : Takes l c l') : l'.tx.waiting = l.tx.waiting ++ [c.bytes] := by
  obtain ⟨f, hlist, hbytes⟩ := h.tx
  rw [FrameRing.waiting, hlist, List.map_append, List.map_singleton, hbytes]
  rfl

/-- There was room for it, and now there is less. -/
theorem Takes.free (h : Takes l c l') : l.tx.free = l'.tx.free + 1 := by
  have hsize := congrArg List.length h.waiting
  have hlt := l'.tx.size_lt
  rw [List.length_append, List.length_singleton, FrameRing.length_waiting,
    FrameRing.length_waiting] at hsize
  simp only [FrameRing.free, FrameRing.capacity]
  omega

theorem TakesAll.waiting (h : TakesAll l cs l') :
    l'.tx.waiting = l.tx.waiting ++ cs.map Command.bytes := by
  induction h with
  | nil l => exact (List.append_nil _).symm
  | cons htakes _ ih => rw [ih, htakes.waiting, List.append_assoc, List.map_cons,
      List.singleton_append]

theorem TakesAll.rx (h : TakesAll l cs l') : l'.rx = l.rx := by
  induction h with
  | nil l => rfl
  | cons htakes _ ih => rw [ih, htakes.rx]

/-- Each of them has taken one of the free places. -/
theorem TakesAll.free (h : TakesAll l cs l') : l.tx.free = l'.tx.free + cs.length := by
  induction h with
  | nil l => rfl
  | cons htakes _ ih => rw [htakes.free, ih, List.length_cons, Nat.add_assoc]

/-- The frames that say the commands wait behind the others, in order. -/
theorem TakesAll.toList (h : TakesAll l cs l') :
    ∃ frames, l'.tx.toList = l.tx.toList ++ frames ∧
      frames.map Frame.bytes = cs.map Command.bytes := by
  induction h with
  | nil l => exact ⟨[], (List.append_nil _).symm, rfl⟩
  | cons htakes _ ih =>
      obtain ⟨f, hlist, hbytes⟩ := htakes.tx
      obtain ⟨frames, hrest, hmap⟩ := ih
      refine ⟨f :: frames, ?_, ?_⟩
      · rw [hrest, hlist, List.append_assoc, List.singleton_append]
      · rw [List.map_cons, List.map_cons, hbytes, hmap]

/-- They are read as these commands. -/
theorem TakesAll.decode (h : TakesAll l cs l') :
    ∃ frames, l'.tx.toList = l.tx.toList ++ frames ∧
      frames.map Command.decode = cs.map Except.ok := by
  obtain ⟨frames, hlist, hbytes⟩ := h.toList
  refine ⟨frames, hlist, ?_⟩
  calc frames.map Command.decode
      = (frames.map Frame.bytes).map Command.read := by
        rw [List.map_map]
        exact List.map_congr_left fun f _ ↦ Command.decode_eq_read f
    _ = (cs.map Command.bytes).map Command.read := by rw [hbytes]
    _ = cs.map Except.ok := by
        rw [List.map_map]
        exact List.map_congr_left fun c _ ↦ c.read_bytes

/-- A frame that says a command is taken just when there is room for it. -/
theorem send_of_encode (l : Link P) {f : Frame} (short : c.params.length < maxPayload)
    (hf : c.encode = .ok f) :
    l.tx.isFull = true ∧ l.send f = (false, l) ∨
      l.tx.isFull = false ∧ ∃ l', l.send f = (true, l') ∧ l.Takes c l' := by
  have fits := (Frame.Sendable.of_encode hf).2.fits
  rcases l.send_cases f with ⟨long, -⟩ | ⟨-, full, hsend⟩ | ⟨-, room, hsend⟩
  · exact absurd fits (Nat.not_le_of_lt long)
  · exact .inl ⟨full, hsend⟩
  · refine .inr ⟨room, _, hsend, ⟨short, ?_, ?_, ?_⟩⟩
    · refine ⟨f.storedOver (l.tx.cell l.tx.tail), ?_, ?_⟩
      · split <;> exact FrameRing.toList_enqueue room f
      · rw [Frame.bytes_storedOver, Command.bytes_of_encode hf]
    · split <;> rfl
    · split <;> rfl

end Link

namespace PipeMap

/-- Whether the bit of `pipe` is set, also for a pipe that the radio does not have. -/
def marks (m : PipeMap) (pipe : UInt8) : Bool :=
  (m.bytes.getD (pipe.toNat / 8) 0).toBitVec.getLsbD (pipe.toNat % 8)

theorem contains_iff (m : PipeMap) (pipe : UInt8) :
    m.contains pipe = true ↔ pipe < maxPipes ∧ m.marks pipe = true := by
  rw [contains, Bool.and_eq_true, decide_eq_true_iff]
  rfl

end PipeMap

namespace Session

/-! ## Credit -/

/-- The session with so many credits less. -/
def spend (s : Session) (credits : Nat) : Session :=
  { s with available := s.available - .ofNat credits }

@[simp] theorem spend_zero (s : Session) : s.spend 0 = s := by
  simp [spend]

theorem spend_spend (s : Session) (m n : Nat) : (s.spend m).spend n = s.spend (n + m) := by
  have hsum : s.available - .ofNat m - .ofNat n = s.available - .ofNat (n + m) := by
    rw [UInt8.ofNat_add]
    grind
  simp only [spend, hsum]

theorem toNat_available_spend {s : Session} {credits : Nat} (h : credits ≤ s.available.toNat) :
    (s.spend credits).available.toNat + credits = s.available.toNat := by
  have hcredits : (UInt8.ofNat credits).toNat = credits :=
    UInt8.toNat_ofNat_of_lt' (Nat.lt_of_le_of_lt h s.available.toNat_lt)
  have hle : UInt8.ofNat credits ≤ s.available := by
    rw [UInt8.le_iff_toNat_le, hcredits]
    exact h
  rw [spend, UInt8.toNat_sub_of_le _ _ hle, hcredits]
  exact Nat.sub_add_cancel h

/-! ## Giving commands -/

/-- A command that fits is taken just when there is room for it. -/
theorem sendCommand_cases (l : Link P) {c : Command} (short : c.params.length < maxPayload) :
    l.tx.isFull = true ∧ sendCommand l c = (false, l) ∨
      l.tx.isFull = false ∧ ∃ l', sendCommand l c = (true, l') ∧ l.Takes c l' := by
  obtain ⟨f, hf⟩ := Command.encode_of_short short
  rw [sendCommand, hf]
  exact l.send_of_encode short hf

theorem connect_cases (l : Link P) (timeout interval : UInt16) :
    l.tx.isFull = true ∧ connect l timeout interval = (false, l) ∨
      l.tx.isFull = false ∧ ∃ l', connect l timeout interval = (true, l') ∧
        l.Takes (.connect timeout interval) l' := by
  rw [connect]
  rcases sendCommand_cases l (c := .connect timeout interval) (by decide : 4 < 31) with
    ⟨full, h⟩ | ⟨room, l', h, htakes⟩
  · rw [h]
    exact .inl ⟨full, rfl⟩
  · rw [h]
    exact .inr ⟨room, _, rfl, htakes.note _⟩

/-- A session has no open pipes any more when the link has taken the request. -/
theorem disconnect_cases (s : Session) (l : Link P) (reason : UInt8) :
    l.tx.isFull = true ∧ s.disconnect l reason = (false, s, l) ∨
      l.tx.isFull = false ∧ ∃ l', s.disconnect l reason =
          (true, { s with opened := .empty, closed := .empty }, l') ∧
        l.Takes (.disconnect reason) l' := by
  rw [disconnect]
  rcases sendCommand_cases l (c := .disconnect reason) (by decide : 1 < 31) with
    ⟨full, h⟩ | ⟨room, l', h, htakes⟩
  · rw [h]
    exact .inl ⟨full, rfl⟩
  · rw [h]
    exact .inr ⟨room, l', rfl, htakes⟩

/-- Data that is too long is refused, and at most the log says so. -/
theorem sendData_of_long (s : Session) (l : Link P) (pipe : UInt8) {data : List UInt8}
    (long : maxPipeData < data.length) :
    ∃ log, s.sendData l pipe data = (false, s, { l with log }) := by
  have hencode : (Command.sendData pipe data).encode =
      .error (.payloadTooLarge data.length maxPipeData) :=
    Command.encode_eq_error_iff.mpr ⟨pipe, data, rfl, long, rfl⟩
  rw [sendData, hencode]
  split <;> exact ⟨_, rfl⟩

/-- Data that fits is taken at the price of one credit, or nothing happens at all. -/
theorem sendData_of_short (s : Session) (l : Link P) (pipe : UInt8) {data : List UInt8}
    (short : data.length ≤ maxPipeData) :
    ¬(s.isAvailable pipe = true ∧ s.available ≠ 0 ∧ l.tx.isFull = false) ∧
        s.sendData l pipe data = (false, s, l) ∨
      (s.isAvailable pipe = true ∧ s.available ≠ 0 ∧ l.tx.isFull = false) ∧
        ∃ l', s.sendData l pipe data = (true, { s with available := s.available - 1 }, l') ∧
          l.Takes (.sendData pipe data) l' := by
  have short : (Command.sendData pipe data).params.length < maxPayload := by
    refine Command.params_fit_iff.mpr fun _ _ hc ↦ ?_
    obtain ⟨rfl, rfl⟩ := Command.sendData.inj hc
    exact short
  obtain ⟨f, hf⟩ := Command.encode_of_short short
  rw [sendData, hf]
  by_cases usable : s.isAvailable pipe = true ∧ s.available ≠ 0
  · rw [if_neg (by simp [usable])]
    rcases l.send_of_encode short hf with ⟨full, h⟩ | ⟨room, l', h, htakes⟩
    · dsimp only
      rw [h]
      exact .inl ⟨by simp [full], rfl⟩
    · dsimp only
      rw [h]
      exact .inr ⟨⟨usable.1, usable.2, room⟩, l', rfl, htakes⟩
  · rw [if_pos (by simpa [Decidable.imp_iff_not_or] using usable)]
    exact .inl ⟨fun h ↦ usable ⟨h.1, h.2.1⟩, rfl⟩

/-! ## All commands -/

/-- Give a command to the link, by the call that is there for it, and say whether it was taken. -/
def order (s : Session) (l : Link P) : Command → Bool × Session × Link P
  | .radioReset => ((radioReset l).1, s, (radioReset l).2)
  | .connect timeout interval =>
    ((connect l timeout interval).1, s, (connect l timeout interval).2)
  | .disconnect reason => s.disconnect l reason
  | .sendData pipe data => s.sendData l pipe data

/-- Whether a session may give this command.  Only data asks for something: its pipe is open, there
is a credit left, and a frame has room for it. -/
def Permits (s : Session) : Command → Prop
  | .sendData pipe data =>
    (pipe < 62 ∧ s.opened.marks pipe = true) ∧ 0 < s.available.toNat ∧ data.length ≤ 29
  | _ => True

/-- The session when this command has been taken: data costs one credit, and a disconnect leaves no
pipe in either map. -/
def charged (s : Session) : Command → Session
  | .sendData .. => { s with available := s.available - 1 }
  | .disconnect _ => { s with opened := .empty, closed := .empty }
  | _ => s

theorem permits_sendData_iff {s : Session} {pipe : UInt8} {data : List UInt8} :
    s.Permits (.sendData pipe data) ↔
      s.isAvailable pipe = true ∧ s.available ≠ 0 ∧ data.length ≤ maxPipeData := by
  have hcredit : 0 < s.available.toNat ↔ s.available ≠ 0 := by
    rw [Nat.pos_iff_ne_zero, Ne, Ne, ← UInt8.toNat_inj]
    rfl
  rw [Permits, isAvailable, PipeMap.contains_iff, hcredit]
  rfl

/-- A command is refused, and at most the log says so, or it is permitted and taken whole. -/
theorem order_cases (s : Session) (l : Link P) (c : Command) :
    ¬(s.Permits c ∧ l.tx.isFull = false) ∧ (∃ log, s.order l c = (false, s, { l with log })) ∨
      (s.Permits c ∧ l.tx.isFull = false) ∧
        ∃ l', s.order l c = (true, s.charged c, l') ∧ l.Takes c l' := by
  cases c with
  | radioReset =>
      rcases sendCommand_cases l (c := .radioReset) (by decide : 0 < 31) with
        ⟨full, h⟩ | ⟨room, l', h, htakes⟩ <;> rw [order, radioReset, h]
      · exact .inl ⟨by simp [full], _, rfl⟩
      · exact .inr ⟨⟨trivial, room⟩, l', rfl, htakes⟩
  | connect timeout interval =>
      rcases connect_cases l timeout interval with ⟨full, h⟩ | ⟨room, l', h, htakes⟩ <;>
        rw [order, h]
      · exact .inl ⟨by simp [full], _, rfl⟩
      · exact .inr ⟨⟨trivial, room⟩, l', rfl, htakes⟩
  | disconnect reason =>
      rcases s.disconnect_cases l reason with ⟨full, h⟩ | ⟨room, l', h, htakes⟩ <;> rw [order, h]
      · exact .inl ⟨by simp [full], _, rfl⟩
      · exact .inr ⟨⟨trivial, room⟩, l', rfl, htakes⟩
  | sendData pipe data =>
      rw [order, permits_sendData_iff]
      by_cases short : data.length ≤ maxPipeData
      · rcases s.sendData_of_short l pipe short with ⟨refused, h⟩ | ⟨usable, l', h, htakes⟩ <;>
          rw [h]
        · exact .inl ⟨fun permits ↦ refused ⟨permits.1.1, permits.1.2.1, permits.2⟩, _, rfl⟩
        · exact .inr ⟨⟨⟨usable.1, usable.2.1, short⟩, usable.2.2⟩, l', rfl, htakes⟩
      · exact .inl ⟨fun permits ↦ short permits.1.2.2,
          s.sendData_of_long l pipe (Nat.lt_of_not_le short)⟩

/-- Giving a command does not touch what has been received. -/
theorem rx_order (s : Session) (l : Link P) (c : Command) : (s.order l c).2.2.rx = l.rx := by
  rcases s.order_cases l c with ⟨-, log, h⟩ | ⟨-, l', h, htakes⟩ <;> rw [h]
  exact htakes.rx

/-! ## Receiving -/

/-- Reading what has been received does nothing to the link but log. -/
theorem nextEvent_link (s : Session) (l : Link P) :
    ∃ log, (s.nextEvent l).2.2 = { l.tryReceive.2 with log } := by
  rw [nextEvent]
  rcases l.tryReceive with ⟨_ | f, l'⟩
  · exact ⟨_, rfl⟩
  · dsimp only
    cases Event.decode f with
    | error e => exact ⟨_, rfl⟩
    | ok event => exact ⟨_, rfl⟩

/-- Receiving leaves the session as it was, or it brings the session up to date with the event that
it returns, which is the one that the received frame holds. -/
theorem nextEvent_cases (s : Session) (l : Link P) :
    (s.nextEvent l).1 = none ∧ (s.nextEvent l).2.1 = s ∨
      ∃ f e, l.tryReceive.1 = some f ∧ Event.decode f = .ok e ∧ (s.nextEvent l).1 = some e ∧
        (s.nextEvent l).2.1 = (s.apply e).value := by
  rw [nextEvent]
  rcases l.tryReceive with ⟨_ | f, l'⟩
  · exact .inl ⟨rfl, rfl⟩
  · dsimp only
    cases hf : Event.decode f with
    | error e => exact .inl ⟨rfl, rfl⟩
    | ok event => exact .inr ⟨f, event, rfl, hf, rfl, rfl⟩

/-- When all received frames have been taken, so is the one that is received next, and before every
event that is received, the oldest frame to send has been sent. -/
theorem rings_nextEvent {s : Session} {l : Link P} (none : l.rx.waiting = []) :
    (s.nextEvent l).2.2.rx.waiting = [] ∧
      ((s.nextEvent l).1.isSome = true → (s.nextEvent l).2.2.tx = l.tx.dequeue.2) := by
  obtain ⟨hrx, htx⟩ := Link.rings_tryReceive none
  obtain ⟨log, hlink⟩ := s.nextEvent_link l
  rw [hlink]
  refine ⟨hrx, fun some ↦ ?_⟩
  rcases s.nextEvent_cases l with ⟨hnone, _⟩ | ⟨f, _, hf, _⟩
  · simp [hnone] at some
  · exact htx (by simp [hf])

/-- So there is room for a command after every event. -/
theorem room_of_nextEvent {s : Session} {l : Link P} (none : l.rx.waiting = [])
    (some : (s.nextEvent l).1.isSome = true) : (s.nextEvent l).2.2.tx.isFull = false :=
  (rings_nextEvent none).2 some ▸ FrameRing.isFull_dequeue (by decide) _

end Session

end RadioBoot
