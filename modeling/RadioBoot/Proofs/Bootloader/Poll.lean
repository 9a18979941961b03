import RadioBoot.Bootloader
import RadioBoot.Proofs.Session.Traffic
import RadioBoot.Proofs.Update.Write

/-!
# What a poll does

A poll of the bootloader receives one event at most.  An event that reports a write is handed to the
updater; all other events leave the update as it is, and at most commands are sent (`Settles`,
`handle_other`).  Which pending events report a write is decided by their bytes alone
(`Radio.write?`): what is pushed as data is a write (`write?_pushData`), and what a radio adds by
itself is none (`write?_answersTo`).
-/

namespace RadioBoot

open Sim
open Link (Moves Sends)

/-! ## Writes among the events -/

/-- The write that an event reports, if it reports one: the pipe and the bytes. -/
def Event.write? : Event → Option (UInt8 × List UInt8)
  | .dataReceived pipe data => some (pipe, data)
  | _ => none

/-- The write that the bytes of a received frame report. -/
def Event.readWrite? (bs : List UInt8) : Option (UInt8 × List UInt8) :=
  (read bs).toOption.bind write?

/-- The write that the host will hear of an event of the radio. -/
def Sim.Radio.write? (event : List UInt8) : Option (UInt8 × List UInt8) :=
  (heard? event).bind Event.readWrite?

/-- The writes that a radio has still to report, oldest first. -/
def Sim.Radio.writes (r : Radio) : List (UInt8 × List UInt8) := r.pending.filterMap write?

/-- Only one opcode reports writes. -/
theorem Event.write?_ofParams {opcode : UInt8} (h : opcode ≠ 0x8C) (params : List UInt8) :
    (ofParams opcode params).toOption.bind write? = none := by
  have hneeds (op : UInt8) (n : Nat) (build : (Nat → UInt8) → Event)
      (hb : ∀ p, (build p).write? = none) :
      (needs op n params build).toOption.bind write? = none := by
    rw [needs]
    split
    · rfl
    · exact hb _
  unfold ofParams
  split <;> first
    | exact absurd rfl h
    | exact hneeds _ _ _ fun _ ↦ rfl
    | rfl

namespace Sim.Radio

/-- What is heard of an event that declares something starts with its opcode. -/
theorem heard?_cons {len : UInt8} (h : len ≠ 0) (opcode : UInt8) (params : List UInt8) :
    heard? (len :: opcode :: params) = some (.ofNat (min len.toNat maxPayload) :: opcode ::
      overlay params (.replicate (min len.toNat maxPayload - 1) 0)) := by
  have hpos : len.toNat ≠ 0 := fun zero ↦ h (UInt8.toNat_inj.mp zero)
  obtain ⟨n, hn⟩ : ∃ n, min len.toNat maxPayload = n + 1 := by
    refine Nat.exists_eq_add_one_of_ne_zero fun zero ↦ ?_
    rw [maxPayload] at zero
    omega
  rw [heard?, if_neg (by simpa using h), heard]
  simp only [List.headD_cons, List.tail_cons, hn, Nat.add_sub_cancel]
  simp [overlay, List.replicate_succ]

/-- An event with another opcode reports no write. -/
theorem write?_of_opcode {opcode : UInt8} (h : opcode ≠ 0x8C) (len : UInt8) (params : List UInt8) :
    write? (len :: opcode :: params) = none := by
  by_cases hlen : len = 0
  · rw [write?, heard?, if_pos (by simpa using hlen)]
    rfl
  · rw [write?, heard?_cons hlen]
    exact Event.write?_ofParams h _

/-- Data on a pipe is a write, as long as a frame has room for it. -/
theorem write?_pushData (pipe : UInt8) {data : List UInt8} (fits : data.length ≤ maxPipeData) :
    write? (.ofNat (2 + data.length) :: 0x8C :: pipe :: data) = some (pipe, data) := by
  have hdata : Event.pipeData data = data := Event.pipeData_of_fits fits
  rw [maxPipeData, maxPayload] at fits
  have hlen : (UInt8.ofNat (2 + data.length)).toNat = 2 + data.length :=
    UInt8.toNat_ofNat_of_lt' (by simp only [UInt8.size]; omega)
  have hne : UInt8.ofNat (2 + data.length) ≠ 0 := by
    intro h
    rw [h, UInt8.toNat_zero] at hlen
    omega
  have hmin : min (2 + data.length) maxPayload - 1 = data.length + 1 := by
    rw [maxPayload]
    omega
  have hwhole : overlay (pipe :: data) (.replicate (data.length + 1) 0) = pipe :: data := by
    simp [overlay]
  have hwrite : write? (.ofNat (2 + data.length) :: 0x8C :: pipe :: data) =
      some (pipe, Event.pipeData data) := by
    rw [write?, heard?_cons hne, hlen, hmin, hwhole]
    rfl
  rw [hwrite, hdata]

/-- A radio reports no writes by itself. -/
theorem write?_answersTo (r : Radio) (frame : List UInt8) :
    ∀ e ∈ r.answersTo frame, write? e = none := by
  intro e he
  obtain ⟨opcode, params, hopcode, -, rfl⟩ := of_mem_answersTo he
  exact write?_of_opcode hopcode _ _

end Sim.Radio

/-! ## Receiving -/

/-- From a link on which nothing waits to be received, receiving an event takes one from the radio,
and it is a write just when the radio has one write less to report. -/
theorem Session.writes_nextEvent (s : Session) {l : Link Radio} (h : l.Sound)
    (none : l.rx.waiting = []) :
    l.port.writes =
      ((s.nextEvent l).1.bind Event.write?).toList ++ (s.nextEvent l).2.2.port.writes := by
  obtain ⟨recorded, received, hmoves, hevent, hrx⟩ := s.nextEvent_spec h
  have hin := congrArg (List.filterMap Event.readWrite?) hmoves.incoming
  have hans : ((recorded.flatMap l.port.answersTo).filterMap Radio.heard?).filterMap
      Event.readWrite? = [] := by
    rw [List.filterMap_filterMap, List.filterMap_eq_nil_iff]
    intro e he
    obtain ⟨frame, _, he⟩ := List.mem_flatMap.mp he
    exact l.port.write?_answersTo frame e he
  have hwrites (r : Radio) :
      (r.pending.filterMap Radio.heard?).filterMap Event.readWrite? = r.writes := by
    rw [List.filterMap_filterMap]
    rfl
  rw [Link.incoming, Link.incoming, none, hrx none, List.nil_append, List.nil_append,
    List.filterMap_append, List.filterMap_append, hans, List.append_nil, hwrites, hwrites] at hin
  rw [← hin, hevent]
  congr 1
  cases received with
  | none => rfl
  | some bs =>
      change List.filterMap Event.readWrite? [bs] = (Event.readWrite? bs).toList
      cases hw : Event.readWrite? bs <;> simp [hw]

/-- Sending takes nothing from the radio. -/
theorem Link.Sends.writes {l l' : Link Radio} {cs : List Command} (h : Sends l cs l') :
    l'.port.writes = l.port.writes := by
  rw [Radio.writes, h.queues.port.pending, Radio.writes]

/-! ## What leaves the update as it is -/

variable {page : Nat} {F R : Type}

namespace Bootloader

/-- From `b` to `b'` the update is as it was, and the link has at most been given commands. -/
def Settles (b b' : Bootloader page Radio F R) : Prop :=
  Updater.SameUpdate b.updater b'.updater ∧ ∃ cs, Sends b.updater.link cs b'.updater.link

variable {b b' b'' : Bootloader page Radio F R}

theorem Settles.of_sends {cs : List Command} {l : Link Radio} (h : Sends b.updater.link cs l) :
    Settles b (b.withLink l) := ⟨⟨rfl, rfl, rfl⟩, cs, h⟩

theorem Settles.refl (b : Bootloader page Radio F R) : Settles b b :=
  ⟨.refl _, [], .refl _⟩

theorem Settles.trans (h : Settles b b') (h' : Settles b' b'') : Settles b b'' := by
  obtain ⟨hsame, cs, hsends⟩ := h
  obtain ⟨hsame', cs', hsends'⟩ := h'
  exact ⟨hsame.trans hsame', cs ++ cs', hsends.trans hsends'⟩

theorem Settles.tell (h : Settles b b') (e : BootEvent) : Settles b (b'.tell e) := h

theorem Settles.note (h : Settles b b') (line : Line) : Settles b (b'.note line) :=
  h.trans (.of_sends (.of_queues (Link.queues_note _ line)))

theorem settles_advertise (h : b.updater.link.port.Calm) : Settles b b.advertise := by
  have hsends := Session.sends_connect h b.config.connectTimeout b.config.advertisingInterval
  rw [advertise]
  split
  · rename_i l hl
    rw [hl] at hsends
    exact (Settles.of_sends hsends).tell _
  · rename_i l hl
    rw [hl] at hsends
    exact (Settles.of_sends hsends).note _

variable [Flash F] [Restart R]

/-- An event that reports no write is acted on at once, and the update stays as it is. -/
theorem handle_other (h : b.updater.link.port.Calm) (turns : Nat) {e : Event}
    (other : e.write? = none) :
    ∃ alive b', b.handle turns e = .done (alive, b') ∧ Settles b b' := by
  unfold handle
  split
  · exact ⟨_, _, rfl, settles_advertise h⟩
  · exact ⟨_, _, rfl, ((Settles.refl b).note _).trans
      (.of_sends (.of_queues (Link.queues_delay _ errorBackoff)))⟩
  · exact ⟨_, _, rfl, (Settles.refl b).note _⟩
  · split
    · exact ⟨_, _, rfl, (Settles.refl b).note _⟩
    · split
      · exact ⟨_, _, rfl, settles_advertise h⟩
      · exact ⟨_, _, rfl, .refl b⟩
  · exact ⟨_, _, rfl, ((Settles.refl b).note _).tell _⟩
  · have hlost (line : Line) : Settles b ((b.note line).tell .disconnected) :=
      ((Settles.refl b).note line).tell _
    refine ⟨_, _, rfl, ?_⟩
    split
    · exact hlost _
    · exact (hlost _).trans (settles_advertise h)
  · exact ⟨_, _, rfl, .refl b⟩
  · exact ⟨_, _, rfl, .refl b⟩
  · exact absurd other (by simp [Event.write?])
  · exact ⟨_, _, rfl, .refl b⟩

/-! ## Writes -/

/-- A write that does not reset sends at most commands. -/
theorem write_sends {u : Updater page Radio F R} (h : u.link.port.Calm) {pipe : UInt8}
    {data : List UInt8} (stays : u.pipes.resets u.phase pipe data = false) (turns : Nat) :
    ∃ v cs, u.write turns pipe data = .done v ∧ Updater.Takes u (pipe, data) v ∧
      Sends u.link cs v.link := by
  obtain ⟨v, hv, htakes⟩ := u.write_takes stays turns
  suffices hsends : ∃ cs, Sends u.link cs v.link by
    obtain ⟨cs, hsends⟩ := hsends
    exact ⟨v, cs, hv, htakes, hsends⟩
  rw [Updater.write_eq] at hv
  split at hv
  · obtain rfl := Progress.done.inj hv
    exact ⟨[], .refl _⟩
  · rename_i r s _
    obtain rfl := Progress.done.inj hv
    have hstep : Sends u.link [] (u.step s r.data).link :=
      Updater.sends_performAll (u.transfer.step u.flash s r.data).effects { u with
        transfer := (u.transfer.step u.flash s r.data).transfer
        flash := (u.transfer.step u.flash s r.data).flash }
    obtain ⟨_, _, hflush⟩ := (u.step s r.data).sends_flushResponses (hstep.calm h)
    exact ⟨_, hstep.trans hflush⟩
  · rename_i hlead
    rw [UpdatePipes.resets, hlead] at stays
    exact absurd stays (by simp)

/-- A write to the update service is handed over. -/
theorem feed_takes (h : b.updater.link.port.Calm) {pipe : UInt8} {data : List UInt8}
    (stays : b.updater.pipes.resets b.phase pipe data = false) (turns : Nat) :
    ∃ b' cs, b.feed turns pipe data = .done b' ∧
      Updater.Takes b.updater (pipe, data) b'.updater ∧
      Sends b.updater.link cs b'.updater.link := by
  obtain ⟨v, cs, hv, htakes, hsends⟩ := write_sends h stays turns
  rw [feed, hv]
  refine ⟨_, cs, rfl, ?_⟩
  split <;> split <;> exact ⟨htakes, hsends⟩

/-- A write is taken, whether it is one to the update service or not. -/
theorem handle_write (h : b.updater.link.port.Calm) {pipe : UInt8} {data : List UInt8}
    (stays : b.updater.pipes.resets b.phase pipe data = false) (turns : Nat) :
    ∃ alive b' cs, b.handle turns (.dataReceived pipe data) = .done (alive, b') ∧
      Updater.Takes b.updater (pipe, data) b'.updater ∧
      Sends b.updater.link cs b'.updater.link := by
  rw [handle]
  split
  · have hentered : Settles b
        (if b.updating then b else { b.note entering with updating := true }) := by
      split
      · exact .refl b
      · exact (Settles.refl b).note entering
    dsimp only
    generalize (if b.updating then b else { b.note entering with updating := true }) = b₁
      at hentered
    obtain ⟨hsame, cs, hsends⟩ := hentered
    have stays₁ : b₁.updater.pipes.resets b₁.phase pipe data = false := by
      rw [phase, Updater.phase, hsame.pipes, hsame.transfer]
      exact stays
    obtain ⟨b', cs', hb', htakes, hsends'⟩ := feed_takes (hsends.calm h) stays₁ turns
    exact ⟨true, b', cs ++ cs', by rw [hb']; rfl, htakes.of_sameUpdate hsame,
      hsends.trans hsends'⟩
  · rename_i foreign
    obtain ⟨hsame, cs, hsends⟩ := (Settles.refl b).note (Bootloader.foreign data.length pipe)
    have hclass : b.updater.pipes.classify pipe data = none := by
      simp only [UpdatePipes.owns, Bool.or_eq_true, beq_iff_eq, not_or] at foreign
      simp only [UpdatePipes.classify, foreign.1, foreign.2, if_false]
    have htake : b.updater.transfer.take b.updater.pipes b.updater.flash pipe data =
        (b.updater.transfer, b.updater.flash) := by
      rw [Transfer.take, UpdatePipes.lead, hclass]
      rfl
    refine ⟨_, _, cs, rfl, ⟨?_, ?_, hsame.pipes⟩, hsends⟩
    · rw [htake]
      exact hsame.transfer
    · rw [htake]
      exact hsame.flash

/-! ## Polls -/

/-- A poll that reaches no write, or one that does not reset, is over at once.  It takes the oldest
of the writes that the radio has to report, or it leaves them and the update as they are. -/
theorem poll_cases (h : b.updater.link.Sound) (none : b.updater.link.rx.waiting = [])
    (stays : ∀ w ∈ b.updater.link.port.writes.head?,
      b.updater.pipes.resets b.phase w.1 w.2 = false) (turns : Nat) :
    ∃ alive b', b.poll turns = .done (alive, b') ∧
      b'.updater.link.Sound ∧ b'.updater.link.rx.waiting = [] ∧
      (Updater.SameUpdate b.updater b'.updater ∧
          b'.updater.link.port.writes = b.updater.link.port.writes ∨
        ∃ w, Updater.Takes b.updater w b'.updater ∧
          b.updater.link.port.writes = w :: b'.updater.link.port.writes) := by
  obtain ⟨_, _, hflush⟩ := b.updater.sends_flushResponses h.calm
  have hsame : Updater.SameUpdate b.updater b.updater.flushResponses.2 := .flushResponses _
  have hsound := hflush.sound h
  have hnone : b.updater.flushResponses.2.link.rx.waiting = [] := by rw [hflush.queues.rx, none]
  rw [poll]
  generalize b.updater.flushResponses.2 = u at hflush hsame hsound hnone
  obtain ⟨recorded, received, hmoves, _, hrx⟩ := u.session.nextEvent_spec hsound
  have hwrites := u.session.writes_nextEvent hsound hnone
  have hsound' := hmoves.sound hsound (by simp)
  have hnone' := hrx hnone
  rw [hflush.writes] at hwrites
  rcases hx : u.session.nextEvent u.link with ⟨event, session, link⟩
  rw [hx] at hwrites hsound' hnone'
  dsimp only at hwrites hsound' hnone' ⊢
  -- the update before the event is acted on
  have hsame' : Updater.SameUpdate b.updater { u with session, link } :=
    hsame.trans ⟨rfl, rfl, rfl⟩
  cases event with
  | none => exact ⟨_, _, rfl, hsound', hnone', .inl ⟨hsame', hwrites.symm⟩⟩
  | some e =>
      cases he : e.write? with
      | none =>
          obtain ⟨alive, b', hb', hother, cs, hsends⟩ := handle_other
            (b := { b with updater := { u with session, link } }) hsound'.calm turns he
          refine ⟨alive, b', hb', hsends.sound hsound', hsends.queues.rx ▸ hnone',
            .inl ⟨hsame'.trans hother, ?_⟩⟩
          rw [hsends.writes, hwrites, Option.bind_some, he]
          rfl
      | some w =>
          obtain ⟨pipe, data⟩ := w
          obtain rfl : e = .dataReceived pipe data := by
            cases e <;> simp_all [Event.write?]
          have stays' : u.pipes.resets u.phase pipe data = false := by
            rw [hsame.pipes, Updater.phase, hsame.transfer]
            exact stays (pipe, data) (by rw [hwrites]; rfl)
          obtain ⟨alive, b', cs, hb', htakes, hsends⟩ := handle_write
            (b := { b with updater := { u with session, link } }) hsound'.calm stays' turns
          refine ⟨alive, b', hb', hsends.sound hsound', hsends.queues.rx ▸ hnone',
            .inr ⟨(pipe, data), htakes.of_sameUpdate hsame', ?_⟩⟩
          rw [hsends.writes, hwrites]
          rfl

end Bootloader

end RadioBoot
