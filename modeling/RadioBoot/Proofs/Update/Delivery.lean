import RadioBoot.Proofs.Session.Traffic
import RadioBoot.Proofs.Update.Write

/-!
# Responses are delivered once and in order

A response goes from the outbox to the ring of frames to send and from there to the radio, and each
of these may be full or blocked for as long as it likes.  Nevertheless no response is lost, repeated
or overtaken on the way: at every moment of every run the responses that have been asked for are
those that the radio has recorded, then those that wait in the ring, then those that wait in the
outbox.  The only way to lose one is to ask for it while the outbox is full
(`responses_delivered`).

`Relays` says this of a part of a run, and there is one lemma for each thing that can happen.
-/

namespace RadioBoot

open Sim
open Link (Moves)

/-! ## Data on a pipe -/

/-- The data that frames send on a pipe, frame by frame. -/
def dataFrames (pipe : UInt8) (frames : List (List UInt8)) : List (List UInt8) :=
  (frames.filter fun f ↦ f[1]? == some 0x15 && f[2]? == some pipe).map (·.drop 3)

@[simp] theorem dataFrames_append (pipe : UInt8) (fs gs : List (List UInt8)) :
    dataFrames pipe (fs ++ gs) = dataFrames pipe fs ++ dataFrames pipe gs := by
  simp [dataFrames]

/-- The data that a command sends on a pipe, if it is one that does. -/
def Command.dataOn (pipe : UInt8) : Except CodecError Command → Option (List UInt8)
  | .ok (.sendData p data) => if p = pipe then some data else none
  | _ => none

theorem Command.dataOn_read (pipe : UInt8) (bs : List UInt8) :
    dataOn pipe (read bs) =
      if bs[1]? == some 0x15 && bs[2]? == some pipe then some (bs.drop 3) else none := by
  rcases bs with _ | ⟨len, _ | ⟨opcode, params⟩⟩
  · rfl
  · rfl
  · simp only [read, List.getElem?_cons_succ, List.getElem?_cons_zero, List.drop_succ_cons]
    by_cases hop : opcode = 0x15
    · subst hop
      cases params with
      | nil => rfl
      | cons p data => simp [ofParams, dataOn]
    · unfold ofParams
      split <;> simp_all [dataOn]

/-- The data on a pipe is what the commands in the frames send there. -/
theorem filterMap_dataOn (pipe : UInt8) (frames : List (List UInt8)) :
    frames.filterMap (fun bs ↦ Command.dataOn pipe (Command.read bs)) = dataFrames pipe frames := by
  induction frames with
  | nil => rfl
  | cons f fs ih =>
      rw [List.filterMap_cons, ih, Command.dataOn_read, dataFrames, dataFrames, List.filter_cons]
      cases f[1]? == some 0x15 && f[2]? == some pipe <;> rfl

/-- A recorded frame is read back as the command that it says. -/
theorem filterMap_readBack (pipe : UInt8) {frames : List (List UInt8)}
    (h : ∀ bs ∈ frames, Frame.Sendable bs) :
    frames.filterMap (fun bs ↦ (Frame.ofBytes? bs).bind fun f ↦
      Command.dataOn pipe (Command.decode f)) = dataFrames pipe frames := by
  induction frames with
  | nil => rfl
  | cons bs rest ih =>
      obtain ⟨f, hf, hbytes⟩ := (h bs (by simp)).ofBytes?
      rw [List.filterMap_cons, hf, Option.bind_some, Command.decode_eq_read, hbytes,
        ih fun bs hbs ↦ h bs (by simp [hbs]), ← filterMap_dataOn, ← filterMap_dataOn,
        List.filterMap_cons]

/-- Responses are data on the pipe that they are sent on. -/
theorem dataFrames_responses (pipe : UInt8) (ms : List Message) :
    dataFrames pipe ((ms.map (Updater.response pipe)).map Command.bytes) =
      ms.map Message.encode := by
  induction ms with
  | nil => rfl
  | cons m ms ih =>
      rw [List.map_cons, List.map_cons, List.map_cons, ← ih]
      simp [dataFrames, Updater.response, Command.bytes, Command.opcode, Command.params]

/-- A request to disconnect is no data. -/
theorem dataFrames_disconnects (pipe reason : UInt8) {cs : List Command}
    (h : ∀ c ∈ cs, c = .disconnect reason) : dataFrames pipe (cs.map Command.bytes) = [] := by
  induction cs with
  | nil => rfl
  | cons c cs ih =>
      obtain rfl := h c (by simp)
      exact ih fun c hc ↦ h c (by simp [hc])

/-! ## Responses that are asked for -/

/-- A response that a step has asked for, and how many responses were waiting at that moment. -/
structure Asked where
  message : Message
  waiting : Nat

/-- The responses that were not refused, as they are encoded.  Refused is what comes while the
outbox is full. -/
def accepted (asked : List Asked) : List (List UInt8) :=
  (asked.filter fun a ↦ a.waiting ≠ outboxDepth).map fun a ↦ a.message.encode

@[simp] theorem accepted_append (as bs : List Asked) :
    accepted (as ++ bs) = accepted as ++ accepted bs := by
  simp [accepted]

namespace Updater

variable {page : Nat} {P F R : Type}

/-- The responses that are asked for while the effects of a step are performed. -/
def asks (u : Updater page P F R) : List Effect → List Asked
  | [] => []
  | .respond m :: es => ⟨m, u.outbox.length⟩ :: (u.perform (.respond m)).asks es
  | e :: es => (u.perform e).asks es

/-- The responses that a write asks for. -/
def asked [Flash F] (u : Updater page P F R) (pipe : UInt8) (data : List UInt8) : List Asked :=
  match u.pipes.lead u.phase pipe data with
  | some (r, .step s) =>
    let x := u.transfer.step u.flash s r.data
    { u with transfer := x.transfer, flash := x.flash }.asks x.effects
  | _ => []

/-! ## What is relayed -/

/-- On a sound link, with no more responses in the outbox than it has room for. -/
structure Ready (u : Updater page Radio F R) : Prop where
  sound : u.link.Sound
  room : u.outbox.length ≤ outboxDepth

/-- All responses that are on their way: those in the outbox come last. -/
def responses (u : Updater page Radio F R) : List (List UInt8) :=
  dataFrames u.pipes.controlTx u.link.outgoing ++ u.outbox.map Message.encode

/-- From `u` to `v` these responses have been asked for, and all that were accepted are on their
way, behind those that have been before. -/
structure Relays (u : Updater page Radio F R) (asked : List Asked) (v : Updater page Radio F R) :
    Prop where
  pipes : v.pipes = u.pipes
  ready : v.Ready
  responses : v.responses = u.responses ++ accepted asked

variable {u v w : Updater page Radio F R} {as bs : List Asked}

theorem Relays.refl (h : u.Ready) : Relays u [] u := ⟨rfl, h, by simp [accepted]⟩

theorem Relays.trans (h : Relays u as v) (h' : Relays v bs w) : Relays u (as ++ bs) w :=
  ⟨h'.pipes.trans h.pipes, h'.ready, by rw [h'.responses, h.responses, accepted_append,
    List.append_assoc]⟩

/-- What moves on the link relays, unless it is data on the response pipe. -/
theorem Relays.of_moves (h : u.Ready) {queued recorded returned : List (List UInt8)}
    (hmoves : Moves u.link queued recorded returned v.link)
    (hq : ∀ bs ∈ queued, Frame.Sendable bs) (hdata : dataFrames u.pipes.controlTx queued = [])
    (hpipes : v.pipes = u.pipes) (houtbox : v.outbox = u.outbox) : Relays u [] v := by
  refine ⟨hpipes, ⟨hmoves.sound h.sound hq, houtbox ▸ h.room⟩, ?_⟩
  rw [Updater.responses, Updater.responses, hpipes, houtbox, hmoves.outgoing, dataFrames_append,
    hdata]
  simp [accepted]

/-- Notes on the log relay. -/
theorem relays_notes (h : u.Ready) (lines : List Line) : Relays u [] (u.notes lines) :=
  .of_moves h ((Link.queues_notes u.link lines).moves h.sound.calm) (by simp) rfl rfl rfl

/-- A response that is asked for goes to the outbox, or it is refused because that is full. -/
theorem relays_respond (h : u.Ready) (m : Message) :
    Relays u [⟨m, u.outbox.length⟩] (u.respond m) := by
  rw [respond]
  split
  · rename_i room
    refine ⟨rfl, ⟨h.sound, ?_⟩, ?_⟩
    · rw [List.length_append, List.length_singleton]
      exact room
    · simp [Updater.responses, accepted, Nat.ne_of_lt room]
  · rename_i full
    have hfull : u.outbox.length = outboxDepth := Nat.le_antisymm h.room (Nat.le_of_not_lt full)
    have hnotes := relays_notes h [dropping m]
    refine ⟨hnotes.pipes, hnotes.ready, ?_⟩
    rw [hnotes.responses]
    simp [accepted, hfull]

theorem relays_performAll (es : List Effect) :
    ∀ {u : Updater page Radio F R}, u.Ready → Relays u (u.asks es) (es.foldl perform u) := by
  induction es with
  | nil =>
      intro u h
      exact .refl h
  | cons e es ih =>
      intro u h
      cases e with
      | log line =>
          have hfirst := relays_notes h [line]
          exact hfirst.trans (ih hfirst.ready)
      | respond m =>
          have hfirst := relays_respond h m
          exact hfirst.trans (ih hfirst.ready)
      | openResponses =>
          have hfirst : Relays u [] (u.perform .openResponses) :=
            .of_moves h (.refl h.sound.calm) (by simp) rfl rfl rfl
          exact hfirst.trans (ih hfirst.ready)

/-- What is flushed leaves the outbox and waits to be sent. -/
theorem relays_flushResponses (h : u.Ready) : Relays u [] u.flushResponses.2 := by
  obtain ⟨taken, houtbox, hsends⟩ := u.sends_flushResponses h.sound.calm
  refine ⟨rfl, ⟨hsends.sound h.sound, ?_⟩, ?_⟩
  · have hroom := h.room
    rw [houtbox, List.length_append] at hroom
    exact Nat.le_trans (Nat.le_add_left _ _) hroom
  · have hmoves := hsends.moves h.sound.calm
    have hencode := congrArg (List.map Message.encode) houtbox
    rw [List.map_append] at hencode
    rw [Updater.responses, Updater.responses, hmoves.outgoing, dataFrames_append, hencode,
      show u.flushResponses.2.pipes = u.pipes from rfl, dataFrames_responses]
    simp [accepted]

/-- Going on to a phase relays. -/
theorem relays_moveTo (h : u.Ready) (next : Phase) : Relays u [] (u.moveTo next) :=
  .of_moves h ((Link.queues_notes u.link _).moves h.sound.calm) (by simp) rfl rfl rfl

/-- Taking the link down relays, over or not. -/
theorem relays_reset [Restart R] (h : u.Ready) (turns : Nat) :
    Relays u [] (u.reset turns).state := by
  have hdown := relays_moveTo h .awaitingReset
  obtain ⟨cs, recorded, returned, hmoves, hcs⟩ :=
    awaitDisconnect_spec turns false (u.moveTo .awaitingReset).session hdown.ready.sound
  have hclosed := hdown.trans (.of_moves
    (v := { u.moveTo .awaitingReset with
      session := (awaitDisconnect turns false (u.moveTo .awaitingReset).session
        (u.moveTo .awaitingReset).link).state.1
      link := (awaitDisconnect turns false (u.moveTo .awaitingReset).session
        (u.moveTo .awaitingReset).link).state.2 })
    hdown.ready hmoves
    (fun bs hbs ↦ by
      obtain ⟨c, hc, rfl⟩ := List.mem_map.mp hbs
      exact (hcs c hc).1)
    (dataFrames_disconnects _ _ fun c hc ↦ (hcs c hc).2) rfl rfl)
  rw [reset]
  dsimp only
  generalize awaitDisconnect turns false (u.moveTo .awaitingReset).session
    (u.moveTo .awaitingReset).link = closing at hclosed
  cases closing with
  | waiting x => exact hclosed
  | done x =>
      have hnoted := relays_notes hclosed.ready [linkDown]
      have hrestart := Relays.of_moves
        (v := { ({ u.moveTo .awaitingReset with session := x.1, link := x.2 } :
          Updater page Radio F R).notes [linkDown] with
            restart := (Restart.restart u.restart).value })
        hnoted.ready (.refl hnoted.ready.sound.calm) (by simp) rfl rfl rfl
      have hlines := relays_notes hrestart.ready (Restart.restart u.restart).lines
      exact (((hclosed.trans hnoted).trans hrestart).trans hlines).trans
        (relays_moveTo hlines.ready .terminated)

/-- A write relays what it asks for. -/
theorem relays_write [Flash F] [Restart R] (h : u.Ready) (turns : Nat) (pipe : UInt8)
    (data : List UInt8) : Relays u (u.asked pipe data) (u.write turns pipe data).state := by
  rw [write_eq, asked]
  cases u.pipes.lead u.phase pipe data with
  | none => exact .refl h
  | some x =>
      obtain ⟨r, way⟩ := x
      cases way with
      | step s =>
          have hstep := relays_performAll (u.transfer.step u.flash s r.data).effects
            (u := { u with
              transfer := (u.transfer.step u.flash s r.data).transfer
              flash := (u.transfer.step u.flash s r.data).flash }) ⟨h.sound, h.room⟩
          have hall := hstep.trans (relays_flushResponses hstep.ready)
          rw [List.append_nil] at hall
          exact ⟨hall.pipes, hall.ready, hall.responses⟩
      | reset =>
          have hreset := relays_reset h turns
          dsimp only
          cases hres : u.reset turns with
          | done v =>
              rw [hres] at hreset
              exact hreset.trans (relays_flushResponses hreset.ready)
          | waiting v =>
              rw [hres] at hreset
              exact hreset

/-! ## Whole runs -/

/-- One thing that happens to an updater over a simulated radio.  Others may send as they like, but
no data on the pipe for responses. -/
inductive Happening (responsePipe : UInt8) where
  | write (turns : Nat) (pipe : UInt8) (data : List UInt8)
  | flushResponses
  | nextEvent
  | poll
  | radio (c : Radio.Change)
  | /-- Someone else wants to send a frame. -/
    send (f : Frame) (declares : f.isEmpty = false) (other : dataFrames responsePipe [f.bytes] = [])
  | /-- Someone else changes the session, in whatever way. -/
    session (s : Session)

/-- An updater, and the responses that have been asked for, oldest first. -/
structure Watched (page : Nat) (F R : Type) where
  updater : Updater page Radio F R
  asked : List Asked

namespace Watched

/-- Nothing asked for yet; the radio is new, and it may have been reset once. -/
def start (pipes : UpdatePipes) (interval : UInt16) (session : Session) (reset : Bool) (flash : F)
    (restart : R) : Watched page F R where
  updater := .fresh pipes interval session
    (if reset then (Link.fresh {}).pinReset else .fresh {}) flash restart
  asked := []

theorem still_start (pipes : UpdatePipes) (interval : UInt16) (session : Session) (reset : Bool)
    (flash : F) (restart : R) :
    (start pipes interval session reset flash restart : Watched page F R).updater.link.Still := by
  cases reset with
  | false => exact Link.still_fresh
  | true => exact Link.still_fresh.pinReset

theorem ready_start (pipes : UpdatePipes) (interval : UInt16) (session : Session) (reset : Bool)
    (flash : F) (restart : R) :
    (start pipes interval session reset flash restart : Watched page F R).updater.Ready :=
  ⟨(still_start ..).sound, Nat.zero_le _⟩

theorem responses_start (pipes : UpdatePipes) (interval : UInt16) (session : Session)
    (reset : Bool) (flash : F) (restart : R) :
    (start pipes interval session reset flash restart : Watched page F R).updater.responses =
      [] := by
  rw [Updater.responses, (still_start ..).outgoing]
  rfl

variable [Flash F] [Restart R] {responsePipe : UInt8}

/-- What is watched after one more thing has happened. -/
def after (x : Watched page F R) : Happening responsePipe → Watched page F R
  | .write turns pipe data =>
    ⟨(x.updater.write turns pipe data).state, x.asked ++ x.updater.asked pipe data⟩
  | .flushResponses => { x with updater := x.updater.flushResponses.2 }
  | .nextEvent =>
    let y := x.updater.session.nextEvent x.updater.link
    { x with updater := { x.updater with session := y.2.1, link := y.2.2 } }
  | .poll => { x with updater := { x.updater with link := x.updater.link.poll.2 } }
  | .radio c => { x with updater := { x.updater with link := x.updater.link.onRadio c } }
  | .send f _ _ => { x with updater := { x.updater with link := (x.updater.link.send f).2 } }
  | .session s => { x with updater := { x.updater with session := s } }

variable {x : Watched page F R}

/-- Whatever happens, what is asked for is relayed. -/
theorem relays_after (h : x.updater.Ready) (hp : x.updater.pipes.controlTx = responsePipe)
    (e : Happening responsePipe) :
    ∃ as, (x.after e).asked = x.asked ++ as ∧ Relays x.updater as (x.after e).updater := by
  cases e with
  | write turns pipe data => exact ⟨_, rfl, relays_write h turns pipe data⟩
  | flushResponses => exact ⟨[], (List.append_nil _).symm, relays_flushResponses h⟩
  | nextEvent =>
      obtain ⟨recorded, received, hmoves, _⟩ := x.updater.session.nextEvent_spec h.sound
      exact ⟨[], (List.append_nil _).symm, .of_moves h hmoves (by simp) rfl rfl rfl⟩
  | poll =>
      obtain ⟨recorded, hmoves, _⟩ := Link.moves_poll h.sound
      exact ⟨[], (List.append_nil _).symm, .of_moves h hmoves (by simp) rfl rfl rfl⟩
  | radio c =>
      refine ⟨[], (List.append_nil _).symm, rfl, ⟨h.sound.onRadio c, h.room⟩, ?_⟩
      simp [Updater.responses, after, accepted]
  | send f declares other =>
      have hmoves := (Link.queues_send h.sound.calm f).moves h.sound.calm
      refine ⟨[], (List.append_nil _).symm,
        .of_moves h hmoves (fun _ hbs ↦ Link.sendable_of_accepted declares hbs) ?_ rfl rfl⟩
      split
      · rw [hp, other]
      · rfl
  | session s =>
      exact ⟨[], (List.append_nil _).symm, .of_moves h (.refl h.sound.calm) (by simp) rfl rfl rfl⟩

/-- What a whole run asks for is relayed. -/
theorem relays_foldl (happenings : List (Happening responsePipe)) :
    ∀ {x : Watched page F R}, x.updater.Ready → x.updater.pipes.controlTx = responsePipe →
      ∃ as, (happenings.foldl after x).asked = x.asked ++ as ∧
        Relays x.updater as (happenings.foldl after x).updater := by
  induction happenings with
  | nil =>
      intro x h _
      exact ⟨[], (List.append_nil _).symm, .refl h⟩
  | cons e es ih =>
      intro x h hp
      obtain ⟨as, has, hfirst⟩ := relays_after h hp e
      obtain ⟨bs, hbs, hrest⟩ := ih hfirst.ready (hfirst.pipes ▸ hp)
      refine ⟨as ++ bs, ?_, hfirst.trans hrest⟩
      rw [List.foldl_cons, hbs, has, List.append_assoc]

end Watched

/-- Responses are delivered once and in order, and the only way to lose one is a full outbox: at
every moment of every run, the responses that have been asked for while the outbox had room for them
are the data that the radio has recorded on the response pipe, then the data in the frames that wait
to be sent there, then what waits in the outbox.  The frames of both kinds are read back as the
commands that send just these data. -/
theorem responses_delivered [Flash F] [Restart R] (pipes : UpdatePipes) (interval : UInt16)
    (session : Session) (reset : Bool) (flash : F) (restart : R)
    (happenings : List (Happening pipes.controlTx)) :
    let x : Watched page F R :=
      happenings.foldl Watched.after (.start pipes interval session reset flash restart)
    accepted x.asked =
      x.updater.link.port.sentOnPipe pipes.controlTx ++
        dataFrames pipes.controlTx x.updater.link.tx.waiting ++
        x.updater.outbox.map Message.encode ∧
    x.updater.link.port.sent.filterMap (fun bs ↦ (Frame.ofBytes? bs).bind fun f ↦
        Command.dataOn pipes.controlTx (Command.decode f)) =
      x.updater.link.port.sentOnPipe pipes.controlTx ∧
    x.updater.link.tx.toList.filterMap
        (fun f ↦ Command.dataOn pipes.controlTx (Command.decode f)) =
      dataFrames pipes.controlTx x.updater.link.tx.waiting := by
  intro x
  have hstart : (Watched.start pipes interval session reset flash restart :
    Watched page F R).updater.Ready := Watched.ready_start ..
  obtain ⟨as, has, hrelays⟩ := Watched.relays_foldl happenings hstart rfl
  have hresponses := hrelays.responses
  rw [Watched.responses_start, List.nil_append] at hresponses
  refine ⟨?_, ?_, ?_⟩
  · rw [show x.asked = as from has, ← hresponses, Updater.responses, Link.outgoing,
      dataFrames_append, hrelays.pipes]
    rfl
  · exact filterMap_readBack _ fun bs hbs ↦
      hrelays.ready.sound.sendable bs (List.mem_append_left _ hbs)
  · rw [FrameRing.waiting, ← filterMap_dataOn, List.filterMap_map]
    refine congrArg (List.filterMap · _) (funext fun f ↦ ?_)
    rw [Function.comp_apply, Command.decode_eq_read]

end Updater

end RadioBoot
