import RadioBoot.Proofs.Link.Progress
import RadioBoot.Proofs.Update.Flush
import RadioBoot.Session
import RadioBoot.Updater

/-!
# Traffic of a session

What a session does to the link, seen from both ends.  Whatever a session or an updater sends goes
out as commands, each of which is taken whole or not at all (`Sends`); and receiving an event is
receiving a frame and reading it (`nextEvent_spec`).  Waiting for a disconnect sends nothing but the
request for it (`awaitDisconnect_spec`).
-/

namespace RadioBoot

open Sim

/-! ## Commands -/

/-- From `l` to `l'` the link has taken these commands, each whole, and nothing else has moved. -/
structure Link.Sends (l : Link Radio) (cs : List Command) (l' : Link Radio) : Prop where
  queues : Queues l (cs.map Command.bytes) l'
  sendable : ∀ c ∈ cs, Frame.Sendable c.bytes

namespace Link.Sends

variable {l l' l'' : Link Radio} {cs cs' : List Command}

theorem refl (l : Link Radio) : Sends l [] l := ⟨.refl l, by simp⟩

theorem of_queues (h : Queues l [] l') : Sends l [] l' := ⟨h, by simp⟩

theorem trans (h : Sends l cs l') (h' : Sends l' cs' l'') : Sends l (cs ++ cs') l'' := by
  constructor
  · rw [List.map_append]
    exact h.queues.trans h'.queues
  · intro c hc
    rcases List.mem_append.mp hc with hc | hc
    · exact h.sendable c hc
    · exact h'.sendable c hc

/-- What the link has taken is sent. -/
theorem of_takes {c : Command} (hl : l.port.Calm) (h : l.Takes c l') : Sends l [c] l' := by
  obtain ⟨f, hf⟩ := Command.encode_of_short h.short
  refine ⟨⟨?_, h.waiting, h.rx⟩, fun d hd ↦ ?_⟩
  · rw [h.port]
    split
    · exact .refl _
    · exact hl.drive true
  · rw [List.mem_singleton.mp hd, ← Command.bytes_of_encode hf]
    exact (Frame.Sendable.of_encode hf).2

theorem of_takesAll (hl : l.port.Calm) (h : l.TakesAll cs l') : Sends l cs l' := by
  induction h with
  | nil l => exact .refl l
  | cons htakes _ ih =>
      have hfirst := of_takes hl htakes
      exact hfirst.trans (ih (hfirst.queues.port.calm hl))

theorem calm (h : Sends l cs l') (hl : l.port.Calm) : l'.port.Calm := h.queues.port.calm hl

theorem moves (h : Sends l cs l') (hl : l.port.Calm) :
    Moves l (cs.map Command.bytes) [] [] l' := h.queues.moves hl

theorem sound (h : Sends l cs l') (hl : l.Sound) : l'.Sound := by
  refine (h.moves hl.calm).sound hl fun bs hbs ↦ ?_
  obtain ⟨c, hc, rfl⟩ := List.mem_map.mp hbs
  exact h.sendable c hc

end Link.Sends

namespace Link

variable {l l' : Link Radio}

/-- What is taken with room for an answer is announced at once. -/
theorem Poised.takes (h : l.Poised) {c : Command} (htakes : l.Takes c l') : l'.Poised := by
  refine ⟨htakes.rx ▸ h.room, fun _ ↦ ?_⟩
  rw [htakes.port, h.room]
  rfl

theorem Poised.takesAll (h : l.Poised) {cs : List Command} (htakes : l.TakesAll cs l') :
    l'.Poised := by
  induction htakes with
  | nil l => exact h
  | cons htakes _ ih => exact ih (h.takes htakes)

end Link

namespace Session

open Link (Sends Moves)

variable {l : Link Radio}

/-- Any command is taken whole or not at all. -/
theorem sends_order (s : Session) (h : l.port.Calm) (c : Command) :
    Sends l (if (s.order l c).1 then [c] else []) (s.order l c).2.2 := by
  rcases s.order_cases l c with ⟨-, log, hc⟩ | ⟨-, l', hc, htakes⟩ <;> rw [hc]
  · exact .of_queues ⟨.refl _, (List.append_nil _).symm, rfl⟩
  · exact .of_takes h htakes

theorem sends_connect (h : l.port.Calm) (timeout interval : UInt16) :
    Sends l (if (connect l timeout interval).1 then [.connect timeout interval] else [])
      (connect l timeout interval).2 := (fresh 0).sends_order h (.connect timeout interval)

theorem sends_disconnect (s : Session) (h : l.port.Calm) (reason : UInt8) :
    Sends l (if (s.disconnect l reason).1 then [.disconnect reason] else [])
      (s.disconnect l reason).2.2 := s.sends_order h (.disconnect reason)

/-! ## Events -/

/-- Receiving an event is receiving one frame at most and reading it; a frame that is no event is
dropped. -/
theorem nextEvent_spec (s : Session) (h : l.Sound) :
    ∃ recorded received, Moves l [] recorded (Option.toList received) (s.nextEvent l).2.2 ∧
      (s.nextEvent l).1 = received.bind (fun bs ↦ (Event.read bs).toOption) ∧
      (l.rx.waiting = [] → (s.nextEvent l).2.2.rx.waiting = []) := by
  obtain ⟨recorded, hmoves⟩ := Link.moves_tryReceive h
  have hrx := Link.waiting_tryReceive h
  refine ⟨recorded, l.tryReceive.1.map Frame.bytes, ?_⟩
  rw [nextEvent]
  cases hx : l.tryReceive with
  | mk out l' =>
      rw [hx] at hmoves hrx
      cases out with
      | none => exact ⟨hmoves, rfl, hrx⟩
      | some f =>
          dsimp only at hmoves hrx ⊢
          rw [Event.decode_eq_read, Option.map_some, Option.bind_some]
          cases Event.read f.bytes with
          | error e =>
              have hnote := (Link.queues_note l' (dropping e)).moves hmoves.calm
              refine ⟨?_, rfl, hrx⟩
              simpa using hmoves.trans hnote
          | ok event =>
              have hnotes := (Link.queues_notes l' (s.apply event).lines).moves hmoves.calm
              refine ⟨?_, rfl, hrx⟩
              simpa using hmoves.trans hnotes

end Session

/-! ## An updater -/

namespace Updater

open Link (Sends Moves)

/-- Responses are sent in order, and only the ones that the link has not taken stay. -/
theorem sends_flushResponses {page : Nat} {F R : Type} (u : Updater page Radio F R)
    (h : u.link.port.Calm) :
    ∃ taken, u.outbox = taken ++ u.flushResponses.2.outbox ∧
      Sends u.link (taken.map (response u.pipes.controlTx)) u.flushResponses.2.link := by
  obtain ⟨link, hflush, hall⟩ := u.flushResponses_eq
  rw [hflush]
  exact ⟨_, (List.take_append_drop _ _).symm, .of_takesAll h hall⟩

theorem poised_flushResponses {page : Nat} {F R : Type} (u : Updater page Radio F R)
    (h : u.link.Poised) : u.flushResponses.2.link.Poised := by
  obtain ⟨link, hflush, hall⟩ := u.flushResponses_eq
  rw [hflush]
  exact h.takesAll hall

/-- What a step asks for is not sent at once. -/
theorem sends_performAll {page : Nat} {F R : Type} (es : List Effect) :
    ∀ u : Updater page Radio F R, Sends u.link [] (es.foldl perform u).link := by
  induction es with
  | nil =>
      intro u
      exact .refl u.link
  | cons e es ih =>
      intro u
      have hfirst : Sends u.link [] (u.perform e).link := by
        cases e with
        | log line => exact .of_queues (Link.queues_notes u.link _)
        | openResponses => exact .refl u.link
        | respond m =>
            rw [perform, respond]
            split
            · exact .refl u.link
            · exact .of_queues (Link.queues_notes u.link _)
      exact hfirst.trans (ih _)

/-- Waiting for a disconnect sends requests for it and receives events. -/
theorem awaitDisconnect_spec (turns : Nat) :
    ∀ (requested : Bool) (s : Session) {l : Link Radio}, l.Sound →
      ∃ (cs : List Command) (recorded returned : List (List UInt8)),
        Moves l (cs.map Command.bytes) recorded returned
          (awaitDisconnect turns requested s l).state.2 ∧
        ∀ c ∈ cs, Frame.Sendable c.bytes ∧ c = .disconnect Command.reasonTerminate := by
  induction turns with
  | zero =>
      intro requested s l h
      exact ⟨[], [], [], .refl h.calm, by simp⟩
  | succ turns ih =>
      intro requested s l h
      rw [awaitDisconnect]
      -- ask, unless that has been done
      obtain ⟨cs, hasked, hcs⟩ : ∃ cs, Sends l cs (if requested then (true, s, l) else
          s.disconnect l Command.reasonTerminate).2.2 ∧
          ∀ c ∈ cs, c = .disconnect Command.reasonTerminate := by
        cases requested with
        | true => exact ⟨[], .refl l, by simp⟩
        | false =>
            refine ⟨_, Session.sends_disconnect s h.calm _, ?_⟩
            intro c hc
            split at hc
            · exact List.mem_singleton.mp hc
            · exact absurd hc (by simp)
      generalize (if requested then (true, s, l) else
        s.disconnect l Command.reasonTerminate) = asked at hasked
      obtain ⟨requested, s, l₁⟩ := asked
      -- listen
      obtain ⟨recorded, received, hheard, _⟩ := s.nextEvent_spec (hasked.sound h)
      have hturn := (hasked.moves h.calm).trans hheard
      have hsound := hturn.sound h fun bs hbs ↦ by
        rw [List.append_nil] at hbs
        obtain ⟨c, hc, rfl⟩ := List.mem_map.mp hbs
        exact hasked.sendable c hc
      dsimp only at hturn hsound ⊢
      split
      · rename_i hevent
        rw [hevent, List.append_nil] at hturn
        exact ⟨cs, _, _, hturn, fun c hc ↦ ⟨hasked.sendable c hc, hcs c hc⟩⟩
      · rename_i hevent
        rw [hevent] at hturn hsound
        obtain ⟨cs', recorded', returned', hmore, hcs'⟩ := ih requested _ hsound
        have hall := hturn.trans hmore
        rw [List.append_nil, ← List.map_append] at hall
        refine ⟨cs ++ cs', _, _, hall, ?_⟩
        intro c hc
        rcases List.mem_append.mp hc with hc | hc
        · exact ⟨hasked.sendable c hc, hcs c hc⟩
        · exact hcs' c hc

end Updater

end RadioBoot
