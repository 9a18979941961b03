import RadioBoot.Proofs.Session.Ledger
import RadioBoot.Proofs.Session.Traffic

/-!
# Credits are conserved

A radio that hands back one credit for every data frame, and says nothing else about credit, plays a
closed game with the session: a credit is the session's to spend, or it goes out with a data frame,
or it comes back with an event.  A transfer may take a data frame from the ring, make an event of it
and bring in another, all at once; a send may be refused, and the rings may be full.  Whatever
happens, no credit is lost on the way and none is granted that has no room in the budget
(`credits_conserved`).
-/

namespace RadioBoot

open Sim
open Link (Moves Sends)

/-! ## Where a credit can be -/

/-- Whether the bytes of a frame send data. -/
def Command.isData (bs : List UInt8) : Bool := bs[1]? == some 0x15

namespace Event

/-- Whether an event says something about credit. -/
def aboutCredit : Event → Bool
  | .deviceStarted .. | .connected .. | .disconnected .. | .dataCredit _ | .pipeError .. => true
  | _ => false

/-- Whether an event hands back credit for data frames. -/
def isGrant : Event → Bool
  | .dataCredit _ => true
  | _ => false

/-- The event that the bytes of a frame report, if they report one. -/
def read? (bs : List UInt8) : Option Event := (read bs).toOption

/-- To the credit book, an event that says nothing about credit is no event. -/
theorem book_of_other {e : Event} (other : e.aboutCredit = false) (n : Nat) :
    CreditEntry.book n (.received e) = n ∧ e.isGrant = false := by
  cases e with
  | deviceStarted | connected | disconnected | dataCredit | pipeError =>
      exact absurd other (by simp [aboutCredit])
  | _ => exact ⟨rfl, rfl⟩

end Event

namespace Sim.Radio

/-- The event that the host will make of what the radio has pending. -/
def reported? (event : List UInt8) : Option Event := (heard? event).bind Event.read?

variable {r : Radio}

/-- A radio that only hands back credits answers a data frame with one credit. -/
theorem answersTo_of_credit (h : r.settings = { autoCredit := true }) (frame : List UInt8) :
    r.answersTo frame = if Command.isData frame then [[2, 0x8A, 1]] else [] := by
  rcases frame with _ | ⟨len, _ | ⟨opcode, params⟩⟩
  · rfl
  · rfl
  · simp only [answersTo, h, Command.isData, List.getElem?_cons_succ, List.getElem?_cons_zero,
      Option.some_beq_some, beq_iff_eq]
    split
    · rename_i hop
      subst hop
      rfl
    · rename_i hop
      unfold answer
      split <;> first
        | exact absurd rfl hop
        | rfl

/-- And so data frames with as many credits. -/
theorem answers_of_credit (h : r.settings = { autoCredit := true }) (frames : List (List UInt8)) :
    (frames.flatMap r.answersTo).filterMap reported? =
      .replicate (frames.countP Command.isData) (.dataCredit 1) := by
  induction frames with
  | nil => rfl
  | cons frame rest ih =>
      rw [List.flatMap_cons, List.filterMap_append, ih, answersTo_of_credit h, List.countP_cons]
      cases Command.isData frame with
      | false => rfl
      | true => rfl

end Sim.Radio

namespace Link

variable {l l' : Link Radio} {queued recorded returned : List (List UInt8)}

/-- The events that are still to be received, oldest first. -/
def events (l : Link Radio) : List Event := l.incoming.filterMap Event.read?

/-- Some of them wait in the ring, and the others are pending at the radio. -/
theorem events_eq (l : Link Radio) :
    l.events = l.rx.waiting.filterMap Event.read? ++ l.port.pending.filterMap Radio.reported? := by
  rw [events, incoming, List.filterMap_append, List.filterMap_filterMap]
  rfl

theorem events_onRadio (l : Link Radio) (c : Radio.Change) :
    (l.onRadio c).events = l.events ++ c.events.filterMap Radio.reported? := by
  rw [events, incoming_onRadio, List.filterMap_append, List.filterMap_filterMap]
  rfl

/-- With each data frame that the radio records, one more credit is on its way. -/
theorem Moves.events (h : Moves l queued recorded returned l')
    (answers : l.port.settings = { autoCredit := true }) :
    returned.filterMap Event.read? ++ l'.events =
      l.events ++ .replicate (recorded.countP Command.isData) (.dataCredit 1) := by
  rw [Link.events, ← List.filterMap_append, h.incoming, List.filterMap_append,
    List.filterMap_filterMap, ← Radio.answers_of_credit answers]
  rfl

end Link

namespace Session

/-! ## What is conserved -/

/-- The credits that are not the session's to spend: those that go out with the data frames that
wait to be sent, and those that come back. -/
def away (l : Link Radio) : Nat :=
  l.tx.waiting.countP Command.isData + l.events.countP Event.isGrant

/-- The radio only hands back credits, one at a time, and all credits are accounted for. -/
structure Conserved (s : Session) (l : Link Radio) : Prop where
  sound : l.Sound
  answers : l.port.settings = { autoCredit := true }
  grants : ∀ e ∈ l.events, e.aboutCredit = true → e = .dataCredit 1
  owes : s.Owes (away l)

theorem conserved_fresh (total : UInt8) :
    Conserved (fresh total) (.fresh { autoCredit := true }) := by
  have hstill : (Link.fresh { autoCredit := true } : Link Radio).Still :=
    ⟨⟨rfl, rfl⟩, rfl, rfl, FrameRing.waiting_empty _ _, FrameRing.waiting_empty _ _⟩
  have hevents : (Link.fresh { autoCredit := true } : Link Radio).events = [] := by
    rw [Link.events, hstill.incoming]
    rfl
  have haway : away (.fresh { autoCredit := true }) = 0 := by
    rw [away, hstill.tx, hevents]
    rfl
  refine ⟨hstill.sound, rfl, ?_, ?_⟩
  · simp [hevents]
  · rw [haway]
    exact owes_fresh total

variable {s s' : Session} {l l' : Link Radio} {queued recorded returned : List (List UInt8)}

/-- What moves on the link takes credits along: those that are queued with a data frame go away, and
those that are received come back. -/
theorem away_of_moves (h : Moves l queued recorded returned l')
    (answers : l.port.settings = { autoCredit := true }) :
    away l' + (returned.filterMap Event.read?).countP Event.isGrant =
      away l + queued.countP Command.isData := by
  have hframes := congrArg (List.countP Command.isData) h.waiting
  have hevents := congrArg (List.countP Event.isGrant) (h.events answers)
  rw [List.countP_append, List.countP_append] at hframes hevents
  rw [List.countP_replicate, if_pos (show Event.isGrant (.dataCredit 1) = true from rfl)] at hevents
  rw [away, away]
  omega

/-- No other word about credit comes in than that one credit is handed back. -/
theorem Conserved.grants_of_moves (h : Conserved s l) (hm : Moves l queued recorded returned l') :
    ∀ e ∈ returned.filterMap Event.read? ++ l'.events, e.aboutCredit = true →
      e = .dataCredit 1 := by
  intro e he
  rw [hm.events h.answers] at he
  rcases List.mem_append.mp he with he | he
  · exact h.grants e he
  · intro _
    exact List.eq_of_mem_replicate he

/-- Credits stay conserved as long as the session keeps to what has moved. -/
theorem Conserved.moves (h : Conserved s l) (hm : Moves l queued recorded returned l')
    (hq : ∀ bs ∈ queued, Frame.Sendable bs) (owes : s'.Owes (away l')) : Conserved s' l' :=
  ⟨hm.sound h.sound hq, hm.settings.trans h.answers,
    fun e he ↦ h.grants_of_moves hm e (List.mem_append_right _ he), owes⟩

/-- Commands cost as many credits as there are data frames among them. -/
theorem Conserved.sends {cs : List Command} (h : Conserved s l) (hs : Sends l cs l')
    (owes : s'.Owes (away l + (cs.map Command.bytes).countP Command.isData)) :
    Conserved s' l' := by
  have haway := away_of_moves (hs.moves h.sound.calm) h.answers
  refine h.moves (hs.moves h.sound.calm) ?_ (by rwa [← haway] at owes)
  intro bs hbs
  obtain ⟨c, hc, rfl⟩ := List.mem_map.mp hbs
  exact hs.sendable c hc

/-- What is received hands back one credit that was away, or it says nothing about credit. -/
theorem Conserved.heard (h : Conserved s l) :
    ∃ recorded returned, Moves l [] recorded returned (s.nextEvent l).2.2 ∧
      ((s.nextEvent l).1 = some (.dataCredit 1) ∧ away (s.nextEvent l).2.2 + 1 = away l ∨
        (∀ e ∈ (s.nextEvent l).1, e.aboutCredit = false) ∧ away (s.nextEvent l).2.2 = away l) := by
  obtain ⟨recorded, received, hmoves, hevent, -⟩ := s.nextEvent_spec h.sound
  have haway := away_of_moves hmoves h.answers
  have hgrants := h.grants_of_moves hmoves
  have hread : (Option.toList received).filterMap Event.read? = (s.nextEvent l).1.toList := by
    rw [hevent]
    cases received with
    | none => rfl
    | some bs => cases hbs : Event.read bs <;> simp [Event.read?, hbs, Except.toOption]
  rw [hread, List.countP_nil, Nat.add_zero] at haway
  rw [hread] at hgrants
  refine ⟨recorded, _, hmoves, ?_⟩
  cases he : (s.nextEvent l).1 with
  | none =>
      rw [he] at haway
      exact .inr ⟨by simp, by simpa using haway⟩
  | some e =>
      rw [he] at haway hgrants
      cases about : e.aboutCredit with
      | true =>
          obtain rfl := hgrants e (by simp) about
          exact .inl ⟨rfl, by simpa [Event.isGrant] using haway⟩
      | false =>
          refine .inr ⟨by simpa using about, ?_⟩
          simpa [(Event.book_of_other about 0).2] using haway

theorem Conserved.nextEvent (h : Conserved s l) :
    Conserved (s.nextEvent l).2.1 (s.nextEvent l).2.2 := by
  obtain ⟨recorded, returned, hmoves, hheard⟩ := h.heard
  have hbook := h.owes.nextEvent l
  refine h.moves hmoves (by simp) ?_
  rcases hheard with ⟨he, hback⟩ | ⟨hother, hback⟩
  · rw [he, ← hback] at hbook
    exact hbook
  · rw [hback]
    cases he : (s.nextEvent l).1 with
    | none =>
        rw [he] at hbook
        exact hbook
    | some e =>
        rw [he] at hbook hother
        simpa [(Event.book_of_other (hother e rfl) (away l)).1] using hbook

/-- There is room in the budget for a credit that is handed back. -/
theorem Conserved.unclamped (h : Conserved s l) {credit : UInt8}
    (he : (s.nextEvent l).1 = some (.dataCredit credit)) :
    (s.nextEvent l).2.1.available.toNat = s.available.toNat + credit.toNat := by
  have hbefore := h.owes
  have hafter := h.nextEvent.owes
  have htotal : (s.nextEvent l).2.1.total = s.total := by
    rcases s.nextEvent_cases l with ⟨hnone, -⟩ | ⟨-, e, -, -, hsome, hs⟩
    · simp [he] at hnone
    · obtain rfl : e = .dataCredit credit := by simpa [he] using hsome.symm
      rw [hs]
      rfl
  obtain ⟨recorded, returned, -, ⟨hone, hback⟩ | ⟨hother, -⟩⟩ := h.heard
  · obtain rfl : credit = 1 := by simpa [he] using hone
    rw [Owes] at hbefore hafter
    rw [htotal] at hafter
    rw [UInt8.toNat_one]
    omega
  · simpa [Event.aboutCredit] using hother _ he

/-- No call loses a credit. -/
theorem Conserved.call (h : Conserved s l) (c : Call) :
    Conserved (s.call l c).session (s.call l c).link := by
  have hcalm := h.sound.calm
  cases c with
  | sendData pipe data =>
      rw [Session.call]
      have hsends := s.sends_order hcalm (.sendData pipe data)
      rw [order] at hsends
      refine h.sends hsends ?_
      have hsent := h.owes.sendData l pipe data
      cases taken : (s.sendData l pipe data).1 <;> rw [taken] at hsent <;> exact hsent
  | connect timeout interval =>
      rw [Session.call]
      refine h.sends (sends_connect hcalm timeout interval) ?_
      split <;> exact h.owes
  | disconnect reason =>
      rw [Session.call]
      refine h.sends (s.sends_disconnect hcalm reason) ?_
      split <;> exact h.owes.disconnect l reason
  | radioReset =>
      rw [Session.call]
      refine h.sends (s.sends_order hcalm .radioReset) ?_
      split <;> exact h.owes
  | nextEvent => exact h.nextEvent
  | markOpen pipe => exact ⟨h.sound, h.answers, h.grants, h.owes.markOpen pipe⟩

theorem Conserved.poll (h : Conserved s l) : Conserved s l.poll.2 := by
  obtain ⟨recorded, hmoves, -⟩ := Link.moves_poll h.sound
  have haway : away l.poll.2 = away l := by simpa using away_of_moves hmoves h.answers
  refine h.moves hmoves (by simp) ?_
  rw [haway]
  exact h.owes

/-- What the radio does meanwhile costs no credit. -/
theorem Conserved.onRadio (h : Conserved s l) {c : Radio.Change}
    (answers : (l.port.change c).settings = l.port.settings)
    (other : ∀ e ∈ c.events.filterMap Radio.reported?, e.aboutCredit = false) :
    Conserved s (l.onRadio c) := by
  have hnone : (c.events.filterMap Radio.reported?).countP Event.isGrant = 0 :=
    List.countP_eq_zero.mpr fun e he ↦ by simp [(Event.book_of_other (other e he) 0).2]
  have haway : away (l.onRadio c) = away l := by
    rw [away, Link.events_onRadio, List.countP_append, hnone]
    rfl
  refine ⟨h.sound.onRadio c, answers.trans h.answers, ?_, haway ▸ h.owes⟩
  intro e he about
  rw [Link.events_onRadio] at he
  rcases List.mem_append.mp he with he | he
  · exact h.grants e he about
  · simp [other e he] at about

end Session

/-! ## Runs -/

/-- A session on a link to a radio that hands back credits. -/
structure ClosedLoop where
  session : Session
  link : Link Radio

namespace ClosedLoop

open Session (Call Conserved conserved_fresh)

/-- One thing that happens to a session or to the radio. -/
inductive Happening where
  | call (c : Call)
  | poll
  | busy (on : Bool)
  | /-- The radio has an event to report, whatever the bytes, as long as the host does not make an
    event of it that says something about credit. -/
    push (event : List UInt8) (other : ∀ e ∈ Radio.reported? event, e.aboutCredit = false)

/-- A new session and a new radio. -/
def start (total : UInt8) : ClosedLoop := ⟨.fresh total, .fresh { autoCredit := true }⟩

/-- Both, after one more thing has happened. -/
def after (x : ClosedLoop) : Happening → ClosedLoop
  | .call c => let y := x.session.call x.link c; ⟨y.session, y.link⟩
  | .poll => { x with link := x.link.poll.2 }
  | .busy on => { x with link := x.link.onRadio (.busy on) }
  | .push event _ => { x with link := x.link.onRadio (.push event) }

/-- Both, after all of this has happened, in order. -/
def run (total : UInt8) (happenings : List Happening) : ClosedLoop :=
  happenings.foldl after (start total)

theorem conserved_after {x : ClosedLoop} (h : Conserved x.session x.link) (e : Happening) :
    Conserved (x.after e).session (x.after e).link := by
  cases e with
  | call c => exact h.call c
  | poll => exact h.poll
  | busy on => exact h.onRadio rfl (by simp [Radio.Change.events])
  | push event other => exact h.onRadio rfl (by simpa [Radio.Change.events] using other)

theorem conserved_run (total : UInt8) (happenings : List Happening) :
    Conserved (run total happenings).session (run total happenings).link :=
  List.foldlRecOn happenings after (motive := fun x ↦ Conserved x.session x.link)
    (conserved_fresh total) fun _ hx e _ ↦ conserved_after hx e

/-- Credits are conserved: at every moment of every run, the credits that the session has left,
those that wait to go out with a data frame, those that have come in and have not been received, and
those that the radio has still to report are together the whole budget.  So whenever a credit is
handed back, the session has room for it. -/
theorem credits_conserved (total : UInt8) (happenings : List Happening) :
    let s := (run total happenings).session
    let l := (run total happenings).link
    s.available.toNat + l.tx.waiting.countP Command.isData +
        (l.rx.waiting.filterMap Event.read?).countP Event.isGrant +
        (l.port.pending.filterMap Radio.reported?).countP Event.isGrant = s.total.toNat ∧
      ∀ credit, (s.nextEvent l).1 = some (.dataCredit credit) →
        (s.nextEvent l).2.1.available.toNat = s.available.toNat + credit.toNat := by
  intro s l
  have h : Conserved s l := conserved_run total happenings
  refine ⟨?_, fun credit he ↦ h.unclamped he⟩
  rw [← h.owes, Session.away, l.events_eq, List.countP_append]
  omega

/-- Of one credit, spent on a frame that has gone out while data came in: the credit is pending at
the radio behind the data, and the session has room for it when it comes. -/
theorem credits_conserved_one_spent :
    let x := run 1 [.call (.markOpen 9), .call (.sendData 9 [7]), .push [3, 0x8C, 8, 5] (by decide),
      .poll, .call .nextEvent]
    x.session.available = 0 ∧ (x.session.nextEvent x.link).1 = some (.dataCredit 1) ∧
      (x.session.nextEvent x.link).2.1.available = 1 := by
  intro x
  have spent : x.session.available = 0 := by decide +kernel
  have back : (x.session.nextEvent x.link).1 = some (.dataCredit 1) := by decide +kernel
  have room := (credits_conserved 1 _).2 1 back
  rw [show (run 1 _).session.available = 0 from spent] at room
  exact ⟨spent, back, UInt8.toNat_inj.mp room⟩

end ClosedLoop

end RadioBoot
