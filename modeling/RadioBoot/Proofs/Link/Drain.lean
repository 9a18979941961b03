import RadioBoot.Proofs.Link.Faults
import RadioBoot.Proofs.Link.Handshake
import RadioBoot.Proofs.Link.Progress

/-!
# The link always drains

A link can be left in many states: with the request line up or down, with no room for a received
frame, or after a transfer that has stopped at some byte.  None of them blocks it for good.  As soon
as the radio takes part again and adds nothing by itself, receiving often enough empties both rings
and the radio: once for everything that is on its way, and once more (`drains`).

The one call that may find work and do none of it is the first: the request line may be down with
nothing pending, and then all it does is to ask for a transfer.  Every call leaves the link poised,
and from then on each takes something (`underway_tryReceive`).  Of the states that a link can reach
only this is needed: between two operations no transfer is half done, and no frame that waits to be
sent declares more than fits (`restful_reached`).
-/

namespace RadioBoot

open Sim

namespace Sim.Radio

/-- The radio with nothing in the way of a transfer: not busy, on a bus that works, and with nothing
that it does by itself. -/
def eased (r : Radio) : Radio :=
  { r with
    busy := false
    busFault := false
    autoCredit := false
    autoDisconnect := false
    autoConnect := none }

/-- A radio that does nothing by itself answers nothing. -/
theorem answersTo_of_eased {r : Radio} (h : r.settings = (eased {}).settings)
    (frame : List UInt8) : r.answersTo frame = [] := by
  unfold answersTo
  rw [h]
  split
  · unfold answer
    split <;> rfl
  · rfl

theorem answers_of_eased {r : Radio} (h : r.settings = (eased {}).settings)
    (frames : List (List UInt8)) : frames.flatMap r.answersTo = [] :=
  List.flatMap_eq_nil_iff.mpr fun frame _ ↦ answersTo_of_eased h frame

/-- Asserting the request line leaves a transfer under way, and letting go of it ends one, however
far it has come. -/
theorem clocked_drive (r : Radio) (on : Bool) :
    (r.drive on).value.clocked = if on then r.clocked else [] := by
  have hcounted (b : Bool) :
      (if b then { r with requestEdges := r.requestEdges + 1 } else r).clocked = r.clocked := by
    cases b <;> rfl
  cases on with
  | true => exact hcounted _
  | false =>
      cases none : r.clocked.isEmpty with
      | true =>
          have hnone := List.isEmpty_iff.mp none
          simp [drive, hnone]
      | false =>
          simp only [drive, none, Bool.false_or, Bool.false_and, Bool.false_eq_true, if_false,
            Logged.value_map]
          unfold finish
          split
          · dsimp only
            split
            · rfl
            · rw [answer_eq]
          · rfl

end Sim.Radio

namespace Link

/-! ## The states that a link can reach -/

/-- One thing that happens to a link over a radio on a port that may fail. -/
inductive Incident where
  | operation (op : Operation)
  | radio (c : Radio.Change)
  | /-- From now on every exchange fails, or none does. -/
    busFault (on : Bool)
  | /-- From now on the exchanges fail like this. -/
    plan (faults : List (Option PortError))

/-- The link after it has happened. -/
def befall (l : Link (Flaky Radio)) : Incident → Link (Flaky Radio)
  | .operation op => l.operate op
  | .radio c => { l with port := { l.port with port := l.port.port.change c } }
  | .busFault on => { l with port := { l.port with port := { l.port.port with busFault := on } } }
  | .plan faults => { l with port := { l.port with plan := faults } }

/-- The link that a new one to a new radio becomes when all of this has happened, in order. -/
def reached (incidents : List Incident) : Link (Flaky Radio) :=
  incidents.foldl befall (.fresh ⟨{}, []⟩)

/-- No transfer is half done, and no frame to send declares more than fits. -/
structure Restful (l : Link (Flaky Radio)) : Prop where
  clocked : l.port.port.clocked = []
  fits : ∀ bs ∈ l.tx.waiting, (bs.headD 0).toNat ≤ maxPayload

section

variable (l : Link (Flaky Radio))

@[simp] theorem clocked_setRequest (on : Bool) :
    (l.setRequest on).port.port.clocked = if on then l.port.port.clocked else [] :=
  l.port.port.clocked_drive on

theorem clocked_announce : l.announce.port.port.clocked = l.port.port.clocked := by
  rw [announce]
  split
  · rw [clocked_setRequest, if_pos rfl]
  · rfl

/-- So a transfer that is over is not half done, also when it has failed. -/
theorem clocked_transfer : l.transfer.2.port.port.clocked = [] := by
  rcases l.transfer_cases with ⟨e, -, h⟩ | ⟨f, -, h⟩
  · rw [h, port_note, clocked_setRequest]
    rfl
  · rw [h, port_deliver, clocked_announce, clocked_setRequest]
    rfl

variable {l}

theorem clocked_poll (h : l.port.port.clocked = []) : l.poll.2.port.port.clocked = [] := by
  have hlooked : l.isReady.2.port.port.clocked = [] := h
  rcases l.poll_cases with ⟨-, hpoll⟩ | ⟨-, -, hpoll⟩ | ⟨-, -, hpoll⟩
  · rwa [hpoll]
  · rw [hpoll]
    dsimp only
    split
    · exact hlooked
    · rw [clocked_setRequest, if_pos rfl, hlooked]
  · rw [hpoll]
    exact l.isReady.2.clocked_transfer

theorem clocked_tryReceive (h : l.port.port.clocked = []) :
    l.tryReceive.2.port.port.clocked = [] := by
  rw [tryReceive, clocked_announce]
  dsimp only
  split
  · exact h
  · exact clocked_poll h

end

variable {P : Type} [Port P]

/-- Receiving takes one frame to send at most. -/
theorem waiting_of_tryReceive (l : Link P) :
    l.tryReceive.2.tx.waiting = l.tx.waiting ∨ l.tryReceive.2.tx.waiting = l.tx.waiting.tail := by
  have hturn := l.rings_poll
  rw [tryReceive, (sameRings_announce _).tx]
  dsimp only
  split
  · exact .inl rfl
  · rcases hturn with same | ⟨htx, -⟩
    · exact .inl (by rw [same.tx])
    · exact .inr (by rw [htx, FrameRing.waiting_dequeue_snd])

/-- Of the frames that an operation leaves to be sent, each has waited before or is a new one that
fits. -/
theorem fits_operate {l : Link P} (h : ∀ bs ∈ l.tx.waiting, (bs.headD 0).toNat ≤ maxPayload)
    (op : Operation) : ∀ bs ∈ (l.operate op).tx.waiting, (bs.headD 0).toNat ≤ maxPayload := by
  cases op with
  | send f =>
      intro bs hbs
      rw [operate, waiting_send, send_fst, List.mem_append] at hbs
      rcases hbs with hbs | hbs
      · exact h bs hbs
      · split at hbs
        · rename_i taken
          rw [List.mem_singleton.mp hbs]
          exact of_decide_eq_true (Bool.and_eq_true_iff.mp taken).1
        · exact absurd hbs (List.not_mem_nil)
  | poll =>
      rcases l.rings_poll with same | ⟨htx, -⟩
      · rwa [operate, same.tx]
      · rw [operate, htx, FrameRing.waiting_dequeue_snd]
        exact fun bs hbs ↦ h bs (List.mem_of_mem_tail hbs)
  | tryReceive =>
      rcases l.waiting_of_tryReceive with same | tail
      · rwa [operate, same]
      · rw [operate, tail]
        exact fun bs hbs ↦ h bs (List.mem_of_mem_tail hbs)
  | flush =>
      rw [operate, flush, FrameRing.waiting_clear]
      exact fun bs hbs ↦ absurd hbs List.not_mem_nil
  | pinReset =>
      rw [operate, pinReset, flush, FrameRing.waiting_clear]
      exact fun bs hbs ↦ absurd hbs List.not_mem_nil

/-- Whatever befalls a link, it is restful afterwards. -/
theorem Restful.befall {l : Link (Flaky Radio)} (h : l.Restful) (m : Incident) :
    (l.befall m).Restful := by
  cases m with
  | operation op =>
      refine ⟨?_, fits_operate h.fits op⟩
      cases op with
      | send f =>
          change (l.send f).2.port.port.clocked = []
          rcases l.send_cases f with ⟨-, hsend⟩ | ⟨-, -, hsend⟩ | ⟨-, -, hsend⟩ <;> rw [hsend]
          · exact h.clocked
          · exact h.clocked
          · dsimp only
            split
            · exact h.clocked
            · rw [clocked_setRequest]
              exact h.clocked
      | poll => exact clocked_poll h.clocked
      | tryReceive => exact clocked_tryReceive h.clocked
      | flush => exact h.clocked
      | pinReset => exact l.pulseReset.clocked_setRequest false
  | radio c => cases c <;> exact ⟨h.clocked, h.fits⟩
  | busFault on => exact ⟨h.clocked, h.fits⟩
  | plan faults => exact ⟨h.clocked, h.fits⟩

theorem restful_reached (incidents : List Incident) : (reached incidents).Restful := by
  refine List.foldlRecOn incidents _ ⟨rfl, ?_⟩ fun l h m _ ↦ h.befall m
  rw [fresh, FrameRing.waiting_empty]
  exact fun bs hbs ↦ absurd hbs List.not_mem_nil

/-- The link with the radio eased, and no exchange that fails. -/
def eased (l : Link (Flaky Radio)) : Link Radio := { l.direct with port := l.port.port.eased }

theorem Restful.willing {l : Link (Flaky Radio)} (h : l.Restful) : l.eased.Willing :=
  ⟨⟨rfl, h.clocked⟩, rfl, h.fits⟩

/-! ## Receiving until nothing is left -/

/-- Receive so many times in a row, and collect the frames that are received. -/
def receiveFor : Nat → Link P → List Frame × Link P
  | 0, l => ([], l)
  | n + 1, l =>
    let x := l.tryReceive
    let y := receiveFor n x.2
    (x.1.toList ++ y.1, y.2)

/-- When nothing is received, nothing waits to be received. -/
theorem waiting_of_none {l : Link P} (h : l.tryReceive.1 = none) :
    l.tryReceive.2.rx.waiting = [] := by
  rw [tryReceive] at h ⊢
  rw [(sameRings_announce _).rx, FrameRing.waiting_dequeue_snd]
  have hfirst := (if l.rx.isFull then l else l.poll.2).rx.waiting_dequeue_fst
  rw [h, Option.map_none, eq_comm, List.head?_eq_none_iff] at hfirst
  rw [hfirst]
  rfl

section

variable {l l' : Link Radio} {given taken returned : List (List UInt8)}

theorem Advances.willing (h : Advances l given taken returned l') (hl : l.Willing) :
    l'.Willing :=
  ⟨h.calm, h.busy.trans hl.free, fun bs hbs ↦ hl.fits bs (h.tx ▸ List.mem_append_right _ hbs)⟩

/-- Without answers, all that is taken is gone from what is on its way, but that an event which is
heard becomes a received frame. -/
theorem Advances.underway (h : Advances l given taken returned l')
    (hl : l.port.settings = (Radio.eased {}).settings) :
    l'.underway + (given.length + taken.length + returned.length) =
      l.underway + (taken.filterMap Radio.heard?).length := by
  have htx := congrArg List.length h.tx
  have hpending := congrArg List.length h.pending
  have hrx := congrArg List.length h.rx
  rw [Radio.answers_of_eased hl] at hpending
  simp only [List.length_append, List.length_nil] at htx hpending hrx
  rw [Link.underway, Link.underway]
  omega

theorem underway_le_load (l : Link Radio) : l.underway ≤ l.load := by
  rw [Link.underway, Link.load]
  omega

/-- When nothing is taken, the work that is left is what it was. -/
theorem Advances.load_of_nothing (h : Advances l [] [] [] l') : l'.load = l.load := by
  have htx := h.tx
  have hpending := h.pending
  have hrx := h.rx
  rw [List.flatMap_nil, List.append_nil, List.nil_append] at hpending
  rw [List.filterMap_nil, List.append_nil, List.nil_append] at hrx
  rw [List.nil_append] at htx
  rw [Link.load, Link.load, htx, hpending, hrx]

/-- Receiving makes what is on its way no more, and less if the link was poised before. -/
theorem underway_tryReceive (h : l.Willing)
    (hl : l.port.settings = (Radio.eased {}).settings) :
    ∃ given taken,
      Advances l given taken (l.tryReceive.1.map Frame.bytes).toList l.tryReceive.2 ∧
        l.tryReceive.2.Poised ∧ l.tryReceive.2.underway ≤ l.underway ∧
        (l.Poised → l.tryReceive.2.underway ≤ l.underway - 1) := by
  obtain ⟨given, taken, hadv, hpoised, hless⟩ := advances_tryReceive h
  have hunder := hadv.underway hl
  have hheard : (taken.filterMap Radio.heard?).length ≤ taken.length :=
    List.length_filterMap_le _ _
  refine ⟨given, taken, hadv, hpoised, by omega, fun poised ↦ ?_⟩
  cases hreceived : l.tryReceive.1 with
  | some f =>
      rw [hreceived, Option.map_some, Option.toList_some, List.length_singleton] at hunder
      omega
  | none =>
      -- then no event was heard, and a frame or an event was taken if there was one
      have hnone := hadv.rx
      rw [waiting_of_none hreceived, hreceived, Option.map_none, Option.toList_none,
        List.append_nil, List.append_eq_nil_iff] at hnone
      rw [hreceived, Option.map_none, Option.toList_none] at hunder hadv
      rw [hnone.2, List.length_nil] at hunder
      refine Nat.le_of_not_lt fun more ↦ ?_
      obtain rfl : given = [] := List.eq_nil_of_length_eq_zero (by omega)
      obtain rfl : taken = [] := List.eq_nil_of_length_eq_zero (by omega)
      have some : 0 < l.load := Nat.lt_of_lt_of_le (by omega) l.underway_le_load
      exact Nat.ne_of_lt (hless poised some) hadv.load_of_nothing

/-- On a poised link it is enough to receive once for each thing that is on its way. -/
theorem advances_receiveFor (n : Nat) :
    ∀ {l : Link Radio}, l.Willing → l.port.settings = (Radio.eased {}).settings →
      ∃ given taken, Advances l given taken ((l.receiveFor n).1.map Frame.bytes)
          (l.receiveFor n).2 ∧
        (l.Poised → l.underway ≤ n → (l.receiveFor n).2.underway = 0) := by
  induction n with
  | zero =>
      intro l h _
      exact ⟨[], [], .of_aside h.calm (.refl l) (.refl _), fun _ few ↦ Nat.le_zero.mp few⟩
  | succ n ih =>
      intro l h hl
      obtain ⟨given, taken, hadv, hpoised, -, hless⟩ := underway_tryReceive h hl
      obtain ⟨given', taken', hadv', hdone⟩ := ih (hadv.willing h) (hadv.settings.trans hl)
      refine ⟨given ++ given', taken ++ taken', ?_, fun poised few ↦ ?_⟩
      · have hmap : (l.receiveFor (n + 1)).1.map Frame.bytes =
            (l.tryReceive.1.map Frame.bytes).toList ++
              (l.tryReceive.2.receiveFor n).1.map Frame.bytes := by
          rw [receiveFor, List.map_append]
          cases l.tryReceive.1 <;> rfl
        rw [hmap]
        exact hadv.trans hadv'
      · have hfewer := hless poised
        exact hdone hpoised (by omega)

end

/-- The link always drains.  Whatever has befallen a link, once its radio is not busy, on a bus that
works and doing nothing by itself, receiving once for each frame and event on its way and once more
leaves nothing to send, to receive or to report.  The radio has recorded the frames that waited to
be sent, as far as they declare anything, and what has been received are the frames that waited and
then what is heard of the pending events, all of them in order. -/
theorem drains (incidents : List Incident) :
    let l := (reached incidents).eased
    let x := l.receiveFor
      (l.tx.waiting.length + l.rx.waiting.length + l.port.pending.length + 1)
    x.2.tx.waiting = [] ∧ x.2.rx.waiting = [] ∧ x.2.port.pending = [] ∧
      x.2.port.sent = l.port.sent ++ l.tx.waiting.filter Frame.declares ∧
      x.1.map Frame.bytes = l.rx.waiting ++ l.port.pending.filterMap Radio.heard? := by
  intro l x
  have hwilling : l.Willing := (restful_reached incidents).willing
  have hsilent : l.port.settings = (Radio.eased {}).settings := rfl
  obtain ⟨given₁, taken₁, hfirst, hpoised, hle, -⟩ := underway_tryReceive hwilling hsilent
  obtain ⟨given, taken, hadv, -⟩ := advances_receiveFor
    (l.tx.waiting.length + l.rx.waiting.length + l.port.pending.length + 1) hwilling hsilent
  obtain ⟨-, -, -, hdone⟩ := advances_receiveFor
    (l.tx.waiting.length + l.rx.waiting.length + l.port.pending.length)
    (hfirst.willing hwilling) (hfirst.settings.trans hsilent)
  have hzero : x.2.underway = 0 := by
    refine hdone hpoised (Nat.le_trans hle ?_)
    rw [Link.underway]
    omega
  change Advances l given taken (x.1.map Frame.bytes) x.2 at hadv
  rw [Link.underway] at hzero
  have htx : x.2.tx.waiting = [] := List.eq_nil_of_length_eq_zero (by omega)
  have hrx : x.2.rx.waiting = [] := List.eq_nil_of_length_eq_zero (by omega)
  have hpending : x.2.port.pending = [] := List.eq_nil_of_length_eq_zero (by omega)
  -- so everything was given, taken and returned
  have hgiven : l.tx.waiting = given := by rw [hadv.tx, htx, List.append_nil]
  have htaken : l.port.pending = taken := by
    have hall := hadv.pending
    rwa [Radio.answers_of_eased hsilent, hpending, List.append_nil, List.append_nil] at hall
  refine ⟨htx, hrx, hpending, ?_, ?_⟩
  · rw [hadv.sent, hgiven]
  · have hall := hadv.rx
    rw [hrx, List.append_nil] at hall
    rw [← hall, htaken]

end Link

end RadioBoot
