import RadioBoot.Proofs.Link.Progress
import RadioBoot.Proofs.Session.Conservation
import RadioBoot.Sim.Flash

/-!
# Responses get out

A response can be held up by three things: there is no credit, the frames to send leave no place for
one more, or the radio is not ready.  None of them can hold up the others.  The radio hands back a
credit for every data frame, so as long as there is one credit somewhere, in hand or on its way
(`Updater.Flows`), responses are sent sooner or later.

The measure behind this counts the responses that wait as frames to send, so that sending them
leaves it as it is and every receiving turn makes it less, the first one perhaps excepted
(`Flows.serve`).  When it cannot get less because there is nothing on its way, then all the credit
is in hand and all places are free, and no response can be left.
-/

namespace RadioBoot

open Sim
open Link (Advances Poised Sends)

/-! ## Credit on its way -/

/-- Whether an event hands back credit for data frames, and not none. -/
def Event.credits : Event → Bool
  | .dataCredit credit => credit != 0
  | _ => false

namespace Sim.Radio

variable {r : Radio}

/-- Whatever else the radio does by itself, it answers a data frame with one credit. -/
theorem answersTo_data (h : r.autoCredit = true) {frame : List UInt8}
    (data : Command.isData frame = true) : r.answersTo frame = [[2, 0x8A, 1]] := by
  rcases frame with _ | ⟨len, _ | ⟨opcode, params⟩⟩
  · exact absurd data (by simp [Command.isData])
  · exact absurd data (by simp [Command.isData])
  · obtain rfl : opcode = 0x15 := by simpa [Command.isData] using data
    have hanswer : r.answersTo (len :: 0x15 :: params) =
      (if r.autoCredit then r.settings.pushCredit 1 else r.settings).pending := rfl
    rw [hanswer, h]
    rfl

theorem answers_data (h : r.autoCredit = true) {frames : List (List UInt8)}
    (data : ∀ bs ∈ frames, Command.isData bs = true) :
    frames.flatMap r.answersTo = .replicate frames.length [2, 0x8A, 1] := by
  induction frames with
  | nil => rfl
  | cons frame rest ih =>
      rw [List.flatMap_cons, answersTo_data h (data frame List.mem_cons_self),
        ih fun bs hbs ↦ data bs (List.mem_cons_of_mem _ hbs)]
      rfl

end Sim.Radio

namespace Link

variable {l l' : Link Radio} {given taken returned : List (List UInt8)}

/-- Nothing but data goes out and nothing but credit comes in.  The radio is not busy, between
transfers on a bus that works, and hands back a credit for every data frame. -/
structure Crediting (l : Link Radio) : Prop where
  calm : l.port.Calm
  free : l.port.busy = false
  autoCredit : l.port.autoCredit = true
  data : ∀ bs ∈ l.tx.waiting, Frame.Sendable bs ∧ Command.isData bs = true
  received : ∀ bs ∈ l.rx.waiting, (Event.read? bs).any Event.credits = true
  pending : ∀ event ∈ l.port.pending, (Radio.reported? event).any Event.credits = true

/-- The credits that come back with the events still to be received. -/
def returning (l : Link Radio) : Nat := l.events.foldr (fun e n ↦ e.handsBack + n) 0

namespace Crediting

theorem willing (h : l.Crediting) : l.Willing := by
  refine ⟨h.calm, h.free, fun bs hbs ↦ ?_⟩
  obtain ⟨⟨f, rfl, _, fits⟩, _⟩ := h.data bs hbs
  exact fits

/-! ### What a turn takes -/

theorem given_data (h : l.Crediting) (ha : Advances l given taken returned l') :
    ∀ bs ∈ given, Frame.Sendable bs ∧ Command.isData bs = true := fun bs hbs ↦
  h.data bs (ha.tx ▸ List.mem_append_left _ hbs)

/-- The answers to the frames are credits, like the other events. -/
theorem reported_credits (h : l.Crediting) (ha : Advances l given taken returned l') :
    ∀ event ∈ taken ++ l'.port.pending, (Radio.reported? event).any Event.credits = true := by
  rw [← ha.pending, Radio.answers_data h.autoCredit fun bs hbs ↦ (h.given_data ha bs hbs).2]
  intro event he
  rcases List.mem_append.mp he with he | he
  · exact h.pending event he
  · obtain rfl := List.eq_of_mem_replicate he
    decide

/-- And so all of them are heard, as credits. -/
theorem read_credits (h : l.Crediting) (ha : Advances l given taken returned l') :
    ∀ bs ∈ returned ++ l'.rx.waiting, (Event.read? bs).any Event.credits = true := by
  rw [← ha.rx]
  intro bs hbs
  rcases List.mem_append.mp hbs with hbs | hbs
  · exact h.received bs hbs
  · obtain ⟨event, he, hheard⟩ := List.mem_filterMap.mp hbs
    have hcredits := h.reported_credits ha event (List.mem_append_left _ he)
    rwa [Radio.reported?, hheard, Option.bind_some] at hcredits

theorem advances (h : l.Crediting) (ha : Advances l given taken returned l') : l'.Crediting where
  calm := ha.calm
  free := ha.busy.trans h.free
  autoCredit := (congrArg Radio.autoCredit ha.settings).trans h.autoCredit
  data bs hbs := h.data bs (ha.tx ▸ List.mem_append_right _ hbs)
  received bs hbs := h.read_credits ha bs (List.mem_append_right _ hbs)
  pending event he := h.reported_credits ha event (List.mem_append_right _ he)

/-- What is on its way is neither lost nor made more: a frame becomes an event, and an event a
received frame. -/
theorem underway_advances (h : l.Crediting) (ha : Advances l given taken returned l') :
    l'.underway + returned.length = l.underway := by
  have hheard : (taken.filterMap Radio.heard?).length = taken.length := by
    refine List.filterMap_length_eq_length.mpr fun event he ↦ ?_
    have hcredits := h.reported_credits ha event (List.mem_append_left _ he)
    rw [Radio.reported?] at hcredits
    cases hnone : Radio.heard? event with
    | none => simp [hnone] at hcredits
    | some bs => rfl
  have htx := congrArg List.length ha.tx
  have hpending := congrArg List.length ha.pending
  have hrx := congrArg List.length ha.rx
  rw [Radio.answers_data h.autoCredit fun bs hbs ↦ (h.given_data ha bs hbs).2] at hpending
  simp only [List.length_append, List.length_replicate, hheard] at htx hpending hrx
  rw [underway, underway]
  omega

/-- Every frame that is taken is recorded. -/
theorem outgoing_advances (h : l.Crediting) (ha : Advances l given taken returned l') :
    l'.outgoing = l.outgoing := by
  have hrecorded : given.filter Frame.declares = given := by
    refine List.filter_eq_self.mpr fun bs hbs ↦ ?_
    obtain ⟨⟨f, rfl, declares, _⟩, _⟩ := h.given_data ha bs hbs
    rw [Frame.declares_bytes, declares]
    rfl
  rw [outgoing, outgoing, ha.sent, hrecorded, ha.tx, List.append_assoc]

/-- More data may be sent over such a link. -/
theorem sends {cs : List Command} (h : l.Crediting) (hs : Sends l cs l')
    (data : ∀ c ∈ cs, Command.isData c.bytes = true) : l'.Crediting := by
  obtain ⟨⟨hport, htx, hrx⟩, hsendable⟩ := hs
  refine ⟨hport.calm h.calm, ?_, ?_, ?_, hrx ▸ h.received, hport.pending ▸ h.pending⟩
  · rw [hport]
    exact h.free
  · rw [hport]
    exact h.autoCredit
  · intro bs hbs
    rw [htx, List.mem_append] at hbs
    rcases hbs with hbs | hbs
    · exact h.data bs hbs
    · obtain ⟨c, hc, rfl⟩ := List.mem_map.mp hbs
      exact ⟨hsendable c hc, data c hc⟩

end Crediting

end Link

namespace Session

variable {s : Session} {l : Link Radio}

/-- With a budget, there is credit in hand as soon as some has been handed back. -/
theorem available_returnCredit (total : 1 ≤ s.total) {credit : UInt8} (some : credit ≠ 0) :
    0 < (s.returnCredit credit).value.available.toNat := by
  have hsome : credit.toNat ≠ 0 := fun zero ↦ some (UInt8.toNat_inj.mp zero)
  have ht := s.total.toNat_lt
  rw [UInt8.le_iff_toNat_le, UInt8.toNat_one] at total
  rw [returnCredit, UInt8.toNat_ofNat_of_lt' (by simp only [UInt8.size]; omega)]
  omega

/-- Over such a link, nothing is received, or the session has credit in hand. -/
theorem credit_nextEvent (h : l.Crediting) (total : 1 ≤ s.total) :
    l.tryReceive.1 = none ∧ (s.nextEvent l).2.1 = s ∨
      (s.nextEvent l).2.1 = { s with available := (s.nextEvent l).2.1.available } ∧
        0 < (s.nextEvent l).2.1.available.toNat := by
  obtain ⟨given, taken, hadvances, -⟩ := Link.advances_tryReceive h.willing
  have hreturned := fun bs hbs ↦ h.read_credits hadvances bs (List.mem_append_left _ hbs)
  clear hadvances
  rw [nextEvent]
  generalize l.tryReceive = received at hreturned
  rcases received with ⟨_ | f, l'⟩
  · exact .inl ⟨rfl, rfl⟩
  · have hcredits := hreturned f.bytes (by simp)
    dsimp only
    rw [Event.decode_eq_read]
    cases hread : Event.read f.bytes with
    | error e => simp [Event.read?, hread, Except.toOption] at hcredits
    | ok e =>
        have hcredits : e.credits = true := by
          simpa [Event.read?, hread, Except.toOption] using hcredits
        cases e with
        | dataCredit credit =>
            have some : credit ≠ 0 := by simpa [Event.credits] using hcredits
            exact .inr ⟨rfl, available_returnCredit total some⟩
        | _ => exact absurd hcredits (by simp [Event.credits])

end Session

namespace Updater

/-! ## Sending -/

/-- What sending responses does to session and link: it spends credit on frames to send, one for
each, and changes nothing else about the session.  If responses are left although the pipe is open
and there is credit, then there is no place for them. -/
structure Spends (pipe : UInt8) {P : Type} (s : Session) (l : Link P) (rest : List Message)
    (s' : Session) (l' : Link P) : Prop where
  session : s' = { s with available := s'.available }
  credit : s'.available.toNat + l'.tx.waiting.length = s.available.toNat + l.tx.waiting.length
  heldUp : rest ≠ [] → s'.isAvailable pipe = true → s'.available ≠ 0 → l'.tx.isFull = true

theorem spends_flushResponses {page : Nat} {P F R : Type} [Port P] (u : Updater page P F R) :
    Spends u.pipes.controlTx u.session u.link u.flushResponses.2.outbox
      u.flushResponses.2.session u.flushResponses.2.link := by
  have hnone := u.quota_flushResponses
  have hcredit := u.available_flushResponses
  have hlen := u.length_flushResponses
  obtain ⟨link, hflush, -⟩ := u.flushResponses_eq
  rw [hflush] at hnone hcredit hlen ⊢
  refine ⟨rfl, by omega, fun left opened credit ↦ ?_⟩
  rcases quota_eq_zero_iff.mp hnone with hempty | hclosed | hzero | hfull
  · exact absurd (List.length_eq_zero_iff.mp hempty) left
  · exact absurd (hclosed.symm.trans opened) (by simp)
  · exact absurd hzero credit
  · exact hfull

/-! ## Turns -/

variable {page : Nat} {F R : Type} {u v w : Updater page Radio F R}

/-- One turn: send responses as far as the link takes them, then receive the next event. -/
def serve (u : Updater page Radio F R) : Updater page Radio F R :=
  let u := u.flushResponses.2
  let x := u.session.nextEvent u.link
  { u with session := x.2.1, link := x.2.2 }

/-- So many turns. -/
def serveFor (u : Updater page Radio F R) : Nat → Updater page Radio F R
  | 0 => u
  | turns + 1 => u.serve.serveFor turns

/-- All that goes out, in order: what the radio has recorded, the frames that wait to be sent, and
those that will send the responses. -/
def outgoing (u : Updater page Radio F R) : List (List UInt8) :=
  u.link.outgoing ++ (u.outbox.map (response u.pipes.controlTx)).map Command.bytes

/-- The work that is left.  A response that waits counts as a frame to send. -/
def work (u : Updater page Radio F R) : Nat := 5 * u.outbox.length + u.link.load

/-- Credit flows: the pipe for responses is open, there is a budget, and there is credit in hand or
on its way. -/
structure Flows (u : Updater page Radio F R) : Prop where
  link : u.link.Crediting
  opened : u.session.isAvailable u.pipes.controlTx = true
  total : 1 ≤ u.session.total
  credit : 0 < u.session.available.toNat + u.link.underway

/-- From `u` to `v` nothing is lost: credit still flows, the same goes out in the same order, and
the work has not become more. -/
structure Serves (u v : Updater page Radio F R) : Prop where
  flows : v.Flows
  outgoing : v.outgoing = u.outgoing
  work : v.work ≤ u.work

theorem Serves.trans (h : Serves u v) (h' : Serves v w) : Serves u w :=
  ⟨h'.flows, h'.outgoing.trans h.outgoing, Nat.le_trans h'.work h.work⟩

/-- Sending responses puts them behind the frames to send. -/
theorem Flows.flush (h : u.Flows) : Serves u u.flushResponses.2 := by
  obtain ⟨taken, hout, hsends⟩ := sends_flushResponses u h.link.calm
  have hspends := u.spends_flushResponses
  have hsession : u.flushResponses.2.session =
    { u.session with available := u.flushResponses.2.session.available } := hspends.session
  have hcredit : u.flushResponses.2.session.available.toNat +
    u.flushResponses.2.link.tx.waiting.length =
      u.session.available.toNat + u.link.tx.waiting.length := hspends.credit
  have hpipes : u.flushResponses.2.pipes = u.pipes := rfl
  clear hspends
  generalize u.flushResponses.2 = v at *
  obtain ⟨hport, htx, hrx⟩ := hsends.queues
  have hlen := congrArg List.length htx
  rw [List.length_append, List.length_map, List.length_map] at hlen
  refine ⟨⟨h.link.sends hsends ?_, ?_, ?_, ?_⟩, ?_, ?_⟩
  · intro c hc
    obtain ⟨m, -, rfl⟩ := List.mem_map.mp hc
    rfl
  · rw [hsession, hpipes]
    exact h.opened
  · rw [hsession]
    exact h.total
  · have hcredit' := h.credit
    rw [Link.underway] at hcredit' ⊢
    rw [hport.pending, hrx]
    omega
  · rw [outgoing, outgoing, Link.outgoing, Link.outgoing, htx, hport.sent, hpipes, hout]
    simp
  · rw [work, work, Link.load, Link.load, hport.pending, hrx, hout, List.length_append]
    omega

/-- When there is nothing to do on the link, no response is left after sending responses: all the
credit is in hand and there is a place. -/
theorem Flows.outbox_flush (h : u.Flows) (idle : u.flushResponses.2.link.load = 0) :
    u.flushResponses.2.outbox = [] := by
  obtain ⟨-, hopened, -, hcredit⟩ := h.flush.flows
  rw [Link.load] at idle
  rw [Link.underway] at hcredit
  refine Classical.byContradiction fun left ↦ ?_
  have hfull : u.flushResponses.2.link.tx.isFull = true :=
    u.spends_flushResponses.heldUp left hopened fun zero ↦ by
      have hzero : u.flushResponses.2.session.available.toNat = 0 := congrArg UInt8.toNat zero
      omega
  have hslots : u.flushResponses.2.link.tx.waiting.length + 1 = 4 :=
    FrameRing.isFull_iff_waiting.mp hfull
  omega

/-- Receiving an event brings back credit, or it leaves all the credit where it is. -/
theorem Flows.hear (h : u.Flows) :
    Serves u { u with
        session := (u.session.nextEvent u.link).2.1
        link := (u.session.nextEvent u.link).2.2 } ∧
      (u.session.nextEvent u.link).2.2.Poised ∧
      (u.link.Poised → 0 < u.link.load →
        (u.session.nextEvent u.link).2.2.load < u.link.load) := by
  obtain ⟨given, taken, hadvances, hpoised, hless⟩ := Link.advances_tryReceive h.link.willing
  have hcrediting := h.link.advances hadvances
  have hunderway := h.link.underway_advances hadvances
  have houtgoing := h.link.outgoing_advances hadvances
  have hload : u.link.tryReceive.2.load ≤ u.link.load :=
    Nat.le_trans (Nat.le_add_right _ _) hadvances.load
  have hcredit := Session.credit_nextEvent h.link h.total
  obtain ⟨log, hlink⟩ := u.session.nextEvent_link u.link
  rw [hlink]
  generalize (u.session.nextEvent u.link).2.1 = s at *
  generalize u.link.tryReceive = x at *
  obtain ⟨received, l'⟩ := x
  have hlink : ({ l' with log := log } : Link Radio).Crediting := ⟨hcrediting.calm, hcrediting.free,
    hcrediting.autoCredit, hcrediting.data, hcrediting.received, hcrediting.pending⟩
  have hsession : s = { u.session with available := s.available } := by
    rcases hcredit with ⟨-, rfl⟩ | ⟨hs, -⟩
    · rfl
    · exact hs
  refine ⟨⟨⟨hlink, ?_, ?_, ?_⟩, ?_, ?_⟩, ⟨hpoised.room, hpoised.request⟩, hless⟩
  · rw [hsession]
    exact h.opened
  · rw [hsession]
    exact h.total
  · rcases hcredit with ⟨rfl, rfl⟩ | ⟨-, some⟩
    · change 0 < u.session.available.toNat + l'.underway
      rw [show l'.underway = u.link.underway from hunderway]
      exact h.credit
    · exact Nat.add_pos_left some _
  · exact congrArg (· ++ _) houtgoing
  · exact Nat.add_le_add_left hload _

/-- A turn leaves the link poised; and where it was poised before, the work has become less, if
there was any. -/
theorem Flows.serve (h : u.Flows) :
    Serves u u.serve ∧ u.serve.link.Poised ∧
      (u.link.Poised → 0 < u.work → u.serve.work < u.work) := by
  have hflush := h.flush
  obtain ⟨hhear, hpoised, hless⟩ := hflush.flows.hear
  refine ⟨hflush.trans hhear, hpoised, fun poised some ↦ ?_⟩
  have hafter : u.serve.work ≤ u.flushResponses.2.work := hhear.work
  have hwork : u.flushResponses.2.work ≤ u.work := hflush.work
  rcases Nat.eq_zero_or_pos u.flushResponses.2.link.load with idle | busy
  · have hnone : u.flushResponses.2.work = 0 := by
      rw [work, h.outbox_flush idle, idle]
      rfl
    omega
  · have hload := hless (u.poised_flushResponses poised) busy
    refine Nat.lt_of_lt_of_le ?_ hwork
    exact Nat.add_lt_add_left hload _

/-- From a poised link, every turn makes the work less until there is none. -/
theorem Flows.serveFor_of_poised (turns : Nat) :
    ∀ {u : Updater page Radio F R}, u.Flows → u.link.Poised →
      Serves u (u.serveFor turns) ∧ (u.serveFor turns).work ≤ u.work - turns := by
  induction turns with
  | zero => intro u h _; exact ⟨⟨h, rfl, Nat.le_refl _⟩, Nat.le_refl _⟩
  | succ turns ih =>
      intro u h poised
      obtain ⟨hserve, hpoised, hless⟩ := h.serve
      obtain ⟨hrest, hwork⟩ := ih hserve.flows hpoised
      refine ⟨hserve.trans hrest, Nat.le_trans hwork ?_⟩
      have hle := hserve.work
      rcases Nat.eq_zero_or_pos u.work with none | some
      · omega
      · have := hless poised some
        omega

/-- Some credit on its way is something on its way. -/
theorem credit_underway {s : Session} {l : Link Radio}
    (credit : 1 ≤ s.available.toNat + l.tx.waiting.length + l.returning) :
    0 < s.available.toNat + l.underway := by
  rw [Link.underway]
  refine Nat.pos_of_ne_zero fun none ↦ ?_
  have hrx : l.rx.waiting = [] := List.eq_nil_of_length_eq_zero (by omega)
  have hpending : l.port.pending = [] := List.eq_nil_of_length_eq_zero (by omega)
  have hnone : l.returning = 0 := by
    rw [Link.returning, Link.events_eq, hrx, hpending]
    rfl
  omega

/-- Responses get out as long as credit flows.  Let the pipe for responses be open, nothing but data
go out and nothing but credit come in, and let there be one credit somewhere: in hand, going out
with a frame or coming back with an event.  Then, whatever else the session, the rings and the
request line are like, repeating the two calls empties the outbox, both rings and the radio, within
a number of turns that is bounded by the work at first.  The responses have gone out in order and
behind the frames that waited to be sent, and there is credit in hand. -/
theorem responses_get_out (u : Updater page Radio F R) (link : u.link.Crediting)
    (opened : u.session.isAvailable u.pipes.controlTx = true) (total : 1 ≤ u.session.total)
    (credit : 1 ≤ u.session.available.toNat + u.link.tx.waiting.length + u.link.returning)
    {turns : Nat} (enough : u.work < turns) :
    let v := u.serveFor turns
    v.outbox = [] ∧ v.link.tx.waiting = [] ∧ v.link.rx.waiting = [] ∧ v.link.port.pending = [] ∧
      v.link.port.sent = u.link.port.sent ++ u.link.tx.waiting ++
        u.outbox.map (fun m ↦ (response u.pipes.controlTx m).bytes) ∧
      1 ≤ v.session.available := by
  intro v
  obtain ⟨n, rfl⟩ : ∃ n, turns = n + 1 := ⟨turns - 1, by omega⟩
  have hflows : u.Flows := ⟨link, opened, total, credit_underway credit⟩
  obtain ⟨hfirst, hpoised, -⟩ := hflows.serve
  obtain ⟨hrest, hwork⟩ := hfirst.flows.serveFor_of_poised n hpoised
  obtain ⟨hv, houtgoing, -⟩ := hfirst.trans hrest
  have hle := hfirst.work
  have hdone : v.work = 0 := by
    change (u.serve.serveFor n).work = 0
    omega
  rw [work, Link.load] at hdone
  have houtbox : v.outbox = [] := List.eq_nil_of_length_eq_zero (by omega)
  have htx : v.link.tx.waiting = [] := List.eq_nil_of_length_eq_zero (by omega)
  have hrx : v.link.rx.waiting = [] := List.eq_nil_of_length_eq_zero (by omega)
  have hpending : v.link.port.pending = [] := List.eq_nil_of_length_eq_zero (by omega)
  refine ⟨houtbox, htx, hrx, hpending, ?_, ?_⟩
  · have hsent : v.outgoing = u.outgoing := houtgoing
    rw [outgoing, outgoing, Link.outgoing, Link.outgoing, houtbox, htx] at hsent
    simpa [Function.comp_def] using hsent
  · have hcredit : 0 < v.session.available.toNat + v.link.underway := hv.credit
    rw [Link.underway] at hcredit
    rw [UInt8.le_iff_toNat_le, UInt8.toNat_one]
    omega

/-- Responses held up by all there is: no credit is in hand, both rings are full, and nobody has
asked the radio for a transfer. -/
def starved : Updater 2 Radio Sim.Flash Watchdog :=
  let link := Link.fresh ({ pending := [[2, 0x8A, 2]], autoCredit := true } : Radio)
  let data : Frame := .ofBuffer 0 [4, 0x15, 9, 16, 3]
  let credit : Frame := .ofBuffer 0 [2, 0x8A, 1]
  let tx := (((link.tx.enqueue data).2.enqueue data).2.enqueue data).2
  let rx := (((link.rx.enqueue credit).2.enqueue credit).2.enqueue credit).2
  let session : Session := { (Session.fresh 1).markOpen 9 with available := 0 }
  { fresh ⟨8, 9, 10⟩ 0 session { link with tx, rx } { capacity := 16 } {} with
    outbox := [.response 1 .success, .receipt 8, .receipt 16, .imageSize 20] }

/-- Even then the four responses have gone out behind the three frames after 41 turns. -/
theorem responses_get_out_starved :
    let frame : List UInt8 := [4, 0x15, 9, 16, 3]
    starved.session.available = 0 ∧ starved.link.tx.isFull = true ∧
      starved.link.rx.isFull = true ∧ (starved.serveFor 41).outbox = [] ∧
      (starved.serveFor 41).link.port.sent = [frame, frame, frame, [5, 0x15, 9, 16, 1, 1],
        [7, 0x15, 9, 17, 8, 0, 0, 0], [7, 0x15, 9, 17, 16, 0, 0, 0],
        [9, 0x15, 9, 16, 7, 1, 20, 0, 0, 0]] := by
  intro frame
  have data : ∀ bs ∈ starved.link.tx.waiting, Frame.Sendable bs ∧ Command.isData bs = true := by
    have same : ∀ bs ∈ starved.link.tx.waiting, bs = (Frame.ofBuffer 0 frame).bytes := by
      decide +kernel
    intro bs hbs
    obtain rfl := same bs hbs
    exact ⟨⟨.ofBuffer 0 frame, rfl, by decide, by decide⟩, by decide⟩
  have link : starved.link.Crediting :=
    ⟨⟨rfl, rfl⟩, rfl, rfl, data, by decide +kernel, by decide +kernel⟩
  have opened : starved.session.isAvailable starved.pipes.controlTx = true := by decide
  have enough : starved.work < 41 := by decide +kernel
  obtain ⟨houtbox, -, -, -, hsent, -⟩ :=
    responses_get_out starved link opened (by decide) (by decide +kernel) enough
  refine ⟨rfl, by decide +kernel, by decide +kernel, houtbox, hsent.trans ?_⟩
  decide +kernel

end Updater

end RadioBoot
