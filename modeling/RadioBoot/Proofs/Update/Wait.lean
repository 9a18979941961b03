import RadioBoot.Proofs.Restart.Trace
import RadioBoot.Proofs.Session.Traffic
import RadioBoot.Proofs.Update.Shutdown
import RadioBoot.Sim.Flash

/-!
# How long a reset waits

A radio that goes along ends the wait of a reset, whatever is on its way on either side of the link
(`reset_over`).  Until the request to disconnect has been taken the link is so full that there is
work left, and from then on either the request or what the radio makes of it is on its way
(`Ending`), so that there is work left as well.  Every turn but the first makes it less, and so
there are not more turns than there was work, with the request and the first turn on top.
-/

namespace RadioBoot

open Sim
open Link (Advances Cooperative Poised)

/-! ## The end of a connection -/

namespace Sim.Radio

/-- What a radio reports when the host has asked for the disconnect. -/
def hungUp : List UInt8 := [3, 0x86, 0x03, 0x13]

theorem heard?_hungUp : heard? hungUp = some hungUp := by decide

theorem hungUp_mem_answersTo {r : Radio} (answers : r.autoDisconnect = true) :
    hungUp ∈ r.answersTo (Command.disconnect Command.reasonTerminate).bytes := by
  have hanswer : r.answersTo (Command.disconnect Command.reasonTerminate).bytes =
      (if r.autoDisconnect then r.settings.pushDisconnected else r.settings).pending := rfl
  rw [hanswer, answers]
  exact List.mem_singleton_self _

end Sim.Radio

namespace Link

variable {l l' : Link Radio} {given taken returned : List (List UInt8)}

/-- The end of the connection is on its way: the request for it waits to be sent, or the radio is
going to report it, or the report waits to be received. -/
def Ending (l : Link Radio) : Prop :=
  (Command.disconnect Command.reasonTerminate).bytes ∈ l.tx.waiting ∨
    Radio.hungUp ∈ l.port.pending ∨ Radio.hungUp ∈ l.rx.waiting

/-- Then there is work left. -/
theorem Ending.load (h : l.Ending) : 0 < l.load := by
  rw [Link.load]
  rcases h with h | h | h <;> have := List.length_pos_of_mem h <;> omega

/-- It stays on its way until it is received. -/
theorem Ending.advances (h : l.Ending) (answers : l.port.autoDisconnect = true)
    (ha : Advances l given taken returned l') : l'.Ending ∨ Radio.hungUp ∈ returned := by
  have reported (hp : Radio.hungUp ∈ l.port.pending ++ given.flatMap l.port.answersTo) :
      l'.Ending ∨ Radio.hungUp ∈ returned := by
    rw [ha.pending, List.mem_append] at hp
    rcases hp with hp | hp
    · have hrx : Radio.hungUp ∈ l.rx.waiting ++ taken.filterMap Radio.heard? :=
        List.mem_append_right _ (List.mem_filterMap.mpr ⟨_, hp, Radio.heard?_hungUp⟩)
      rw [ha.rx, List.mem_append] at hrx
      exact hrx.elim .inr fun hrx ↦ .inl (.inr (.inr hrx))
    · exact .inl (.inr (.inl hp))
  rcases h with h | h | h
  · rw [ha.tx, List.mem_append] at h
    rcases h with h | h
    · exact reported (List.mem_append_right _
        (List.mem_flatMap.mpr ⟨_, h, Radio.hungUp_mem_answersTo answers⟩))
    · exact .inl (.inl h)
  · exact reported (List.mem_append_left _ h)
  · have hrx := List.mem_append_left (taken.filterMap Radio.heard?) h
    rw [ha.rx, List.mem_append] at hrx
    exact hrx.elim .inr fun hrx ↦ .inl (.inr (.inr hrx))

end Link

namespace Session

variable {l : Link Radio}

/-- The radio's report is read as a disconnect. -/
theorem hangsUp_of_hungUp (s : Session)
    (h : l.tryReceive.1.map Frame.bytes = some Radio.hungUp) : s.HangsUp l := by
  refine ⟨0x03, 0x13, ?_⟩
  rw [nextEvent]
  rcases hx : l.tryReceive with ⟨_ | f, l'⟩
  · rw [hx] at h
    exact absurd h (by simp)
  · rw [hx, Option.map_some, Option.some.injEq] at h
    have hread : Event.decode f = .ok (.disconnected 0x03 0x13) := by
      rw [Event.decode_eq_read, h]
      rfl
    simp only [hread]

/-! ### The request -/

/-- The request to disconnect leaves a poised link poised. -/
theorem poised_disconnect (s : Session) (h : l.Poised) (reason : UInt8) :
    (s.disconnect l reason).2.2.Poised := by
  rcases s.disconnect_cases l reason with ⟨-, hc⟩ | ⟨-, l', hc, htakes⟩ <;> rw [hc]
  · exact h
  · exact h.takes htakes

/-- It fits a frame, so the radio goes along with it. -/
theorem cooperative_disconnect (s : Session) (h : l.Cooperative) (reason : UInt8) :
    (s.disconnect l reason).2.2.Cooperative := by
  obtain ⟨hport, htx, _⟩ := (s.sends_disconnect h.calm reason).queues
  refine ⟨hport.calm h.calm, ?_, ?_, ?_⟩
  · rw [hport]
    exact h.free
  · rw [hport]
    exact h.answers
  · rw [htx]
    intro bs hbs
    rcases List.mem_append.mp hbs with hbs | hbs
    · exact h.fits bs hbs
    · split at hbs
      · obtain rfl := List.mem_singleton.mp hbs
        exact (by decide : 2 ≤ 31)
      · exact absurd hbs (by simp)

/-- A request that is taken is one more frame to send. -/
theorem load_disconnect (s : Session) (h : l.Cooperative) (reason : UInt8) :
    (s.disconnect l reason).2.2.load =
      l.load + if (s.disconnect l reason).1 then 5 else 0 := by
  obtain ⟨hport, htx, hrx⟩ := (s.sends_disconnect h.calm reason).queues
  rw [Link.load, Link.load, htx, hrx, hport.pending]
  split
  · rw [List.map_singleton, List.length_append, List.length_singleton]
    omega
  · rw [List.map_nil, List.append_nil, Nat.add_zero]

end Session

namespace Updater

/-! ## One turn of the wait -/

/-- A wait for a disconnect over such a link: once the request has been taken, the end is on its
way. -/
structure Waits (requested : Bool) (l : Link Radio) : Prop where
  cooperative : l.Cooperative
  ending : requested = true → l.Ending

/-- The work that is left to a wait; the request counts as a frame to send. -/
def patience (requested : Bool) (l : Link Radio) : Nat := l.load + if requested then 0 else 5

variable {requested : Bool} {l : Link Radio}

/-- Asking does not make the work more, and it leaves some: the request, or what keeps it from being
taken. -/
theorem Waits.ask (h : Waits requested l) (s : Session) :
    Waits (Updater.ask requested s l).1 (Updater.ask requested s l).2.2 ∧
      0 < (Updater.ask requested s l).2.2.load ∧
      patience (Updater.ask requested s l).1 (Updater.ask requested s l).2.2 =
        patience requested l ∧
      (l.Poised → (Updater.ask requested s l).2.2.Poised) := by
  cases requested with
  | true => exact ⟨h, (h.ending rfl).load, rfl, id⟩
  | false =>
      have hcoop := s.cooperative_disconnect h.cooperative Command.reasonTerminate
      have hload := s.load_disconnect h.cooperative Command.reasonTerminate
      have hpoised (poised : l.Poised) := s.poised_disconnect poised Command.reasonTerminate
      have hask : Updater.ask false s l = s.disconnect l Command.reasonTerminate := rfl
      rcases s.disconnect_cases l Command.reasonTerminate with
        ⟨full, hrefused⟩ | ⟨-, l', htaken, htakes⟩
      · -- what keeps the request from being taken has still to be sent
        have hlen : l.tx.waiting.length + 1 = 4 := FrameRing.isFull_iff_waiting.mp full
        rw [hask, hrefused]
        refine ⟨h, ?_, rfl, id⟩
        rw [Link.load]
        dsimp only
        omega
      · rw [htaken] at hcoop hload hpoised
        rw [hask, htaken]
        have hending : l'.Ending := by
          refine .inl ?_
          rw [htakes.waiting]
          exact List.mem_append_right _ (by simp)
        exact ⟨⟨hcoop, fun _ ↦ hending⟩, hending.load, hload, hpoised⟩

/-- A turn of the wait hears of the disconnect, or the wait goes on from a poised link; and if it
was poised before, there is less work left. -/
theorem Waits.turn (h : Waits requested l) (s : Session) {asked : Bool × Session × Link Radio}
    (ha : Updater.ask requested s l = asked) :
    asked.2.1.HangsUp asked.2.2 ∨
      Waits asked.1 (asked.2.1.nextEvent asked.2.2).2.2 ∧
        (asked.2.1.nextEvent asked.2.2).2.2.Poised ∧
        patience asked.1 (asked.2.1.nextEvent asked.2.2).2.2 ≤ patience requested l ∧
        (l.Poised →
          patience asked.1 (asked.2.1.nextEvent asked.2.2).2.2 < patience requested l) := by
  obtain ⟨hwaits, hwork, hpatience, hpoised⟩ := h.ask s
  rw [ha] at hwaits hwork hpatience hpoised
  obtain ⟨given, taken, hadvances, hleft, hless⟩ :=
    Link.advances_tryReceive hwaits.cooperative.willing
  have hload := hadvances.load
  obtain ⟨log, hlink⟩ := asked.2.1.nextEvent_link asked.2.2
  by_cases heard : Radio.hungUp ∈ (asked.2.2.tryReceive.1.map Frame.bytes).toList
  · rw [Option.mem_toList] at heard
    exact .inl (asked.2.1.hangsUp_of_hungUp heard)
  · refine .inr ?_
    rw [hlink, ← hpatience]
    generalize asked.2.2.tryReceive.2 = l' at hadvances hleft hless hload
    have hcoop := hadvances.cooperative hwaits.cooperative
    refine ⟨⟨⟨hcoop.calm, hcoop.free, hcoop.answers, hcoop.fits⟩, fun requested ↦ ?_⟩,
      ⟨hleft.room, hleft.request⟩, ?_, fun poised ↦ ?_⟩
    · exact ((hwaits.ending requested).advances hwaits.cooperative.answers hadvances).resolve_right
        heard
    · change l'.load + _ ≤ _
      rw [patience]
      omega
    · have := hless (hpoised poised) hwork
      change l'.load + _ < _
      rw [patience]
      omega

/-! ## The wait -/

/-- From a poised link, the wait is over when there have been more turns than there was work. -/
theorem Waits.ends_of_poised (turns : Nat) :
    ∀ {requested : Bool} {s : Session} {l : Link Radio}, Waits requested l → l.Poised →
      patience requested l < turns →
        ∃ x, ∀ more, awaitDisconnect (turns + more) requested s l = .done x := by
  induction turns with
  | zero =>
      intro requested s l _ _ enough
      exact absurd enough (Nat.not_lt_zero _)
  | succ turns ih =>
      intro requested s l h poised enough
      obtain ⟨asked, ha⟩ : ∃ asked, Updater.ask requested s l = asked := ⟨_, rfl⟩
      simp only [Nat.add_right_comm turns 1]
      rcases awaitDisconnect_succ ha with ⟨_, hover⟩ | ⟨unheard, hover⟩
      · exact ⟨_, fun more ↦ hover (turns + more)⟩
      · obtain ⟨hwaits, hpoised, _, hless⟩ := (h.turn s ha).resolve_left unheard
        have hless := hless poised
        obtain ⟨x, hx⟩ := ih hwaits hpoised (by omega)
        exact ⟨x, fun more ↦ (hover _).trans (hx more)⟩

/-- From any link, it takes one turn more. -/
theorem Waits.ends (h : Waits requested l) (s : Session) :
    ∃ x, ∀ turns, patience requested l + 2 ≤ turns →
      awaitDisconnect turns requested s l = .done x := by
  obtain ⟨asked, ha⟩ : ∃ asked, Updater.ask requested s l = asked := ⟨_, rfl⟩
  rcases awaitDisconnect_succ ha with ⟨_, hover⟩ | ⟨unheard, hover⟩
  · refine ⟨(asked.2.1.nextEvent asked.2.2).2, fun turns enough ↦ ?_⟩
    obtain ⟨n, rfl⟩ : ∃ n, turns = n + 1 := ⟨turns - 1, by omega⟩
    exact hover n
  · obtain ⟨hwaits, hpoised, hleft, _⟩ := (h.turn s ha).resolve_left unheard
    obtain ⟨x, hx⟩ := Waits.ends_of_poised (patience requested l + 1)
      (s := (asked.2.1.nextEvent asked.2.2).2.1) hwaits hpoised (by omega)
    refine ⟨x, fun turns enough ↦ ?_⟩
    obtain ⟨n, rfl⟩ := Nat.exists_eq_add_of_le enough
    rw [show patience requested l + 2 + n = patience requested l + 1 + n + 1 by omega, hover]
    exact hx n

/-! ## The reset -/

variable {page : Nat} {F R : Type}

/-- Over a radio that goes along, a reset is over.  Whatever the session, the frames that wait on
both sides, the events that are pending, the level of the request line and what else the radio does
by itself: any event that leads to a reset is handled within a number of turns that is bounded by
the work on the link, and then the update is over and one restart has been asked for. -/
theorem reset_over [Flash F] [Restart R] (u : Updater page Radio F (Restart.Traced R))
    {r : Request} (leads : route u.phase r = some .reset) (cooperative : u.link.Cooperative) :
    ∃ v, (∀ turns, u.link.load + 7 ≤ turns → u.dispatch turns r = .done v) ∧
      v.phase = .terminated ∧ v.restart.requests = u.restart.requests + 1 := by
  have hwaits : Waits false (u.moveTo .awaitingReset).link :=
    ⟨⟨cooperative.calm, cooperative.free, cooperative.answers, cooperative.fits⟩, by simp⟩
  obtain ⟨⟨s, l⟩, hx⟩ := hwaits.ends (u.moveTo .awaitingReset).session
  have hpatience : patience false (u.moveTo .awaitingReset).link = u.link.load + 5 := rfl
  have hreset (turns : Nat) (enough : u.link.load + 7 ≤ turns) :
      u.reset turns = u.reset (u.link.load + 7) := by
    rw [reset, reset]
    dsimp only
    rw [hx turns (by omega), hx (u.link.load + 7) (by omega)]
  cases hv : u.reset (u.link.load + 7) with
  | waiting v =>
      rw [reset] at hv
      dsimp only at hv
      rw [hx (u.link.load + 7) (by omega)] at hv
      exact absurd hv (by simp)
  | done v =>
      obtain ⟨hasked, hend⟩ := restart_of_reset hv
      have hflush : v.flushResponses.2.phase = v.phase := rfl
      refine ⟨v.flushResponses.2, fun turns enough ↦ ?_, hflush.trans hend, ?_⟩
      · rw [dispatch, leads]
        dsimp only
        rw [hreset turns enough, hv, Progress.mapDone_done]
      · exact congrArg Restart.Traced.requests hasked

/-- An updater in the middle of everything: the frames that wait fill the link on both sides, the
radio has malformed events pending among others and answers all it can, and nobody has asked for a
transfer. -/
def crowded : Updater 2 Radio Sim.Flash (Restart.Traced Watchdog) :=
  let radio : Radio :=
    { pending := [[], [200], [2, 0x8C, 10], [1, 0x86]]
      autoCredit := true
      autoDisconnect := true
      autoConnect := some [8, 9, 10] }
  let link := Link.fresh radio
  let ring := (((link.tx.enqueue (.ofBuffer 0 [4, 0x15, 9, 16, 3])).2.enqueue
    (.ofBuffer 0 [5, 0x0F, 0, 180, 0, 80])).2.enqueue (.ofBuffer 0 [])).2
  .fresh ⟨8, 9, 10⟩ 0 (.fresh 2) { link with tx := ring, rx := ring } { capacity := 16 } (.fresh {})

/-- Even then a request to reset is handled within 33 turns. -/
theorem reset_over_crowded :
    ∃ v, crowded.dispatch 33 (.control 6 [6]) = .done v ∧ v.phase = .terminated ∧
      v.restart.requests = 1 := by
  have leads : route crowded.phase (.control 6 [6]) = some .reset := by decide
  have cooperative : crowded.link.Cooperative :=
    ⟨⟨rfl, rfl⟩, rfl, rfl, by decide +kernel⟩
  have enough : crowded.link.load + 7 ≤ 33 := by decide +kernel
  obtain ⟨v, hv, hend, hrequests⟩ := reset_over crowded leads cooperative
  exact ⟨v, hv 33 enough, hend, hrequests⟩

end Updater

end RadioBoot
