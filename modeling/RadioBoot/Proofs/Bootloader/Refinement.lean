import RadioBoot.Proofs.Bootloader.Poll
import RadioBoot.Proofs.Flash.Trace
import RadioBoot.Sim.Flash

/-!
# The bootloader refines the bare updater

Between a write of the central and the flash there are the radio, the byte exchange, two rings, the
event decoder, the session and the loop around the updater.  None of this loses a write, repeats
one, changes one or moves one past another, and none of it reaches the update in any other way:
after every call the phase, the image and the calls on the flash are those of a bare updater, with
whatever session and link, that was fed the writes which the radio has given up so far
(`run_refines`).

`Follows` is the simulation, and there is one lemma for each kind of call (`Follows.call`).  Writes
that take the link down are left out: during one, the bootloader discards what it hears.
-/

namespace RadioBoot

open Sim

variable {page : Nat} {P F R : Type}

/-! ## The bare updater -/

namespace Updater

variable [Port P] [Flash F] [Restart R]

/-- Write after write, each once the one before is over. -/
def feed (turns : Nat) (u : Updater page P F R) :
    List (UInt8 × List UInt8) → Progress (Updater page P F R)
  | [] => .done u
  | w :: ws =>
    match u.write turns w.1 w.2 with
    | .done v => v.feed turns ws
    | .waiting v => .waiting v

/-- Whether none of these writes, when it is reached, leads to a reset. -/
def keepsLink (turns : Nat) (u : Updater page P F R) : List (UInt8 × List UInt8) → Bool
  | [] => true
  | w :: ws =>
    !u.pipes.resets u.phase w.1 w.2 && (u.write turns w.1 w.2).state.keepsLink turns ws

variable {turns : Nat} {u v : Updater page P F R} {w : UInt8 × List UInt8}
variable {ws ws' : List (UInt8 × List UInt8)}

/-- One more write comes after the others. -/
theorem feed_concat (h : u.feed turns ws = .done v) :
    u.feed turns (ws ++ [w]) = v.write turns w.1 w.2 := by
  induction ws generalizing u with
  | nil =>
      obtain rfl := Progress.done.inj h
      rw [List.nil_append, feed]
      cases u.write turns w.1 w.2 <;> rfl
  | cons w' ws ih =>
      rw [feed] at h
      rw [List.cons_append, feed]
      cases hw : u.write turns w'.1 w'.2 with
      | done x =>
          rw [hw] at h
          exact ih h
      | waiting x =>
          rw [hw] at h
          exact absurd h (by simp)

/-- The write that is reached after these does not reset. -/
theorem stays_of_keepsLink (h : u.feed turns ws = .done v)
    (keeps : u.keepsLink turns (ws ++ w :: ws') = true) :
    v.pipes.resets v.phase w.1 w.2 = false := by
  induction ws generalizing u with
  | nil =>
      obtain rfl := Progress.done.inj h
      rw [List.nil_append, keepsLink, Bool.and_eq_true, Bool.not_eq_true'] at keeps
      exact keeps.1
  | cons w' ws ih =>
      rw [feed] at h
      rw [List.cons_append, keepsLink, Bool.and_eq_true] at keeps
      cases hw : u.write turns w'.1 w'.2 with
      | done x =>
          rw [hw] at h keeps
          exact ih h keeps.2
      | waiting x =>
          rw [hw] at h
          exact absurd h (by simp)

end Updater

/-! ## Calls on the bootloader -/

namespace Bootloader

/-- One call on a bootloader or on its radio. -/
inductive Call where
  | /-- The central writes on a pipe. -/
    pushData (pipe : UInt8) (data : List UInt8) (fits : data.length ≤ maxPipeData)
  | /-- Something else happens to the radio, and what it has to report is no write. -/
    radio (c : Radio.Change) (other : ∀ e ∈ c.events, Radio.write? e = none)
  | poll (turns : Nat)

/-- The write that a call brings. -/
def Call.write? : Call → Option (UInt8 × List UInt8)
  | .pushData pipe data _ => some (pipe, data)
  | _ => none

/-- The writes that calls bring, in order. -/
def writes (calls : List Call) : List (UInt8 × List UInt8) := calls.filterMap Call.write?

/-- Before the first poll: nothing has been called, or the bootloader has been started. -/
def begun [Port P] (entered : Option Entry) (config : Config) (port : P) (flash : F) (restart : R) :
    Bootloader page P (Flash.Traced F) R :=
  match entered with
  | none => .fresh port (.fresh flash) restart config
  | some entry => (Bootloader.fresh port (.fresh flash) restart config).start entry

variable [Flash F] [Restart R]

def call (b : Bootloader page Radio F R) : Call → Progress (Bootloader page Radio F R)
  | .pushData pipe data _ => .done (b.withLink
      { b.updater.link with port := b.updater.link.port.pushData pipe data })
  | .radio c _ => .done (b.withLink (b.updater.link.onRadio c))
  | .poll turns => (b.poll turns).map Prod.snd

/-- Call after call, each once the one before is over. -/
def run (b : Bootloader page Radio F R) : List Call → Progress (Bootloader page Radio F R)
  | [] => .done b
  | c :: cs =>
    match b.call c with
    | .done b => b.run cs
    | .waiting b => .waiting b

/-! ## The simulation -/

variable {P' R' : Type} [Port P'] [Restart R']

/-- With these writes pushed so far, the bootloader is where the bare updater gets to with the
writes that the radio has given up. -/
structure Follows (turns : Nat) (bare : Updater page P' F R') (pushed : List (UInt8 × List UInt8))
    (b : Bootloader page Radio F R) : Prop where
  sound : b.updater.link.Sound
  received : b.updater.link.rx.waiting = []
  engine : ∃ given u, pushed = given ++ b.updater.link.port.writes ∧
    bare.feed turns given = .done u ∧ Updater.SameUpdate u b.updater

variable {turns : Nat} {bare : Updater page P' F R'} {pushed later : List (UInt8 × List UInt8)}
variable {b : Bootloader page Radio F R}

omit [Restart R] in
/-- What happens to the radio is behind what it has to report already. -/
theorem Follows.onRadio (h : Follows turns bare pushed b) (c : Radio.Change) :
    Follows turns bare (pushed ++ c.events.filterMap Radio.write?)
      (b.withLink (b.updater.link.onRadio c)) := by
  obtain ⟨given, u, hpushed, hfed, hsame⟩ := h.engine
  refine ⟨h.sound.onRadio c, h.received, given, u, ?_, hfed, hsame.trans ⟨rfl, rfl, rfl⟩⟩
  rw [hpushed, List.append_assoc]
  simp [Radio.writes, withLink, Link.onRadio]

omit [Restart R] in
theorem Follows.of_still (h : b.updater.link.Still) (hsame : Updater.SameUpdate bare b.updater) :
    Follows turns bare [] b :=
  ⟨h.sound, h.rx, [], bare, by rw [Radio.writes, h.pending]; rfl, rfl, hsame⟩

omit [Restart R] in
theorem Follows.settles {b' : Bootloader page Radio F R} (h : Follows turns bare pushed b)
    (hb : Settles b b') : Follows turns bare pushed b' := by
  obtain ⟨given, u, hpushed, hfed, hsame⟩ := h.engine
  obtain ⟨hkept, cs, hsends⟩ := hb
  refine ⟨hsends.sound h.sound, hsends.queues.rx ▸ h.received, given, u, ?_, hfed,
    hsame.trans hkept⟩
  rw [hpushed, hsends.writes]

/-- Every call keeps the bootloader in step with the bare updater. -/
theorem Follows.call (h : Follows turns bare pushed b) (c : Call)
    (keeps : bare.keepsLink turns (pushed ++ later) = true) :
    ∃ b', b.call c = .done b' ∧ Follows turns bare (pushed ++ c.write?.toList) b' := by
  cases c with
  | pushData pipe data fits =>
      have hpush := h.onRadio (.push (.ofNat (2 + data.length) :: 0x8C :: pipe :: data))
      rw [Radio.Change.events, List.filterMap_cons, Radio.write?_pushData pipe fits] at hpush
      exact ⟨_, rfl, hpush⟩
  | radio c other =>
      have hradio := h.onRadio c
      rw [List.filterMap_eq_nil_iff.mpr other] at hradio
      exact ⟨_, rfl, hradio⟩
  | poll polls =>
      obtain ⟨given, u, hpushed, hfed, hsame⟩ := h.engine
      -- the write that this poll may reach is the next one for the bare updater
      have stays : ∀ w ∈ b.updater.link.port.writes.head?,
          u.pipes.resets u.phase w.1 w.2 = false := by
        intro w hw
        obtain ⟨rest, hrest⟩ := List.head?_eq_some_iff.mp hw
        rw [hpushed, hrest, List.append_assoc, List.cons_append] at keeps
        exact Updater.stays_of_keepsLink hfed keeps
      obtain ⟨alive, b', hb', hsound, hreceived, hcases⟩ := poll_cases h.sound h.received
        (fun w hw ↦ by
          rw [phase, Updater.phase, hsame.pipes, hsame.transfer]
          exact stays w hw) polls
      refine ⟨b', by rw [Bootloader.call, hb']; rfl, hsound, hreceived, ?_⟩
      rw [show (Call.poll polls).write? = none from rfl, Option.toList_none, List.append_nil]
      rcases hcases with ⟨hkept, hwrites⟩ | ⟨w, htakes, hwrites⟩
      · exact ⟨given, u, by rw [hpushed, hwrites], hfed, hsame.trans hkept⟩
      · obtain ⟨v, hv, hvtakes⟩ := u.write_takes (stays w (by rw [hwrites]; rfl)) turns
        refine ⟨given ++ [w], v, ?_, ?_, hvtakes.sameUpdate hsame htakes⟩
        · rw [hpushed, hwrites, List.append_assoc, List.singleton_append]
        · rw [Updater.feed_concat hfed]
          exact hv

/-- The calls of a run, one by one. -/
theorem follows_run (calls : List Call) :
    ∀ {pushed : List (UInt8 × List UInt8)} {b : Bootloader page Radio F R},
      Follows turns bare pushed b →
      bare.keepsLink turns (pushed ++ writes calls) = true →
        ∃ b', b.run calls = .done b' ∧ Follows turns bare (pushed ++ writes calls) b' := by
  induction calls with
  | nil =>
      intro pushed b h _
      exact ⟨b, rfl, by simpa [writes] using h⟩
  | cons c cs ih =>
      intro pushed b h keeps
      have hwrites : pushed ++ writes (c :: cs) = pushed ++ c.write?.toList ++ writes cs := by
        rw [writes, List.filterMap_cons]
        cases c.write? <;> simp [writes]
      rw [hwrites] at keeps ⊢
      rw [List.append_assoc] at keeps
      obtain ⟨b', hb', hfirst⟩ := h.call c keeps
      rw [← List.append_assoc] at keeps
      obtain ⟨b'', hb'', hrest⟩ := ih hfirst keeps
      exact ⟨b'', by rw [run, hb']; exact hb'', hrest⟩

omit [Restart R] in
/-- At first, nothing has been pushed and the update is new. -/
theorem follows_begun (entered : Option Entry) (config : Config) (flash : F) (restart : R)
    (session : Session) (link : Link P') (restart' : R') :
    Follows turns
      (.fresh config.pipes config.receiptInterval session link (.fresh flash) restart' :
        Updater page P' (Flash.Traced F) R')
      [] (begun entered config {} flash restart) := by
  -- the link at first, and what a start does to it
  have hnew : (fresh {} (.fresh flash) restart config :
      Bootloader page Radio (Flash.Traced F) R).updater.link.Still := Link.still_fresh
  cases entered with
  | none => exact .of_still hnew ⟨rfl, rfl, rfl⟩
  | some entry =>
      unfold begun start
      cases entry with
      | coldBoot =>
          exact .settles (b := (fresh {} (.fresh flash) restart config).withLink _)
            (.of_still hnew.pinReset ⟨rfl, rfl, rfl⟩) (((Settles.refl _).note _).tell _)
      | fromApplication =>
          have hasked := session.sends_order hnew.calm .radioReset
          rw [Session.order] at hasked
          refine .settles (.of_still hnew ⟨rfl, rfl, rfl⟩) ((Settles.note ?_ _).tell _)
          dsimp only at hasked ⊢
          split <;> rename_i hl <;> rw [hl] at hasked
          · exact .of_sends hasked
          · exact (Settles.of_sends hasked).note _

/-- The bootloader refines the bare updater.  Whatever the configuration and the flash, as long as
no write resets when it is reached, every run of calls is over, and then the phase, the image, the
flash and the calls on it are those of a bare updater, with whatever session and link, that was fed
the writes which the radio has given up, in order; these are all of them once no event is
pending. -/
theorem run_refines (entered : Option Entry) (config : Config) (flash : F) (restart : R)
    (session : Session) (link : Link P') (restart' : R') (turns : Nat) (calls : List Call)
    (keeps : (Updater.fresh config.pipes config.receiptInterval session link (.fresh flash)
      restart' : Updater page P' (Flash.Traced F) R').keepsLink turns (writes calls) = true) :
    ∃ (b : Bootloader page Radio (Flash.Traced F) R) (given : List (UInt8 × List UInt8))
      (u : Updater page P' (Flash.Traced F) R'),
      (begun entered config {} flash restart).run calls = .done b ∧
      writes calls = given ++ b.updater.link.port.writes ∧
      (Updater.fresh config.pipes config.receiptInterval session link (.fresh flash)
        restart').feed turns given = .done u ∧
      b.updater.transfer = u.transfer ∧ b.updater.flash = u.flash ∧
      (b.updater.link.port.pending = [] → given = writes calls) := by
  obtain ⟨b, hb, hfollows⟩ := follows_run calls
    (follows_begun entered config flash restart session link restart') keeps
  obtain ⟨given, u, hpushed, hfed, hsame⟩ := hfollows.engine
  refine ⟨b, given, u, hb, hpushed, hfed, hsame.transfer, hsame.flash, ?_⟩
  intro h
  rw [List.nil_append, Radio.writes, h] at hpushed
  rw [hpushed, List.filterMap_nil, List.append_nil]

/-- A start packet for three bytes, a malformed event and a request for the firmware, each of them
polled for, lead where the two writes lead by themselves. -/
theorem run_refines_start :
    let calls : List Call := [.pushData 8 [3, 0, 0, 0] (by decide),
      .radio (.push [1]) (by decide), .pushData 10 [3] (by decide), .poll 0, .poll 0, .poll 0]
    let first : Bootloader 2 Radio (Flash.Traced Sim.Flash) Watchdog :=
      begun (some .coldBoot) .standard {} { capacity := 16 } {}
    let bare : Updater 2 Radio (Flash.Traced Sim.Flash) Watchdog :=
      .fresh ⟨8, 9, 10⟩ 0 (.fresh 2) (.fresh {}) (.fresh { capacity := 16 }) {}
    bare.keepsLink 0 (writes calls) = true ∧
      ∃ b, first.run calls = .done b ∧ b.phase = .receivingData := by
  intro calls first bare
  have keeps : bare.keepsLink 0 (writes calls) = true := by decide +kernel
  have quiet : (first.run calls).state.updater.link.port.pending = [] := by decide +kernel
  have fed : (bare.feed 0 (writes calls)).state.phase = .receivingData := by decide +kernel
  obtain ⟨b, given, u, hb, _, hfed, htransfer, _, hgiven⟩ := run_refines (some .coldBoot) .standard
    ({ capacity := 16 } : Sim.Flash) ({} : Watchdog) (.fresh 2) (.fresh ({} : Radio))
    ({} : Watchdog) 0 calls keeps
  rw [show first.run calls = .done b from hb] at quiet
  rw [← hgiven quiet, show bare.feed 0 given = .done u from hfed] at fed
  exact ⟨keeps, b, hb, (congrArg Transfer.phase htransfer).trans fed⟩

end Bootloader

end RadioBoot
