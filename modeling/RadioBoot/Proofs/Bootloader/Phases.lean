import RadioBoot.Proofs.Bootloader.Turn
import RadioBoot.Proofs.Update.Phases
import RadioBoot.Sim.Flash
import RadioBoot.Sim.Radio

/-!
# What is told of the phases

Each time a write has led an update to another phase, the change is told.  What has been told so far
is the way of the update from its beginning to where it is, with nothing left out and nothing told
twice, whatever else comes in between (`phases_told`).  It is the way of an update, so it never
comes back to a phase, and after five changes it has come to its end.
-/

namespace RadioBoot

open Phase (Path)

/-- The change of phase that an event tells of: from where and to where. -/
def BootEvent.change? : BootEvent → Option (Phase × Phase)
  | .phaseChanged before after => some (before, after)
  | _ => none

namespace Bootloader

open Sim
open Transfer (GetsOn)

variable {page : Nat} {P F R : Type}

/-- What has been told of the phases, oldest first. -/
def changes (b : Bootloader page P F R) : List (Phase × Phase) :=
  b.events.filterMap BootEvent.change?

@[simp] theorem changes_tell (b : Bootloader page P F R) (e : BootEvent) :
    (b.tell e).changes = b.changes ++ e.change?.toList := by
  rw [changes, tell, List.filterMap_append, changes]
  cases e <;> rfl

-- `simp` goes by these wherever only the link or its log has changed
@[simp] theorem changes_withLink (b : Bootloader page P F R) (l : Link P) :
    (b.withLink l).changes = b.changes := rfl

@[simp] theorem changes_note (b : Bootloader page P F R) (line : Line) :
    (b.note line).changes = b.changes := rfl

@[simp] theorem changes_enter (b : Bootloader page P F R) : b.enter.changes = b.changes := by
  rw [enter]
  split <;> rfl

variable [Port P]

@[simp] theorem changes_advertise (b : Bootloader page P F R) :
    b.advertise.changes = b.changes := by
  rw [advertise]
  split <;> simp [BootEvent.change?]

theorem changes_start (b : Bootloader page P F R) (entry : Entry) :
    (b.start entry).changes = b.changes := by
  unfold start
  cases entry with
  | coldBoot => simp [BootEvent.change?]
  | fromApplication =>
      dsimp only
      split <;> simp [BootEvent.change?]

variable [Flash F] [Restart R]

/-! ## Actions -/

/-- An event that reports no write to the update service tells of no change. -/
theorem changes_handle {b : Bootloader page P F R} {e : Event}
    (other : b.updater.pipes.ownWrite? e = none) (turns : Nat) :
    (b.handle turns e).state.2.changes = b.changes := by
  unfold handle
  split
  · simp
  · simp
  · simp
  · split
    · simp
    · split <;> simp
  · simp [BootEvent.change?]
  · dsimp only
    split <;> simp [BootEvent.change?]
  · simp
  · simp
  · split
    · rename_i owned
      simp [UpdatePipes.ownWrite?, owned] at other
    · simp
  · simp

/-- Nor does an action that reaches no such write. -/
theorem changes_act {b : Bootloader page P F R} {a : Action P} (h : b.reaches a = none) :
    (b.act a).state.changes = b.changes := by
  cases a with
  | start entry => exact b.changes_start entry
  | port port => rfl
  | poll turns =>
      rw [act, Progress.state_map, poll_eq]
      cases he : b.hear.1 with
      | none => rfl
      | some e =>
          have other : b.updater.pipes.ownWrite? e = none := by
            rw [reaches, reached?, he] at h
            exact h
          exact changes_handle (b := b.hear.2) other turns

/-- What is told of a write is the change of phase, if there was one. -/
theorem changes_feed {b : Bootloader page P F R} {turns : Nat} {pipe : UInt8} {data : List UInt8}
    {v : Updater page P F R} (h : b.updater.write turns pipe data = .done v) :
    ∃ b', b.feed turns pipe data = .done b' ∧ b'.updater = v ∧
      b'.changes = b.changes ++ if v.phase = b.phase then [] else [(b.phase, v.phase)] := by
  rw [feed, h]
  refine ⟨_, rfl, ?_, ?_⟩
  · split <;> split <;> rfl
  · have hphase : ({ b with updater := v } : Bootloader page P F R).phase = v.phase := rfl
    have hchanges : ({ b with updater := v } : Bootloader page P F R).changes = b.changes := rfl
    rw [hphase]
    split <;> split <;> simp [BootEvent.change?, hchanges]

/-- From `b` to `b'` the update has got on, and if it is in another phase, this has been told. -/
structure Tells (b b' : Bootloader page P F R) : Prop where
  update : GetsOn b.updater.transfer b'.updater.transfer
  told : b'.changes = b.changes ++ if b'.phase = b.phase then [] else [(b.phase, b'.phase)]

variable {b b' : Bootloader page P F R} {a : Action P}

/-- An action that is over tells of the change that it has made.  One that is not over waits for
the disconnect, and of that nothing is told. -/
theorem tells_act (b : Bootloader page P F R) (a : Action P) :
    match b.act a with
    | .done b' => Tells b b'
    | .waiting b' => b.phase.isTerminal = false ∧ b'.phase = .awaitingReset ∧
        b'.changes = b.changes ∧ b'.updater.transfer.image = b.updater.transfer.image := by
  cases hw : b.reaches a with
  | none =>
      obtain ⟨b', hb', hrests⟩ := act_of_quiet hw
      have hchanges := changes_act hw
      rw [hb'] at hchanges ⊢
      refine ⟨hrests.update.transfer ▸ .refl _, ?_⟩
      rw [if_pos hrests.phase, List.append_nil]
      exact hchanges
  | some w =>
      obtain ⟨pipe, data⟩ := w
      obtain ⟨_, turns, _, hact⟩ := act_of_reaches hw
      have hrests := b.rests_handed
      have hchanges : b.handed.changes = b.changes := changes_enter _
      have hwrite := b.handed.updater.getsOn_write turns pipe data
      rw [hact]
      cases hv : b.handed.updater.write turns pipe data with
      | done v =>
          obtain ⟨b', hb', rfl, htold⟩ := changes_feed hv
          rw [hv] at hwrite
          rw [hb']
          rw [hrests.phase, hchanges] at htold
          exact ⟨hrests.update.transfer ▸ hwrite, htold⟩
      | waiting v =>
          rw [hv] at hwrite
          obtain ⟨live, hwait, himage⟩ := hwrite
          rw [feed, hv]
          refine ⟨?_, hwait, hchanges, ?_⟩
          · rw [← hrests.phase]
            exact live
          · rw [← hrests.update.transfer]
            exact himage

/-! ## Runs -/

theorem Tells.of_act (ha : b.act a = .done b') : Tells b b' := by
  have htells := b.tells_act a
  rwa [ha] at htells

omit [Port P] [Flash F] [Restart R] in
/-- What has been told stays the way to where the update is. -/
theorem Tells.path {p : Phase} (h : Tells b b') (path : Path p b.changes b.phase) :
    Path p b'.changes b'.phase := by
  rw [h.told]
  split
  · rename_i same
    rwa [List.append_nil, same]
  · rename_i other
    exact path.next (h.update.phase.resolve_left other)

/-- Once an image has been announced, its length stays. -/
theorem len_acts (begun : b.phase ≠ .idle) (actions : List (Action P)) :
    (b.acts actions).state.updater.transfer.image.len = b.updater.transfer.image.len := by
  let Inv (b' : Bootloader page P F R) : Prop :=
    b'.phase ≠ .idle ∧ b'.updater.transfer.image.len = b.updater.transfer.image.len
  have step : ∀ {b₁ b₂ : Bootloader page P F R} {a}, Inv b₁ → b₁.act a = .done b₂ → Inv b₂ := by
    intro b₁ b₂ a h ha
    have hgets := (Tells.of_act ha).update
    exact ⟨hgets.ne_idle h.1, (hgets.len h.1).trans h.2⟩
  cases hb : b.acts actions with
  | done b' => exact (acts_induction step actions ⟨begun, rfl⟩ hb).2
  | waiting b' =>
      obtain ⟨b₁, a, hb₁, ha⟩ := exists_act_of_waiting step actions ⟨begun, rfl⟩ hb
      have hstuck := b₁.tells_act a
      rw [ha] at hstuck
      exact (congrArg Image.len hstuck.2.2.2).trans hb₁.2

/-- What is told of the phases is the way of the update.  Whatever is started, polled for or done by
the port, the changes that have been told lead from the first phase to the one that the update is
in, each of them to a next phase and each from where the one before it has led; only while a poll is
still waiting for the disconnect, they lead to where it has found the update.  So no phase is
entered twice, there are five changes at most, and once an image has been announced, its length
stays. -/
theorem phases_told (port : P) (flash : F) (restart : R) (config : Config)
    (actions : List (Action P)) :
    let run := (fresh port flash restart config : Bootloader page P F R).acts actions
    (∀ b, run = .done b → Path .idle b.changes b.phase) ∧
      (∀ b, run = .waiting b → b.phase = .awaitingReset ∧
        ∃ p, p.isTerminal = false ∧ Path .idle b.changes p) ∧
      (Phase.idle :: run.state.changes.map Prod.snd).Nodup ∧ run.state.changes.length ≤ 5 ∧
      ∀ b, run = .done b → b.phase ≠ .idle → ∀ later,
        (b.acts later).state.updater.transfer.image.len = b.updater.transfer.image.len := by
  intro run
  have step : ∀ {b₁ b₂ : Bootloader page P F R} {a}, Path .idle b₁.changes b₁.phase →
      b₁.act a = .done b₂ → Path .idle b₂.changes b₂.phase :=
    fun path ha ↦ (Tells.of_act ha).path path
  have told : ∀ b, run = .done b → Path .idle b.changes b.phase :=
    fun b hb ↦ acts_induction step actions .start hb
  have stuck : ∀ b, run = .waiting b → b.phase = .awaitingReset ∧
      ∃ p, p.isTerminal = false ∧ Path .idle b.changes p := by
    intro b hb
    obtain ⟨b₁, a, path, ha⟩ := exists_act_of_waiting step actions .start hb
    have hstuck := b₁.tells_act a
    rw [ha] at hstuck
    obtain ⟨live, hwait, hchanges, _⟩ := hstuck
    exact ⟨hwait, b₁.phase, live, hchanges ▸ path⟩
  obtain ⟨q, path⟩ : ∃ q, Path .idle run.state.changes q := by
    cases hb : run with
    | done b => exact ⟨_, told b hb⟩
    | waiting b =>
        obtain ⟨_, q, _, path⟩ := stuck b hb
        exact ⟨q, path⟩
  refine ⟨told, stuck, path.nodup, ?_, fun b _ begun later ↦ len_acts begun later⟩
  exact Nat.le_trans (Nat.le_add_left _ _) (Nat.le_trans path.length_le q.rank_le)

/-- A radio that answers a request to disconnect, with the writes of a whole update: an image of
three bytes, with an init packet announced, is received, validated and activated. -/
def wholeUpdate : Radio :=
  (((((({ autoDisconnect := true } : Radio).pushData 8 [3, 0, 0, 0]).pushData 10 [2]).pushData 10
    [3]).pushData 8 [1, 2, 3]).pushData 10 [4]).pushData 10 [5]

/-- A whole update makes five changes, the last of them once its radio has had the time to report
the disconnect; until then, the poll is still waiting, and four have been told. -/
theorem phases_told_whole_update :
    let first : Bootloader 2 Radio Sim.Flash Watchdog :=
      fresh wholeUpdate { capacity := 16 } {} .standard
    (∃ b, first.acts (.replicate 6 (.poll 8)) = .done b ∧ b.changes.length = 5 ∧
      Path .idle b.changes .terminated ∧
      ∀ later, (b.acts later).state.updater.transfer.image.len = 3) ∧
    ∃ b, first.acts (.replicate 6 (.poll 1)) = .waiting b ∧ b.changes.length = 4 ∧
      ∃ p, p.isTerminal = false ∧ Path .idle b.changes p := by
  intro first
  constructor
  · have finished : (first.acts (.replicate 6 (.poll 8))).isDone = true := by decide +kernel
    have ends : (first.acts (.replicate 6 (.poll 8))).state.phase = .terminated ∧
        (first.acts (.replicate 6 (.poll 8))).state.changes.length = 5 ∧
        (first.acts (.replicate 6 (.poll 8))).state.updater.transfer.image.len = 3 := by
      decide +kernel
    cases hb : first.acts (.replicate 6 (.poll 8)) with
    | waiting b =>
        rw [hb] at finished
        exact absurd finished Bool.false_ne_true
    | done b =>
        obtain ⟨told, -, -, -, len⟩ := phases_told wholeUpdate ({ capacity := 16 } : Sim.Flash)
          ({} : Watchdog) .standard (.replicate 6 (.poll 8))
        rw [hb] at ends
        obtain ⟨hend, hfive, hlen⟩ := ends
        refine ⟨b, rfl, hfive, hend ▸ told b hb, fun later ↦ ?_⟩
        exact (len b hb (fun h ↦ by simp [h] at hend) later).trans hlen
  · have unfinished : (first.acts (.replicate 6 (.poll 1))).isDone = false := by decide +kernel
    have four : (first.acts (.replicate 6 (.poll 1))).state.changes.length = 4 := by decide +kernel
    cases hb : first.acts (.replicate 6 (.poll 1)) with
    | done b =>
        rw [hb] at unfinished
        exact absurd unfinished Bool.true_eq_false.mp
    | waiting b =>
        obtain ⟨-, stuck, -⟩ := phases_told wholeUpdate ({ capacity := 16 } : Sim.Flash)
          ({} : Watchdog) .standard (.replicate 6 (.poll 1))
        rw [hb] at four
        exact ⟨b, rfl, four, (stuck b hb).2⟩

end Bootloader

end RadioBoot
