import RadioBoot.Proofs.Session.Credit
import RadioBoot.Proofs.Update.Flush
import RadioBoot.Proofs.Update.Write
import RadioBoot.Sim.Flash
import RadioBoot.Sim.Radio

/-!
# An updater keeps to its credit

Responses cost credit, and an updater sends one only while its session has credit left.  A start of
an update makes sure of enough credit for its own responses, whatever has been spent before; this
is the only credit that does not come from the radio.  With these grants in the book, no more is
ever outstanding than the budget (`credit_within_budget`).  Without them that is not so: two start
packets that are refused cost a radio with room for one frame two of them
(`outstanding_two_refused_starts`).
-/

namespace RadioBoot

/-! ## The effects that touch credit -/

/-- Whether an effect opens the response pipe. -/
def Effect.opens : Effect → Bool
  | .openResponses => true
  | _ => false

namespace Transfer

variable {page : Nat} {F : Type}

theorem opens_arrive (t : Transfer page) (next : Phase) (flash : F) (es : List Effect) :
    (t.arrive next flash es).effects.filter Effect.opens = es.filter Effect.opens := by
  have hlog (lines : List Line) : (lines.map Effect.log).filter Effect.opens = [] := by
    rw [List.filter_eq_nil_iff]
    intro e he
    obtain ⟨line, _, rfl⟩ := List.mem_map.mp he
    exact Bool.false_ne_true
  rw [arrive, List.filter_append, hlog, List.append_nil]

theorem opens_writeFails (t : Transfer page) (flash : F) (es : List Effect) (e : FlashError) :
    (t.writeFails flash es e).effects.filter Effect.opens = es.filter Effect.opens := by
  rw [writeFails, opens_arrive, List.filter_append]
  exact List.append_nil _

variable [Flash F]

theorem opens_complete (t : Transfer page) (flash : F) (es : List Effect) :
    (t.complete flash es).effects.filter Effect.opens = es.filter Effect.opens := by
  rw [complete]
  split
  · rcases t.image.finish flash with ⟨_ | _, image, flash'⟩
    · exact opens_writeFails _ _ _ _
    · dsimp only
      rw [opens_arrive, List.filter_append]
      exact List.append_nil _
  · exact opens_arrive _ _ _ _

theorem opens_dataPacket (t : Transfer page) (flash : F) (data : List UInt8) :
    (t.dataPacket flash data).effects.filter Effect.opens = [] := by
  rw [dataPacket]
  split
  · exact opens_arrive _ _ _ _
  · dsimp only
    generalize hcut : (if min data.length t.image.remaining.toNat < data.length then
      [Effect.log (pastEnd (data.length - min data.length t.image.remaining.toNat))]
      else []) = cut
    have hlogged : cut.filter Effect.opens = [] := by
      rw [← hcut]
      split <;> rfl
    rcases t.image.absorb flash (data.take (min data.length t.image.remaining.toNat)) with
      ⟨_ | _, image, flash'⟩
    · exact (opens_writeFails _ _ _ _).trans hlogged
    · dsimp only
      rw [opens_complete, List.filter_append, hlogged, List.nil_append]
      split <;> rfl

theorem opens_validate (t : Transfer page) (flash : F) :
    (t.validate flash).effects.filter Effect.opens = [] := by
  rw [validate]
  split
  · rcases Flash.commit flash with ⟨_ | _, flash'⟩ <;> exact opens_arrive _ _ _ _
  · exact opens_arrive _ _ _ _

/-- Of all steps, only an announcement opens the response pipe, and it does so once. -/
theorem opens_step (t : Transfer page) (flash : F) (s : Step) (data : List UInt8) :
    (t.step flash s data).effects.filter Effect.opens =
      if s = .announceImage then [.openResponses] else [] := by
  cases s with
  | announceImage =>
      rw [step]
      unfold announceImage
      split
      · dsimp only
        split <;> exact opens_arrive _ _ _ _
      · exact opens_arrive _ _ _ _
  | beginInit => exact opens_arrive _ _ _ _
  | initPacket => exact opens_arrive _ _ _ _
  | beginTransfer => exact opens_arrive _ _ _ _
  | dataPacket => exact opens_dataPacket _ _ _
  | validate => exact opens_validate _ _
  | setReceiptInterval =>
      rw [step]
      unfold setReceiptInterval
      split <;> rfl
  | reportImageSize => rfl
  | refuse => rfl

end Transfer

namespace Updater

variable {page : Nat} {P F R : Type}

/-- What effects do to the session is done by those that open the response pipe. -/
theorem session_performAll (es : List Effect) :
    ∀ u : Updater page P F R, (es.foldl perform u).session =
      (es.filter Effect.opens).foldl
        (fun s _ ↦ (s.markOpen u.pipes.controlTx).ensureCredit responseCredit) u.session := by
  induction es with
  | nil =>
      intro u
      rfl
  | cons e es ih =>
      intro u
      rw [List.foldl_cons, ih, (SameUpdate.perform u e).pipes]
      cases e with
      | log line => rfl
      | openResponses => rfl
      | respond m =>
          rw [perform, respond]
          split <;> rfl

/-- A step leaves the session alone, unless it announces an image. -/
theorem session_step [Flash F] (u : Updater page P F R) (s : Step) (data : List UInt8) :
    (u.step s data).session = if s = .announceImage then
      (u.session.markOpen u.pipes.controlTx).ensureCredit responseCredit else u.session := by
  rw [step, session_performAll, Transfer.opens_step]
  split <;> rfl

variable [Port P]

/-! ## Entries for what an updater does -/

/-- The entries for a flush of the responses: one for each frame that the link has taken. -/
def flushEntries (u : Updater page P F R) : List CreditEntry :=
  .replicate (u.flushResponses.2.link.tx.waiting.length - u.link.tx.waiting.length) .spent

/-- The entries for a step, short of the flush: an announcement is granted what the session lacks
of the credit for its responses. -/
def stepEntries (u : Updater page P F R) (s : Step) : List CreditEntry :=
  if s = .announceImage then [.granted (u.session.lacks responseCredit)] else []

/-- The events that are received while waiting for a disconnect, with the one that ends it. -/
def heardAwaiting : (turns : Nat) → (requested : Bool) → Session → Link P → List Event
  | 0, _, _, _ => []
  | turns + 1, requested, s, l =>
    let (requested, s, l) :=
      if requested then (true, s, l) else s.disconnect l Command.reasonTerminate
    match s.nextEvent l with
    | (some (.disconnected radioStatus linkStatus), _, _) => [.disconnected radioStatus linkStatus]
    | (e, s, l) => e.toList ++ heardAwaiting turns requested s l

/-- The entries for a write.  No response is sent before a reset is over. -/
def writeEntries [Flash F] [Restart R] (u : Updater page P F R) (turns : Nat) (pipe : UInt8)
    (data : List UInt8) : List CreditEntry :=
  match u.pipes.lead u.phase pipe data with
  | none => []
  | some (r, .step s) => u.stepEntries s ++ (u.step s r.data).flushEntries
  | some (_, .reset) =>
    let down := u.moveTo .awaitingReset
    let heard := (heardAwaiting turns false down.session down.link).map .received
    match u.reset turns with
    | .done v => heard ++ v.flushEntries
    | .waiting _ => heard

/-! ## The book is kept -/

variable {u : Updater page P F R} {n : Nat}

theorem book_replicate_spent (k n : Nat) :
    (List.replicate k CreditEntry.spent).foldl CreditEntry.book n = n + k := by
  induction k generalizing n with
  | zero => rfl
  | succ k ih =>
      rw [List.replicate_succ, List.foldl_cons, ih, CreditEntry.book]
      omega

/-- As many frames are outstanding more as the link has taken. -/
theorem owes_flushResponses (h : u.session.Owes n) :
    u.flushResponses.2.session.Owes (u.flushEntries.foldl CreditEntry.book n) := by
  obtain ⟨link, hflush, -⟩ := u.flushResponses_eq
  rw [flushEntries, u.length_flushResponses, Nat.add_sub_cancel_left, book_replicate_spent, hflush]
  exact h.spend (quota_le_available _)

omit [Port P] in
theorem owes_step [Flash F] (h : u.session.Owes n) (s : Step) (data : List UInt8) :
    (u.step s data).session.Owes ((u.stepEntries s).foldl CreditEntry.book n) := by
  rw [session_step, stepEntries]
  split
  · have hopened := (h.markOpen u.pipes.controlTx).ensureCredit responseCredit
    have hlacks : (u.session.markOpen u.pipes.controlTx).lacks responseCredit =
        u.session.lacks responseCredit := by
      rw [Session.markOpen]
      split <;> rfl
    rw [hlacks] at hopened
    exact hopened
  · exact h

/-- All that is heard while waiting for a disconnect is in the book. -/
theorem owes_awaitDisconnect (turns : Nat) :
    ∀ (requested : Bool) {s : Session} {n : Nat} (l : Link P), s.Owes n →
      (awaitDisconnect turns requested s l).state.1.Owes
        (((heardAwaiting turns requested s l).map CreditEntry.received).foldl
          CreditEntry.book n) := by
  induction turns with
  | zero =>
      intro requested s n l h
      exact h
  | succ turns ih =>
      intro requested s n l h
      have hasked : (if requested then (true, s, l) else
          s.disconnect l Command.reasonTerminate).2.1.Owes n := by
        cases requested with
        | true => exact h
        | false => exact h.disconnect l _
      rw [awaitDisconnect, heardAwaiting]
      generalize (if requested then (true, s, l) else
        s.disconnect l Command.reasonTerminate) = asked at hasked
      obtain ⟨requested, s, l⟩ := asked
      have hheard := hasked.nextEvent l
      dsimp only at hheard ⊢
      generalize s.nextEvent l = x at hheard
      obtain ⟨e, s', l'⟩ := x
      have hon := ih requested l' hheard
      rw [← List.foldl_append, ← List.map_append] at hon
      -- a disconnect ends it, and everything else goes on to the next turn
      cases e with
      | none => exact hon
      | some e => cases e <;> first | exact hheard | exact hon

theorem session_reset [Restart R] (u : Updater page P F R) (turns : Nat) :
    (u.reset turns).state.session =
      (awaitDisconnect turns false (u.moveTo .awaitingReset).session
        (u.moveTo .awaitingReset).link).state.1 := by
  rw [reset]
  dsimp only
  cases awaitDisconnect turns false (u.moveTo .awaitingReset).session
    (u.moveTo .awaitingReset).link <;> rfl

theorem owes_write [Flash F] [Restart R] (h : u.session.Owes n) (turns : Nat) (pipe : UInt8)
    (data : List UInt8) :
    (u.write turns pipe data).state.session.Owes
      ((u.writeEntries turns pipe data).foldl CreditEntry.book n) := by
  rw [write_eq, writeEntries]
  cases u.pipes.lead u.phase pipe data with
  | none => exact h
  | some x =>
      obtain ⟨r, way⟩ := x
      cases way with
      | step s =>
          dsimp only
          rw [List.foldl_append]
          exact owes_flushResponses (owes_step h s r.data)
      | reset =>
          have hdown : (u.moveTo .awaitingReset).session.Owes n := h
          have hreset := owes_awaitDisconnect turns false (u.moveTo .awaitingReset).link hdown
          rw [← session_reset] at hreset
          dsimp only
          cases hres : u.reset turns with
          | done v =>
              rw [hres] at hreset
              dsimp only
              rw [List.foldl_append]
              exact owes_flushResponses hreset
          | waiting v =>
              rw [hres] at hreset
              exact hreset

end Updater

/-! ## Whole runs -/

/-- An updater and its credit book. -/
structure Audited (page : Nat) (P F R : Type) where
  updater : Updater page P F R
  /-- The entries, oldest first. -/
  entries : List CreditEntry

namespace Audited

variable {page : Nat} {P F R : Type}

/-- One thing that happens to an updater. -/
inductive Happening (P : Type) where
  | write (turns : Nat) (pipe : UInt8) (data : List UInt8)
  | flushResponses
  | nextEvent
  | /-- An event reaches the session on another way. -/
    apply (e : Event)
  | /-- Anything happens to the link. -/
    link (l : Link P)

/-- A new updater with its whole budget, and an empty book. -/
def start (pipes : UpdatePipes) (interval : UInt16) (total : UInt8) (link : Link P) (flash : F)
    (restart : R) : Audited page P F R :=
  ⟨.fresh pipes interval (.fresh total) link flash restart, []⟩

variable [Port P] [Flash F] [Restart R]

/-- The updater and its book after one more thing has happened. -/
def after (x : Audited page P F R) : Happening P → Audited page P F R
  | .write turns pipe data =>
    ⟨(x.updater.write turns pipe data).state, x.entries ++ x.updater.writeEntries turns pipe data⟩
  | .flushResponses => ⟨x.updater.flushResponses.2, x.entries ++ x.updater.flushEntries⟩
  | .nextEvent =>
    let y := x.updater.session.nextEvent x.updater.link
    ⟨{ x.updater with session := y.2.1, link := y.2.2 }, x.entries ++ y.1.toList.map .received⟩
  | .apply e =>
    ⟨{ x.updater with session := (x.updater.session.apply e).value }, x.entries ++ [.received e]⟩
  | .link l => { x with updater := { x.updater with link := l } }

/-- The session has left what is not outstanding according to the book. -/
def Kept (x : Audited page P F R) : Prop := x.updater.session.Owes (outstanding x.entries)

variable {x : Audited page P F R}

/-- Whatever happens, the book is kept. -/
theorem Kept.after (h : x.Kept) (e : Happening P) : (x.after e).Kept := by
  cases e with
  | write turns pipe data =>
      rw [Kept, Audited.after, outstanding_append]
      exact Updater.owes_write h turns pipe data
  | flushResponses =>
      rw [Kept, Audited.after, outstanding_append]
      exact Updater.owes_flushResponses h
  | nextEvent =>
      rw [Kept, Audited.after, outstanding_append]
      exact Session.Owes.nextEvent h x.updater.link
  | apply e =>
      rw [Kept, Audited.after, outstanding_append]
      exact Session.Owes.apply h e
  | link l => exact h

theorem Kept.foldl (happenings : List (Happening P)) :
    ∀ {x : Audited page P F R}, x.Kept → (happenings.foldl Audited.after x).Kept := by
  induction happenings with
  | nil =>
      intro x h
      exact h
  | cons e es ih =>
      intro x h
      exact ih (h.after e)

/-- An updater keeps to its credit: at every moment of every run, no more frames are outstanding
than the budget allows, if what a session is granted for an announced image counts as handed back.
The radio, which knows nothing of these grants, sees at most so many frames more than its budget as
have been granted since it last began to count. -/
theorem credit_within_budget (pipes : UpdatePipes) (interval : UInt16) (total : UInt8)
    (link : Link P) (flash : F) (restart : R) (happenings : List (Happening P)) :
    let x : Audited page P F R :=
      happenings.foldl after (start pipes interval total link flash restart)
    outstanding x.entries ≤ x.updater.session.total.toNat ∧
      outstanding (radioBook x.entries) ≤ x.updater.session.total.toNat + grants x.entries := by
  intro x
  have hstart : (start pipes interval total link flash restart : Audited page P F R).Kept :=
    Session.owes_fresh total
  have hkept : outstanding x.entries ≤ x.updater.session.total.toNat :=
    (Kept.foldl happenings hstart).le_total
  refine ⟨hkept, ?_⟩
  calc outstanding (radioBook x.entries)
      ≤ outstanding x.entries + grants x.entries := outstanding_radioBook_le x.entries
    _ ≤ x.updater.session.total.toNat + grants x.entries := Nat.add_le_add_right hkept _

/-- With a budget of one frame, two start packets that are too short are both answered, though
nothing has been handed back: without the grants, two frames are outstanding. -/
theorem outstanding_two_refused_starts :
    let x : Audited 8 Sim.Radio Sim.Flash Watchdog :=
      [.write 0 8 [0], .write 0 8 [0]].foldl after
        (start ⟨8, 9, 10⟩ 0 1 (.fresh {}) { capacity := 64 } {})
    ¬outstanding (radioBook x.entries) ≤ x.updater.session.total.toNat := by
  decide +kernel

end Audited

end RadioBoot
