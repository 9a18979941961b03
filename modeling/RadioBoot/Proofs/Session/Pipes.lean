import RadioBoot.Proofs.Session.Commands
import RadioBoot.Sim.Radio

/-!
# The last word on a pipe

A session keeps two maps of pipes, and eight bits of each change at a time.  Seen from one pipe it
is simpler: what is done with a session opens this pipe, or shuts it, or is nothing to it
(`Deed.opens`, `Deed.shuts`), and the last word counts (`isAvailable_operate`).  So after any
history a pipe is open just when something has opened it that nothing has shut since
(`last_word_on_pipes`), if the radio has such a pipe at all.

The map of closed pipes is kept beside that of the open ones, and nothing but a report can bring a
pipe into both (`Apart.operate`).
-/

namespace RadioBoot

namespace PipeMap

/-- Two maps of which no pipe is in both. -/
def Disjoint (m m' : PipeMap) : Prop := ∀ pipe, ¬(m.marks pipe = true ∧ m'.marks pipe = true)

end PipeMap

namespace Session

variable {P : Type} [Port P] {s : Session} {pipe other : UInt8}

/-! ## What is done with a session -/

/-- One thing that is done with a session.  A command is given to a link, whichever that is. -/
inductive Operation (P : Type) where
  | apply (e : Event)
  | markOpen (pipe : UInt8)
  | ensureCredit (credit : UInt8)
  | order (l : Link P) (c : Command)

/-- What has been done, and of a command, whether the link took it. -/
inductive Deed where
  | applied (e : Event)
  | marked (pipe : UInt8)
  | ensured (credit : UInt8)
  | ordered (c : Command) (taken : Bool)

/-- The session after one more thing. -/
def operate (s : Session) : Operation P → Session
  | .apply e => (s.apply e).value
  | .markOpen pipe => s.markOpen pipe
  | .ensureCredit credit => s.ensureCredit credit
  | .order l c => (s.order l c).2.1

/-- What is put on record for it. -/
def deed (s : Session) : Operation P → Deed
  | .apply e => .applied e
  | .markOpen pipe => .marked pipe
  | .ensureCredit credit => .ensured credit
  | .order l c => .ordered c (s.order l c).1

/-- The pipe that an operation names, if it names one. -/
def Operation.pipe? : Operation P → Option UInt8
  | .apply (.dataAck pipe) => some pipe
  | .apply (.dataReceived pipe _) => some pipe
  | .apply (.pipeError pipe _ _) => some pipe
  | .markOpen pipe => some pipe
  | .order _ (.sendData pipe _) => some pipe
  | _ => none

namespace Deed

/-- Whether `pipe` is open from then on: it has been reported open, or taken for open. -/
def opens (pipe : UInt8) : Deed → Bool
  | .applied (.pipeStatus opened _) => opened.marks pipe
  | .marked other => pipe = other
  | _ => false

/-- Whether `pipe` is not open any more: it is missing in a report, or the connection is over, or
the link has been asked to end it. -/
def shuts (pipe : UInt8) : Deed → Bool
  | .applied (.pipeStatus opened _) => !opened.marks pipe
  | .applied (.disconnected _ _) => true
  | .ordered (.disconnect _) taken => taken
  | _ => false

end Deed

/-! ## One operation -/

theorem isAvailable_markOpen :
    (s.markOpen other).isAvailable pipe =
      (decide (pipe = other ∧ pipe < maxPipes) || s.isAvailable pipe) := by
  rw [markOpen]
  split
  · exact s.opened.contains_insert other pipe
  · rename_i beyond
    have hne : ¬(pipe = other ∧ pipe < maxPipes) := by
      rintro ⟨rfl, below⟩
      exact beyond below
    rw [decide_eq_false hne, Bool.false_or]

theorem isClosed_markOpen :
    (s.markOpen other).isClosed pipe = (decide (pipe ≠ other) && s.isClosed pipe) := by
  rw [markOpen]
  split
  · exact s.closed.contains_erase other pipe
  · rename_i beyond
    by_cases h : pipe = other
    · have hclosed : s.isClosed pipe = false :=
        Bool.eq_false_iff.mpr fun hmem ↦ beyond (h ▸ ((s.closed.contains_iff pipe).mp hmem).1)
      rw [hclosed, Bool.and_false]
    · simp [h]

/-- The maps change in three ways only: they are taken from a report, or one pipe is taken for open,
or no pipe is left in them.  All else is nothing to any pipe. -/
theorem operate_cases (s : Session) (o : Operation P) :
    (∃ opened closed, o = .apply (.pipeStatus opened closed)) ∨
      (∃ other, o = .markOpen other) ∨
      (o.pipe? = none ∧ (s.operate o).opened = .empty ∧ (s.operate o).closed = .empty ∧
        ∀ pipe, (s.deed o).opens pipe = false ∧ (s.deed o).shuts pipe = true) ∨
      (s.operate o).opened = s.opened ∧ (s.operate o).closed = s.closed ∧
        ∀ pipe, (s.deed o).opens pipe = false ∧ (s.deed o).shuts pipe = false := by
  cases o with
  | apply e =>
      cases e with
      | pipeStatus opened closed => exact .inl ⟨opened, closed, rfl⟩
      | disconnected radioStatus linkStatus =>
          exact .inr (.inr (.inl ⟨rfl, rfl, rfl, fun _ ↦ ⟨rfl, rfl⟩⟩))
      | pipeError pipe code data =>
          refine .inr (.inr (.inr ⟨?_, ?_, fun _ ↦ ⟨rfl, rfl⟩⟩)) <;>
            rw [operate, apply] <;> dsimp only <;> split <;> rfl
      | _ => exact .inr (.inr (.inr ⟨rfl, rfl, fun _ ↦ ⟨rfl, rfl⟩⟩))
  | markOpen other => exact .inr (.inl ⟨other, rfl⟩)
  | ensureCredit credit => exact .inr (.inr (.inr ⟨rfl, rfl, fun _ ↦ ⟨rfl, rfl⟩⟩))
  | order l c =>
      -- a command that the link refuses changes nothing; of the others, only the one that ends the
      -- connection reaches the maps
      rcases s.order_cases l c with ⟨-, log, h⟩ | ⟨-, l', h, -⟩ <;> rw [operate, deed, h]
      · refine .inr (.inr (.inr ⟨rfl, rfl, fun _ ↦ ?_⟩))
        cases c <;> exact ⟨rfl, rfl⟩
      · cases c with
        | disconnect reason => exact .inr (.inr (.inl ⟨rfl, rfl, rfl, fun _ ↦ ⟨rfl, rfl⟩⟩))
        | _ => exact .inr (.inr (.inr ⟨rfl, rfl, fun _ ↦ ⟨rfl, rfl⟩⟩))

/-- A pipe that the radio has is open when it has just been opened, or was open before and has not
been shut. -/
theorem isAvailable_operate (s : Session) (o : Operation P) (pipe : UInt8) :
    (s.operate o).isAvailable pipe = true ↔
      pipe < maxPipes ∧ (s.deed o).opens pipe = true ∨
        s.isAvailable pipe = true ∧ (s.deed o).shuts pipe = false := by
  rcases s.operate_cases o with ⟨opened, closed, rfl⟩ | ⟨other, rfl⟩ | ⟨-, hopened, -, hdeed⟩ |
    ⟨hopened, -, hdeed⟩
  · have below : s.isAvailable pipe = true → pipe < maxPipes :=
      fun h ↦ ((s.opened.contains_iff pipe).mp h).1
    change opened.contains pipe = true ↔
      pipe < maxPipes ∧ opened.marks pipe = true ∨ s.isAvailable pipe = true ∧
        (!opened.marks pipe) = false
    rw [opened.contains_iff, Bool.not_eq_false']
    exact ⟨.inl, fun h ↦ h.elim id fun kept ↦ ⟨below kept.1, kept.2⟩⟩
  · rw [operate, isAvailable_markOpen]
    simp [deed, Deed.opens, Deed.shuts, and_comm]
  · rw [isAvailable, hopened, PipeMap.contains_empty]
    simp [hdeed]
  · rw [isAvailable, hopened]
    simp [hdeed, isAvailable]

/-- What names another pipe is nothing to this one. -/
theorem operate_of_other (s : Session) {o : Operation P} (named : o.pipe? = some other)
    (ne : other ≠ pipe) :
    (s.operate o).isAvailable pipe = s.isAvailable pipe ∧
      (s.operate o).isClosed pipe = s.isClosed pipe := by
  rcases s.operate_cases o with ⟨opened, closed, rfl⟩ | ⟨_, rfl⟩ | ⟨unnamed, -⟩ |
    ⟨hopened, hclosed, -⟩
  · exact absurd named (by simp [Operation.pipe?])
  · obtain rfl := Option.some.inj named
    rw [operate, isAvailable_markOpen, isClosed_markOpen]
    simp [ne.symm]
  · exact absurd named (by simp [unnamed])
  · rw [isAvailable, isClosed, hopened, hclosed]
    exact ⟨rfl, rfl⟩

/-- No pipe is both open and closed. -/
def Apart (s : Session) : Prop :=
  ∀ pipe, ¬(s.isAvailable pipe = true ∧ s.isClosed pipe = true)

/-- Only a report can bring a pipe into both maps. -/
theorem Apart.operate (h : s.Apart) {o : Operation P}
    (disjoint : ∀ opened closed, o = .apply (.pipeStatus opened closed) → opened.Disjoint closed) :
    (s.operate o).Apart := by
  rintro pipe ⟨hopen, hclosed⟩
  rcases s.operate_cases o with ⟨opened, closed, rfl⟩ | ⟨other, rfl⟩ | ⟨-, hempty, -⟩ |
    ⟨hopened, hsame, -⟩
  · exact disjoint opened closed rfl pipe
      ⟨((opened.contains_iff pipe).mp hopen).2, ((closed.contains_iff pipe).mp hclosed).2⟩
  · rw [Session.operate, isAvailable_markOpen] at hopen
    rw [Session.operate, isClosed_markOpen] at hclosed
    simp only [Bool.or_eq_true, Bool.and_eq_true, decide_eq_true_eq] at hopen hclosed
    exact hopen.elim (fun marked ↦ hclosed.1 marked.1) fun before ↦ h pipe ⟨before, hclosed.2⟩
  · rw [isAvailable, hempty, PipeMap.contains_empty] at hopen
    exact absurd hopen (by simp)
  · rw [isAvailable, hopened] at hopen
    rw [isClosed, hsame] at hclosed
    exact h pipe ⟨hopen, hclosed⟩

/-! ## Histories -/

/-- A session and what has been done with it, oldest first. -/
structure History where
  session : Session
  deeds : List Deed

namespace History

/-- The history after one more thing. -/
def after (x : History) (o : Operation P) : History :=
  ⟨x.session.operate o, x.deeds ++ [x.session.deed o]⟩

/-- The history of a new session with which all of this is done, in order. -/
def run (total : UInt8) (ops : List (Operation P)) : History := ops.foldl after ⟨.fresh total, []⟩

end History

/-- Something has opened the pipe, and nothing has shut it since. -/
def OpenSince (pipe : UInt8) (deeds : List Deed) : Prop :=
  ∃ earlier d later, deeds = earlier ++ d :: later ∧ d.opens pipe = true ∧
    ∀ d' ∈ later, d'.shuts pipe = false

/-- The last deed opens the pipe, or it leaves it open. -/
theorem openSince_concat {deeds : List Deed} {d : Deed} :
    OpenSince pipe (deeds ++ [d]) ↔
      d.opens pipe = true ∨ OpenSince pipe deeds ∧ d.shuts pipe = false := by
  constructor
  · rintro ⟨earlier, opening, later, hsplit, hopens, quiet⟩
    -- what opened the pipe is the last deed itself, or one of those before it
    rcases List.eq_nil_or_concat later with rfl | ⟨later, last, rfl⟩
    · obtain ⟨-, hlast⟩ := List.append_inj' hsplit rfl
      exact .inl ((List.cons.inj hlast).1 ▸ hopens)
    · rw [List.concat_eq_append, ← List.cons_append, ← List.append_assoc] at hsplit
      obtain ⟨rfl, hlast⟩ := List.append_inj' hsplit rfl
      obtain rfl := (List.cons.inj hlast).1
      refine .inr ⟨⟨earlier, opening, later, rfl, hopens, fun d' hd' ↦ quiet d' ?_⟩, quiet d ?_⟩
      · simp [hd']
      · simp
  · rintro (hopens | ⟨⟨earlier, opening, later, rfl, hopens, quiet⟩, hquiet⟩)
    · exact ⟨deeds, d, [], rfl, hopens, by simp⟩
    · refine ⟨earlier, opening, later ++ [d], by simp, hopens, fun d' hd' ↦ ?_⟩
      rcases List.mem_append.mp hd' with hd' | hd'
      · exact quiet d' hd'
      · obtain rfl := List.mem_singleton.mp hd'
        exact hquiet

/-- The last word on a pipe decides: it is open just when something opened it that nothing has shut
since. -/
def History.Decided (x : History) : Prop :=
  ∀ pipe, x.session.isAvailable pipe = true ↔ pipe < maxPipes ∧ OpenSince pipe x.deeds

theorem History.Decided.after {x : History} (h : x.Decided) (o : Operation P) :
    (x.after o).Decided := by
  intro pipe
  rw [History.after, isAvailable_operate, h pipe, openSince_concat]
  constructor
  · rintro (⟨below, hopens⟩ | ⟨⟨below, since⟩, hquiet⟩)
    · exact ⟨below, .inl hopens⟩
    · exact ⟨below, .inr ⟨since, hquiet⟩⟩
  · rintro ⟨below, hopens | ⟨since, hquiet⟩⟩
    · exact .inl ⟨below, hopens⟩
    · exact .inr ⟨⟨below, since⟩, hquiet⟩

theorem History.decided_run (total : UInt8) (ops : List (Operation P)) :
    (History.run total ops).Decided := by
  refine List.foldlRecOn ops History.after (fun pipe ↦ ?_) fun _ h o _ ↦ h.after o
  rw [isAvailable, fresh, PipeMap.contains_empty]
  simp [OpenSince]

theorem History.apart_run (total : UInt8) {ops : List (Operation P)}
    (disjoint : ∀ opened closed, .apply (.pipeStatus opened closed) ∈ ops →
      opened.Disjoint closed) : (History.run total ops).session.Apart := by
  refine List.foldlRecOn (motive := fun x : History ↦ x.session.Apart) ops History.after ?_
    fun _ h o mem ↦ h.operate fun opened closed eq ↦ disjoint opened closed (eq ▸ mem)
  rintro pipe ⟨hopen, -⟩
  rw [isAvailable, fresh, PipeMap.contains_empty] at hopen
  exact absurd hopen (by simp)

/-- The last word on a pipe decides.  After any operations on a new session, in any order and over
any links, a pipe is open just when the radio has such a pipe and a report with its bit set, or the
host itself, has opened it, and since then no report without it, no end of the connection and no
disconnect that the link has taken has shut it.  An operation that names another pipe changes
nothing for this one.  And if no report has a pipe in both of its maps, no pipe is ever both open
and closed. -/
theorem last_word_on_pipes (total : UInt8) (ops : List (Operation P)) :
    let x := History.run total ops
    (∀ pipe, x.session.isAvailable pipe = true ↔ pipe < 62 ∧ OpenSince pipe x.deeds) ∧
    (∀ pipe (o : Operation P) other, o.pipe? = some other → other ≠ pipe →
      (x.session.operate o).isAvailable pipe = x.session.isAvailable pipe ∧
        (x.session.operate o).isClosed pipe = x.session.isClosed pipe) ∧
    ((∀ opened closed, .apply (.pipeStatus opened closed) ∈ ops → opened.Disjoint closed) →
      ∀ pipe, ¬(x.session.isAvailable pipe = true ∧ x.session.isClosed pipe = true)) :=
  ⟨History.decided_run total ops, fun _ _ _ named ne ↦ operate_of_other _ named ne,
    History.apart_run total⟩

/-- Pipe 10 has been reported closed, and the host takes it for open; a pipe that the radio does not
have stays shut all the same.  A full link refuses to disconnect, so pipe 10 is still open. -/
theorem last_word_on_pipes_refused :
    let once (l : Link Sim.Radio) : Link Sim.Radio := (radioReset l).2
    let ops : List (Operation Sim.Radio) :=
      [.apply (.pipeStatus (.ofBytes [0, 3]) (.ofBytes [0, 4])), .markOpen 10, .markOpen 62,
        .order (once (once (once (.fresh {})))) (.disconnect 1),
        .order (.fresh {}) (.sendData 9 [1])]
    let x := History.run 2 ops
    (∀ opened closed, .apply (.pipeStatus opened closed) ∈ ops → opened.Disjoint closed) ∧
      OpenSince 10 x.deeds ∧ x.session.isAvailable 62 = false ∧ x.session.isClosed 10 = false ∧
      (x.session.operate (.markOpen 11 : Operation Sim.Radio)).isAvailable 10 = true := by
  intro once ops x
  have bits : ∀ n : Fin 256, ¬((PipeMap.ofBytes [0, 3]).marks (.ofFin n) = true ∧
      (PipeMap.ofBytes [0, 4]).marks (.ofFin n) = true) := by decide +kernel
  have disjoint : ∀ opened closed, .apply (.pipeStatus opened closed) ∈ ops →
      opened.Disjoint closed := by
    intro opened closed mem
    obtain ⟨rfl, rfl⟩ : opened = .ofBytes [0, 3] ∧ closed = .ofBytes [0, 4] := by
      simpa [ops] using mem
    exact fun pipe ↦ bits pipe.toFin
  have hopen : x.session.isAvailable 10 = true := by decide +kernel
  obtain ⟨hlast, hother, hapart⟩ := last_word_on_pipes 2 ops
  refine ⟨disjoint, ((hlast 10).mp hopen).2, ?_, ?_, ?_⟩
  · exact Bool.eq_false_iff.mpr fun h ↦ absurd ((hlast 62).mp h).1 (by decide)
  · exact Bool.eq_false_iff.mpr fun h ↦ hapart disjoint 10 ⟨hopen, h⟩
  · exact (hother 10 (.markOpen 11) 11 rfl (by decide)).1.trans hopen

end Session

end RadioBoot
