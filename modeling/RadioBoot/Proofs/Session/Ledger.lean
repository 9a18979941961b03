import RadioBoot.Proofs.Session.Credit
import RadioBoot.Sim.Radio

/-!
# The exact ledger of a session

Each call of a session writes one line into the credit book at most (`Called.entries`).  So a ledger
that is kept beside a session is exact after every call and every event: it counts the frames sent
and takes off what the events hand back, never more than is outstanding, and what it says is
outstanding is just what the session has not left of its budget (`ledger_exact`).  Only
`Session.ensureCredit` is not in the ledger.  Where it is called too, the session still keeps within
its budget, and making sure of credit takes none away.
-/

namespace RadioBoot.Session

variable {P : Type} [Port P]

/-! ## Calls -/

/-- What the host can ask of a session and its link. -/
inductive Call where
  | sendData (pipe : UInt8) (data : List UInt8)
  | connect (timeout interval : UInt16)
  | disconnect (reason : UInt8)
  | radioReset
  | nextEvent
  | markOpen (pipe : UInt8)
deriving DecidableEq

/-- What a call leaves, and what is written into the credit book for it. -/
structure Called (P : Type) where
  session : Session
  link : Link P
  entries : List CreditEntry

/-- Make a call. -/
def call (s : Session) (l : Link P) : Call → Called P
  | .sendData pipe data =>
    let x := s.sendData l pipe data
    ⟨x.2.1, x.2.2, if x.1 then [.spent] else []⟩
  | .connect timeout interval => ⟨s, (connect l timeout interval).2, []⟩
  | .disconnect reason => let x := s.disconnect l reason; ⟨x.2.1, x.2.2, []⟩
  | .radioReset => ⟨s, (radioReset l).2, []⟩
  | .nextEvent => let x := s.nextEvent l; ⟨x.2.1, x.2.2, x.1.toList.map .received⟩
  | .markOpen pipe => ⟨s.markOpen pipe, l, []⟩

/-- Every call keeps the session in step with the book. -/
theorem Owes.call {s : Session} {n : Nat} (h : s.Owes n) (l : Link P) (c : Call) :
    (s.call l c).session.Owes ((s.call l c).entries.foldl CreditEntry.book n) := by
  cases c with
  | sendData pipe data =>
      have hsent := h.sendData l pipe data
      rw [Session.call]
      generalize s.sendData l pipe data = x at hsent
      obtain ⟨_ | _, s', l'⟩ := x <;> exact hsent
  | connect timeout interval => exact h
  | disconnect reason => exact h.disconnect l reason
  | radioReset => exact h
  | nextEvent => exact h.nextEvent l
  | markOpen pipe => exact h.markOpen pipe

omit [Port P] in
/-- Making sure of some credit takes none away. -/
theorem le_ensureCredit (s : Session) (credit : UInt8) :
    s.available ≤ (s.ensureCredit credit).available := by
  rw [ensureCredit, show max s.available (min credit s.total) =
    if s.available ≤ min credit s.total then min credit s.total else s.available from rfl]
  split
  · assumption
  · exact UInt8.le_refl _

/-! ## The ledger -/

/-- A session on its link, and the data frames that have been sent and not been handed back. -/
structure Ledger (P : Type) where
  session : Session
  link : Link P
  outstanding : Nat

namespace Ledger

/-- One thing that happens to a session. -/
inductive Happening (P : Type) where
  | call (c : Call)
  | /-- An event reaches the session on another way. -/
    apply (e : Event)
  | ensureCredit (credit : UInt8)
  | /-- Anything happens to the link. -/
    link (l : Link P)

/-- A new session, with nothing outstanding. -/
def start (total : UInt8) (link : Link P) : Ledger P := ⟨.fresh total, link, 0⟩

/-- The session and its ledger after one more thing has happened.  Credit that is made sure of is
not in the ledger. -/
def after (x : Ledger P) : Happening P → Ledger P
  | .call c =>
    let y := x.session.call x.link c
    ⟨y.session, y.link, y.entries.foldl CreditEntry.book x.outstanding⟩
  | .apply e =>
    { x with
      session := (x.session.apply e).value
      outstanding := CreditEntry.book x.outstanding (.received e) }
  | .ensureCredit credit => { x with session := x.session.ensureCredit credit }
  | .link link => { x with link }

/-- The ledger after all of this has happened, in order. -/
def run (total : UInt8) (link : Link P) (happenings : List (Happening P)) : Ledger P :=
  happenings.foldl after (start total link)

/-- What is left and what is outstanding add up to the budget. -/
def Exact (x : Ledger P) : Prop := x.session.Owes x.outstanding

/-- The session has no more left than its budget. -/
def Bounded (x : Ledger P) : Prop := ∃ n, x.session.Owes n

variable {x : Ledger P}

theorem Exact.after (h : x.Exact) {e : Happening P} (other : ∀ credit, e ≠ .ensureCredit credit) :
    (x.after e).Exact := by
  cases e with
  | call c => exact Owes.call h x.link c
  | apply e => exact Owes.apply h e
  | ensureCredit credit => exact absurd rfl (other credit)
  | link link => exact h

theorem Exact.foldl (h : x.Exact) {happenings : List (Happening P)}
    (never : ∀ credit, .ensureCredit credit ∉ happenings) :
    (happenings.foldl Ledger.after x).Exact :=
  List.foldlRecOn happenings Ledger.after h fun _ hx _ he ↦
    hx.after fun credit heq ↦ never credit (heq ▸ he)

theorem Bounded.after (h : x.Bounded) (e : Happening P) : (x.after e).Bounded := by
  obtain ⟨n, h⟩ := h
  cases e with
  | call c => exact ⟨_, h.call x.link c⟩
  | apply e => exact ⟨_, h.apply e⟩
  | ensureCredit credit => exact ⟨_, h.ensureCredit credit⟩
  | link link => exact ⟨n, h⟩

theorem Bounded.foldl (h : x.Bounded) (happenings : List (Happening P)) :
    (happenings.foldl Ledger.after x).Bounded :=
  List.foldlRecOn happenings Ledger.after h fun _ hx e _ ↦ hx.after e

/-- The ledger of a session is exact: after every call and event, over any link, what the session
has left and what is outstanding add up to its budget, as long as credit is never made sure of.
Where it is, the session still has no more left than its budget, and making sure of credit never
takes any away. -/
theorem ledger_exact (total : UInt8) (link : Link P) (happenings : List (Happening P)) :
    let x := run total link happenings
    ((∀ credit, .ensureCredit credit ∉ happenings) →
      x.session.available.toNat + x.outstanding = x.session.total.toNat) ∧
    x.session.available.toNat ≤ x.session.total.toNat ∧
    ∀ credit, x.session.available ≤ (x.session.ensureCredit credit).available := by
  intro x
  have hstart : (start total link).Exact := owes_fresh total
  refine ⟨fun never ↦ hstart.foldl never, ?_, x.session.le_ensureCredit⟩
  obtain ⟨n, h⟩ : x.Bounded := Bounded.foldl ⟨0, hstart⟩ happenings
  exact h ▸ Nat.le_add_right _ n

/-- Two credits are spent, and a third frame is refused.  A refusal by the peer hands nothing back,
another error one credit, and a grant of 200 only the one that is still outstanding. -/
theorem ledger_exact_overgrant :
    let happenings : List (Happening Sim.Radio) :=
      [.call (.markOpen 9), .call (.sendData 9 [1]), .call (.sendData 9 [2]),
        .call (.sendData 9 [3]), .apply (.pipeError 9 Event.peerRefused []),
        .apply (.pipeError 9 0x81 []), .apply (.dataCredit 200)]
    (∀ credit, .ensureCredit credit ∉ happenings) ∧
      (run 2 (.fresh {}) (happenings.take 5)).outstanding = 2 ∧
      (run 2 (.fresh {}) happenings).outstanding = 0 ∧
      (run 2 (.fresh {}) happenings).session.available = 2 := by
  intro happenings
  have never : ∀ credit, .ensureCredit credit ∉ happenings := by simp [happenings]
  have spent : (run 2 (.fresh {}) (happenings.take 5)).outstanding = 2 := by decide +kernel
  have settled : (run 2 (.fresh {}) happenings).outstanding = 0 := by decide +kernel
  have total : (run 2 (.fresh {}) happenings).session.total = 2 := by decide +kernel
  have hexact := (ledger_exact 2 (.fresh {}) happenings).1 never
  rw [settled, total] at hexact
  exact ⟨never, spent, settled, UInt8.toNat_inj.mp hexact⟩

end Ledger

end RadioBoot.Session
