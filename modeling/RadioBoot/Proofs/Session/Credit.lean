import RadioBoot.Proofs.Session.Commands

/-!
# The credit book

The radio has room for a fixed number of data frames, and a session keeps count of it.  Here the
count is kept a second time, in a book with one entry for each frame sent, each event received and
each grant of credit that does not come from the radio.  What is outstanding according to the book
and what the session has left always add up to the budget (`Session.Owes`): a session loses no
credit, and it never has more to spend than the book allows.
-/

namespace RadioBoot

/-! ## Entries -/

/-- The radio starts to count its room anew with this event. -/
def Event.resetsCredit : Event → Bool
  | .deviceStarted .. | .connected .. | .disconnected .. => true
  | _ => false

/-- How many credits an event hands back. -/
def Event.handsBack : Event → Nat
  | .dataCredit credit => credit.toNat
  | .pipeError _ code _ => if code = peerRefused then 0 else 1
  | _ => 0

/-- One entry of the book. -/
inductive CreditEntry where
  | /-- The link has taken a data frame. -/
    spent
  | received (e : Event)
  | /-- The session has been given credits of its own accord, and not by the radio. -/
    granted (credits : Nat)
deriving DecidableEq

namespace CreditEntry

/-- What is outstanding after one more entry. -/
def book (n : Nat) : CreditEntry → Nat
  | .spent => n + 1
  | .received e => if e.resetsCredit then 0 else n - e.handsBack
  | .granted credits => n - credits

/-- The credits granted after one more entry, since the radio last began to count. -/
def bookGrant (n : Nat) : CreditEntry → Nat
  | .received e => if e.resetsCredit then 0 else n
  | .granted credits => n + credits
  | .spent => n

def isGrant : CreditEntry → Bool
  | .granted _ => true
  | _ => false

end CreditEntry

/-- The data frames that have been sent and for which nothing has been handed back. -/
def outstanding (entries : List CreditEntry) : Nat := entries.foldl CreditEntry.book 0

/-- The credits granted since the radio last began to count. -/
def grants (entries : List CreditEntry) : Nat := entries.foldl CreditEntry.bookGrant 0

/-- The book as the radio would keep it, which knows of no grants. -/
def radioBook (entries : List CreditEntry) : List CreditEntry := entries.filter fun e ↦ !e.isGrant

theorem outstanding_append (es es' : List CreditEntry) :
    outstanding (es ++ es') = es'.foldl CreditEntry.book (outstanding es) :=
  List.foldl_append

/-- Without the grants, no more is outstanding than what has been granted on top. -/
theorem outstanding_radioBook_le (entries : List CreditEntry) :
    outstanding (radioBook entries) ≤ outstanding entries + grants entries := by
  suffices hle : ∀ n m k : Nat, n ≤ m + k →
      (radioBook entries).foldl CreditEntry.book n ≤
        entries.foldl CreditEntry.book m + entries.foldl CreditEntry.bookGrant k from
    hle 0 0 0 (Nat.le_refl 0)
  induction entries with
  | nil =>
      intro n m k h
      exact h
  | cons e es ih =>
      intro n m k h
      cases e with
      | spent => exact ih (n + 1) (m + 1) k (by omega)
      | granted credits => exact ih n (m - credits) (k + credits) (by omega)
      | received e =>
          refine ih _ _ _ ?_
          simp only [CreditEntry.book, CreditEntry.bookGrant]
          split
          · exact Nat.zero_le _
          · omega

namespace Session

/-! ## What a session owes -/

/-- With `n` frames outstanding, the session has the rest of its budget left. -/
def Owes (s : Session) (n : Nat) : Prop := s.available.toNat + n = s.total.toNat

variable {s : Session} {n : Nat}

theorem owes_fresh (total : UInt8) : (fresh total).Owes 0 := rfl

theorem Owes.le_total (h : s.Owes n) : n ≤ s.total.toNat := by
  rw [← h]
  exact Nat.le_add_left _ _

/-- With the whole budget left, nothing is owed. -/
theorem owes_zero (h : s.available = s.total) : s.Owes 0 := by
  rw [Owes, h, Nat.add_zero]

/-- What is handed back is taken back as far as something is owed. -/
theorem Owes.returnCredit (h : s.Owes n) (credit : UInt8) :
    (s.returnCredit credit).value.Owes (n - credit.toNat) := by
  have ht := s.total.toNat_lt
  have hback : (s.returnCredit credit).value.available.toNat =
      min (min 255 (s.available.toNat + credit.toNat)) s.total.toNat := by
    rw [Session.returnCredit, UInt8.toNat_ofNat_of_lt']
    simp only [UInt8.size]
    omega
  rw [Owes] at h ⊢
  rw [hback, show (s.returnCredit credit).value.total = s.total from rfl]
  omega

/-- Every event brings the session and the book up to date alike. -/
theorem Owes.apply (h : s.Owes n) (e : Event) :
    (s.apply e).value.Owes (CreditEntry.book n (.received e)) := by
  cases e with
  | deviceStarted | connected | disconnected => exact owes_zero rfl
  | dataCredit credit => exact h.returnCredit credit
  | pipeError pipe code data =>
      simp only [Session.apply, CreditEntry.book, Event.resetsCredit, Event.handsBack]
      by_cases hcode : code = Event.peerRefused
      · simpa [hcode] using h
      · simpa [hcode] using h.returnCredit 1
  | _ => exact h

theorem Owes.markOpen (h : s.Owes n) (pipe : UInt8) : (s.markOpen pipe).Owes n := by
  rw [Session.markOpen]
  split <;> exact h

/-- How many credits a session lacks of a number that it is to have, within its budget. -/
def lacks (s : Session) (credit : UInt8) : Nat :=
  min credit.toNat s.total.toNat - s.available.toNat

/-- Making sure of some credit grants what is lacking. -/
theorem Owes.ensureCredit (h : s.Owes n) (credit : UInt8) :
    (s.ensureCredit credit).Owes (n - s.lacks credit) := by
  have hmin (a b : UInt8) : (min a b).toNat = min a.toNat b.toNat := by
    rw [Nat.min_def, show min a b = if a ≤ b then a else b from rfl]
    simp only [UInt8.le_iff_toNat_le]
    split <;> rfl
  have hmax (a b : UInt8) : (max a b).toNat = max a.toNat b.toNat := by
    rw [Nat.max_def, show max a b = if a ≤ b then b else a from rfl]
    simp only [UInt8.le_iff_toNat_le]
    split <;> rfl
  have hcredit : (s.ensureCredit credit).available.toNat =
      max s.available.toNat (min credit.toNat s.total.toNat) := by
    rw [Session.ensureCredit, hmax, hmin]
  rw [Owes] at h ⊢
  rw [hcredit, lacks, show (s.ensureCredit credit).total = s.total from rfl]
  omega

/-- What is spent is outstanding. -/
theorem Owes.spend (h : s.Owes n) {credits : Nat} (enough : credits ≤ s.available.toNat) :
    (s.spend credits).Owes (n + credits) := by
  have hless := toNat_available_spend enough
  rw [Owes] at h ⊢
  rw [show (s.spend credits).total = s.total from rfl]
  omega

variable {P : Type} [Port P]

/-- A data frame that is taken is one more outstanding. -/
theorem Owes.sendData (h : s.Owes n) (l : Link P) (pipe : UInt8) (data : List UInt8) :
    (s.sendData l pipe data).2.1.Owes (n + if (s.sendData l pipe data).1 then 1 else 0) := by
  rcases s.order_cases l (.sendData pipe data) with ⟨-, log, hc⟩ | ⟨⟨hpermits, -⟩, l', hc, -⟩ <;>
    rw [order] at hc <;> rw [hc]
  · exact h
  · exact h.spend hpermits.2.1

theorem Owes.disconnect (h : s.Owes n) (l : Link P) (reason : UInt8) :
    (s.disconnect l reason).2.1.Owes n := by
  rcases s.disconnect_cases l reason with ⟨-, hc⟩ | ⟨-, l', hc, -⟩ <;> rw [hc] <;> exact h

/-- Receiving keeps the session in step with the book, which has an entry for the event. -/
theorem Owes.nextEvent (h : s.Owes n) (l : Link P) :
    (s.nextEvent l).2.1.Owes
      (((s.nextEvent l).1.toList.map CreditEntry.received).foldl CreditEntry.book n) := by
  rcases s.nextEvent_cases l with ⟨hnone, hs⟩ | ⟨_, e, _, _, hsome, hs⟩
  · rw [hnone, hs]
    exact h
  · rw [hsome, hs]
    exact h.apply e

end Session

end RadioBoot
