import RadioBoot.Proofs.Session.Commands
import RadioBoot.Updater

/-!
# Flushing the responses

Responses are sent one by one until the link takes no more.  Three things limit how many go out:
how many wait, how much credit there is, and how many places are free among the frames to send; and
none goes out while the pipe is closed (`Updater.quota`).  Each response that is taken leaves one
less of all three, so the loop ends where the first of them is used up, and this says all about what
it leaves (`sendAll_eq`).  A second flush finds nothing to do (`flushes_quota`).
-/

namespace RadioBoot

/-- A response is much shorter than what fits a frame. -/
theorem Message.length_encode_le (m : Message) : m.encode.length ≤ 7 := by
  cases m with
  | response | imageSize | receipt => simp [encode, Word.littleEndian32]

namespace Updater

/-! ## How many responses go out -/

/-- The command that sends a response. -/
def response (pipe : UInt8) (m : Message) : Command := .sendData pipe m.encode

/-- How many of so many responses go out: none while the pipe is closed, else as many as there is
credit and room for. -/
def quota {P : Type} (pipe : UInt8) (waiting : Nat) (s : Session) (l : Link P) : Nat :=
  if s.isAvailable pipe then min waiting (min s.available.toNat l.tx.free) else 0

variable {P : Type} {pipe : UInt8} {s : Session} {l l' : Link P}

theorem quota_le_waiting (waiting : Nat) : quota pipe waiting s l ≤ waiting := by
  rw [quota]
  split
  · exact Nat.min_le_left _ _
  · exact Nat.zero_le _

theorem quota_le_available (waiting : Nat) :
    quota pipe waiting s l ≤ s.available.toNat := by
  rw [quota]
  split
  · exact Nat.le_trans (Nat.min_le_right _ _) (Nat.min_le_left _ _)
  · exact Nat.zero_le _

/-- Nothing goes out when there is nothing, or when the pipe, the credit or the room is lacking. -/
theorem quota_eq_zero_iff {waiting : Nat} :
    quota pipe waiting s l = 0 ↔
      waiting = 0 ∨ s.isAvailable pipe = false ∨ s.available = 0 ∨ l.tx.isFull = true := by
  have hcredit : s.available.toNat = 0 ↔ s.available = 0 := UInt8.toNat_inj (b := 0)
  rw [quota, ← FrameRing.free_eq_zero_iff, ← hcredit]
  cases s.isAvailable pipe with
  | true =>
      simp only [if_true, Bool.true_eq_false, false_or]
      omega
  | false => simp

theorem length_taken (outbox : List Message) :
    ((outbox.take (quota pipe outbox.length s l)).map (response pipe)).length =
      quota pipe outbox.length s l := by
  rw [List.length_map, List.length_take]
  exact Nat.min_eq_left (quota_le_waiting _)

variable [Port P]

/-- A response that is taken leaves one less to send, to spend and to fill. -/
theorem quota_succ (waiting : Nat) {c : Command} (opened : s.isAvailable pipe = true)
    (credit : s.available ≠ 0) (htakes : l.Takes c l') :
    quota pipe (waiting + 1) s l = quota pipe waiting (s.spend 1) l' + 1 := by
  have hpos : 1 ≤ s.available.toNat := Nat.pos_of_ne_zero fun zero ↦
    credit (UInt8.toNat_inj.mp zero)
  have hspent := Session.toNat_available_spend hpos
  have hfree := htakes.free
  have hopened : (s.spend 1).isAvailable pipe = true := opened
  rw [quota, quota, if_pos opened, if_pos hopened]
  omega

/-- Of the responses the first ones go out, as many as the quota says, each for one credit. -/
theorem sendAll_eq (pipe : UInt8) (outbox : List Message) : ∀ (s : Session) (l : Link P),
    ∃ l', sendAll pipe outbox s l = (outbox.drop (quota pipe outbox.length s l),
        s.spend (quota pipe outbox.length s l), l') ∧
      l.TakesAll ((outbox.take (quota pipe outbox.length s l)).map (response pipe)) l' := by
  induction outbox with
  | nil =>
      intro s l
      have hnone : quota pipe 0 s l = 0 := Nat.le_zero.mp (quota_le_waiting 0)
      refine ⟨l, ?_, ?_⟩
      · rw [List.length_nil, hnone, Session.spend_zero]
        rfl
      · rw [List.take_nil]
        exact .nil l
  | cons m rest ih =>
      intro s l
      have short : m.encode.length ≤ maxPipeData :=
        Nat.le_trans m.length_encode_le (by decide : 7 ≤ 29)
      rw [sendAll]
      rcases s.sendData_of_short l pipe short with ⟨refused, h⟩ | ⟨usable, l', h, htakes⟩
      · have hnone : quota pipe (m :: rest).length s l = 0 := by
          refine quota_eq_zero_iff.mpr (.inr ?_)
          refine Classical.byContradiction fun usable ↦ ?_
          simp only [not_or, Bool.not_eq_false, Bool.not_eq_true] at usable
          exact refused usable
        rw [h, hnone, Session.spend_zero]
        exact ⟨l, rfl, .nil l⟩
      · obtain ⟨opened, credit, -⟩ := usable
        obtain ⟨l'', hrest, hall⟩ := ih (s.spend 1) l'
        have hquota := quota_succ rest.length opened credit htakes
        rw [h, List.length_cons, hquota]
        refine ⟨l'', ?_, .cons htakes hall⟩
        rw [← Session.spend_spend]
        exact hrest

/-- With nothing to send, nothing happens. -/
theorem sendAll_of_quota {outbox : List Message} (none : quota pipe outbox.length s l = 0) :
    sendAll pipe outbox s l = (outbox, s, l) := by
  obtain ⟨l', h, hall⟩ := sendAll_eq pipe outbox s l
  rw [none, Session.spend_zero] at h
  rw [none] at hall
  cases hall
  exact h

/-- When as many commands have been taken as the quota says, no more of the rest go out. -/
theorem quota_of_takesAll {waiting : Nat} {cs : List Command} (hall : l.TakesAll cs l')
    (hcount : cs.length = quota pipe waiting s l) :
    quota pipe (waiting - cs.length) (s.spend cs.length) l' = 0 := by
  have hcredit := Session.toNat_available_spend (hcount ▸ quota_le_available waiting)
  have hfree := hall.free
  have hopened : (s.spend cs.length).isAvailable pipe = s.isAvailable pipe := rfl
  rw [quota] at hcount ⊢
  rw [hopened]
  split
  · rename_i opened
    rw [if_pos opened] at hcount
    omega
  · rfl

/-! ## A flush -/

variable {page : Nat} {F R : Type}

theorem flushResponses_eq (u : Updater page P F R) :
    let k := quota u.pipes.controlTx u.outbox.length u.session u.link
    ∃ link, u.flushResponses =
        (k, { u with outbox := u.outbox.drop k, session := u.session.spend k, link }) ∧
      u.link.TakesAll ((u.outbox.take k).map (response u.pipes.controlTx)) link := by
  intro k
  obtain ⟨link, h, hall⟩ := sendAll_eq u.pipes.controlTx u.outbox u.session u.link
  have hcount : u.outbox.length - (u.outbox.drop k).length = k := by
    rw [List.length_drop]
    exact Nat.sub_sub_self (quota_le_waiting _)
  refine ⟨link, ?_, hall⟩
  rw [flushResponses, h]
  exact congrArg (·, _) hcount

/-- Each response that goes out costs one credit. -/
theorem available_flushResponses (u : Updater page P F R) :
    u.flushResponses.2.session.available.toNat +
        quota u.pipes.controlTx u.outbox.length u.session u.link =
      u.session.available.toNat := by
  obtain ⟨link, h, -⟩ := u.flushResponses_eq
  rw [h]
  exact Session.toNat_available_spend (quota_le_available _)

/-- Each response that goes out is one more frame that waits. -/
theorem length_flushResponses (u : Updater page P F R) :
    u.flushResponses.2.link.tx.waiting.length =
      u.link.tx.waiting.length + quota u.pipes.controlTx u.outbox.length u.session u.link := by
  obtain ⟨link, h, hall⟩ := u.flushResponses_eq
  rw [h, hall.waiting, List.length_append, List.length_map, length_taken]

/-- After a flush no response could go out. -/
theorem quota_flushResponses (u : Updater page P F R) :
    let v := u.flushResponses.2
    quota v.pipes.controlTx v.outbox.length v.session v.link = 0 := by
  obtain ⟨link, h, hall⟩ := u.flushResponses_eq
  have hrest := quota_of_takesAll hall (length_taken _)
  rw [length_taken, ← List.length_drop] at hrest
  rw [h]
  exact hrest

/-- A flush sends as many responses as it can and no more.  That is none while the pipe for
responses is closed, and else the least of how many wait, how much credit there is and how many
places are free among the frames to send.  These responses, the oldest, leave the outbox, the frames
that send them are put behind the other frames in the same order, each costs one credit, and nothing
else changes about the update, its session or what has been received.  So afterwards the outbox is
empty, or the pipe is closed, or there is no credit or no place left, and a second flush does
nothing at all. -/
theorem flushes_quota (u : Updater page P F R) :
    let k := if u.session.isAvailable u.pipes.controlTx then
        min u.outbox.length (min u.session.available.toNat (u.link.tx.capacity - u.link.tx.size))
      else 0
    let v := u.flushResponses.2
    u.flushResponses.1 = k ∧
    v = { u with
      outbox := u.outbox.drop k
      session := { u.session with available := u.session.available - .ofNat k }
      link := v.link } ∧
    v.session.available.toNat + k = u.session.available.toNat ∧
    v.link.rx = u.link.rx ∧
    (∃ frames, v.link.tx.toList = u.link.tx.toList ++ frames ∧
      frames.map Command.decode = (u.outbox.take k).map fun m ↦
        .ok (.sendData u.pipes.controlTx m.encode)) ∧
    (v.outbox = [] ∨ v.session.isAvailable v.pipes.controlTx = false ∨ v.session.available = 0 ∨
      v.link.tx.isFull = true) ∧
    v.flushResponses = (0, v) := by
  intro k v
  obtain ⟨link, h, hall⟩ := u.flushResponses_eq
  have hv : v = { u with outbox := u.outbox.drop k, session := u.session.spend k, link } :=
    congrArg Prod.snd h
  have hnone : quota v.pipes.controlTx v.outbox.length v.session v.link = 0 :=
    u.quota_flushResponses
  obtain ⟨frames, hlist, hread⟩ := hall.decode
  refine ⟨congrArg Prod.fst h, ?_, ?_, ?_, ⟨frames, ?_, ?_⟩, ?_, ?_⟩
  · rw [hv]
    rfl
  · exact u.available_flushResponses
  · rw [hv]
    exact hall.rx
  · rw [hv]
    exact hlist
  · rw [hread, List.map_map]
    rfl
  · rw [← List.length_eq_zero_iff]
    exact quota_eq_zero_iff.mp hnone
  · rw [flushResponses, sendAll_of_quota hnone, Nat.sub_self]

end Updater

end RadioBoot
