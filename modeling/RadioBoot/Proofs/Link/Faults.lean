import RadioBoot.Proofs.Link.Traffic

/-!
# Transfers that fail

On a port on which any exchange may fail, a transfer that does not fail is what it would be on a
port that never does (`transfer_passed`).  One that fails stops at some byte, and then the two sides
may believe different things of it.  The host has lost the frame that it was sending, and has heard
nothing.  The radio has lost the event that it was reporting, if any byte has reached it at all, and
it has got the whole frame or nothing of it, whatever the byte was that failed (`finish_prefix`).
Neither side ever gets part of a frame (`transfer_failed`).
-/

namespace RadioBoot

namespace Sim

/-- A port on which any exchange may fail. -/
structure Flaky (P : Type) where
  port : P
  /-- How each coming exchange fails, if it does; behind the end none fails. -/
  plan : List (Option PortError)

namespace Flaky

variable {P : Type}

/-- An exchange that fails does not reach the port behind. -/
instance [Port P] : Port (Flaky P) where
  exchange t out :=
    match t.plan.headD none with
    | some e => .silent (.error e, ⟨t.port, t.plan.tail⟩)
    | none => (Port.exchange t.port out).map fun x ↦ (x.1, ⟨x.2, t.plan.tail⟩)
  isReady t := (Port.isReady t.port).map fun x ↦ (x.1, ⟨x.2, t.plan⟩)
  setRequest t on := (Port.setRequest t.port on).map (⟨·, t.plan⟩)
  pulseReset t := (Port.pulseReset t.port).map (⟨·, t.plan⟩)
  delay t ms := (Port.delay t.port ms).map (⟨·, t.plan⟩)

end Flaky

/-! ## The radio's side -/

namespace Radio

/-- The radio after these bytes have been clocked. -/
def clockAll (r : Radio) (bytes : List UInt8) : Radio :=
  bytes.foldl (fun r b ↦ (r.clock b).2) r

theorem clockAll_underway (r : Radio) (first : UInt8) (bytes : List UInt8) :
    ∀ earlier, (r.underway (first :: earlier)).clockAll bytes =
      r.underway (first :: earlier ++ bytes) := by
  induction bytes with
  | nil =>
      intro earlier
      rw [List.append_nil]
      rfl
  | cons b rest ih =>
      intro earlier
      have hrest := ih (earlier ++ [b])
      rw [List.cons_append, List.append_assoc, List.singleton_append] at hrest
      exact hrest

/-- From the first byte on, a transfer is under way. -/
theorem Calm.clockAll {r : Radio} (h : r.Calm) (first : UInt8) (bytes : List UInt8) :
    r.clockAll (first :: bytes) = r.underway (first :: bytes) := by
  have hfirst : (r.clock first).2 = r.underway [first] := by
    rw [clock, h.clocked]
    rfl
  rw [Radio.clockAll, List.foldl_cons, hfirst]
  exact clockAll_underway r first bytes []

/-- Once enough of a transfer has come through, the frame that was being sent is what came first. -/
theorem take_of_prefix {out : Frame} (fits : out.len.toNat ≤ maxPayload) {bytes : List UInt8}
    (h : bytes <+: out.buffer ++ [0]) (whole : out.len.toNat + 1 ≤ bytes.length) :
    bytes.take (out.len.toNat + 1) = out.bytes := by
  obtain ⟨behind, hbytes⟩ := h
  rw [← List.take_append_of_le_length whole, hbytes, Frame.buffer, List.cons_append,
    List.take_succ_cons, List.take_append_of_le_length (out.length_room ▸ fits), Frame.bytes,
    Frame.payload, Frame.declared, Nat.min_eq_left fits]

/-- Wherever a transfer stops, the radio has got the whole of the frame that was being sent, or
nothing of it. -/
theorem finish_prefix (r : Radio) {out : Frame} (fits : out.len.toNat ≤ maxPayload)
    {bytes : List UInt8} (h : out.len :: bytes <+: out.buffer ++ [0]) :
    ∃ frames, (frames = [] ∨ out.isEmpty = false ∧ frames = [out.bytes]) ∧
      (r.underway (out.len :: bytes)).finish.value = r.exchanged frames := by
  have hnone : { r.underway (out.len :: bytes) with clocked := [], outgoing := [] } =
      r.exchanged [] := by
    simp [exchanged, underway]
  cases bytes with
  | nil => exact ⟨[], .inl rfl, hnone⟩
  | cons opcode rest =>
      have hclocked :
          (r.underway (out.len :: opcode :: rest)).clocked = out.len :: opcode :: rest := rfl
      by_cases short : out.len = 0 ∨ (out.len :: opcode :: rest).length < out.len.toNat + 1
      · refine ⟨[], .inl rfl, ?_⟩
        rw [← hnone, value_finish hclocked]
        exact if_pos short
      · have whole := take_of_prefix fits h (Nat.le_of_not_lt fun hlt ↦ short (.inr hlt))
        have hpos : out.len.toNat ≠ 0 := fun zero ↦ short (.inl (UInt8.toNat_inj.mp zero))
        obtain ⟨n, hn⟩ := Nat.exists_eq_add_one_of_ne_zero hpos
        have hans : r.answersTo out.bytes = (r.settings.answer opcode).pending := by
          rw [← whole, hn]
          rfl
        refine ⟨[out.bytes], .inr ⟨?_, rfl⟩, ?_⟩
        · exact decide_eq_false fun zero ↦ short (.inl zero)
        · rw [value_finish hclocked, exchanged, List.flatMap_singleton, hans, ← whole]
          exact if_neg short

/-- Letting go of the request line ends a transfer that has stopped. -/
theorem drive_prefix {r : Radio} (h : r.Calm) {out : Frame} (fits : out.len.toNat ≤ maxPayload)
    {bytes : List UInt8} (hbytes : bytes <+: out.buffer ++ [0]) :
    Aside r ((r.clockAll bytes).drive false).value ∨
      ∃ frames, (frames = [] ∨ out.isEmpty = false ∧ frames = [out.bytes]) ∧
        Aside (r.exchanged frames) ((r.clockAll bytes).drive false).value := by
  cases bytes with
  | nil => exact .inl (h.drive false)
  | cons first rest =>
      obtain rfl : first = out.len := by
        obtain ⟨behind, hbehind⟩ := hbytes
        exact (List.cons.inj hbehind).1
      obtain ⟨frames, hframes, hfinish⟩ := r.finish_prefix fits hbytes
      refine .inr ⟨frames, hframes, ?_⟩
      rw [h.clockAll, ← hfinish]
      rfl

end Radio

/-- An exchange fails and does not reach the radio, or it clocks a byte. -/
theorem Flaky.exchange_cases (p : Flaky Radio) (b : UInt8) :
    (∃ e, Port.exchange p b = .silent (.error e, ⟨p.port, p.plan.tail⟩)) ∨
      p.port.busFault = false ∧ Port.exchange p b =
        .silent (.ok (p.port.clock b).1, ⟨(p.port.clock b).2, p.plan.tail⟩) := by
  obtain ⟨r, plan⟩ := p
  simp only [Port.exchange]
  cases plan.headD none with
  | some e => exact .inl ⟨e, rfl⟩
  | none =>
      by_cases fault : r.busFault = true
      · refine .inl ⟨.bus, ?_⟩
        rw [if_pos fault]
        rfl
      · refine .inr ⟨Bool.eq_false_iff.mpr fault, ?_⟩
        rw [if_neg fault]
        rfl

end Sim

namespace Link

open Sim

variable (l : Link (Flaky Radio))

/-- The link as it is with the radio on a port that never fails. -/
def direct : Link Radio := ⟨l.port.port, l.tx, l.rx, l.log⟩

@[simp] theorem tx_direct : l.direct.tx = l.tx := rfl
@[simp] theorem rx_direct : l.direct.rx = l.rx := rfl
@[simp] theorem port_direct : l.direct.port = l.port.port := rfl

/-! ## Exchanges -/

/-- An exchange fails and does not reach the radio, or it is as it would be without failures. -/
theorem exchange_cases (b : UInt8) :
    (∃ e, (l.exchange b).1 = .error e) ∧ (l.exchange b).2.port.port = l.port.port ∨
      ∃ reply, (l.exchange b).1 = .ok reply ∧
        l.direct.exchange b = (.ok reply, (l.exchange b).2.direct) ∧
        (l.exchange b).2.port.port = l.port.port.clockAll [b] := by
  obtain ⟨e, he⟩ | ⟨working, hclock⟩ := l.port.exchange_cases b
  · rw [exchange, he]
    exact .inl ⟨⟨e, rfl⟩, rfl⟩
  · rw [exchange_eq (l := l.direct) working, exchange, hclock]
    exact .inr ⟨_, rfl, rfl, rfl⟩

/-- So with several: they stop at one that fails, or they are as they would be without failures. -/
theorem exchangeAll_cases (bytes : List UInt8) :
    ∀ l : Link (Flaky Radio),
      (∃ e, (l.exchangeAll bytes).1 = .error e) ∧
          (∃ done, done <+: bytes ∧
            (l.exchangeAll bytes).2.port.port = l.port.port.clockAll done) ∨
        ∃ replies, (l.exchangeAll bytes).1 = .ok replies ∧
          l.direct.exchangeAll bytes = (.ok replies, (l.exchangeAll bytes).2.direct) := by
  induction bytes with
  | nil =>
      intro l
      exact .inr ⟨[], rfl, rfl⟩
  | cons b rest ih =>
      intro l
      have hfirst := l.exchange_cases b
      simp only [exchangeAll]
      generalize l.exchange b = x at hfirst
      obtain ⟨reply, l₁⟩ := x
      rcases hfirst with ⟨⟨e, rfl⟩, hport⟩ | ⟨reply, rfl, hdirect, hport⟩
      · exact .inl ⟨⟨e, rfl⟩, [], List.nil_prefix, hport⟩
      have hrest := ih l₁
      rw [hdirect]
      dsimp only at hport ⊢
      generalize l₁.exchangeAll rest = y at hrest
      obtain ⟨replies, l₂⟩ := y
      rcases hrest with ⟨⟨e, rfl⟩, done, hdone, hport₂⟩ | ⟨replies, rfl, hdirect₂⟩
      · refine .inl ⟨⟨e, rfl⟩, b :: done, List.prefix_cons_inj b |>.mpr hdone, ?_⟩
        exact hport₂.trans (congrArg (Radio.clockAll · done) hport)
      · rw [hdirect₂]
        exact .inr ⟨_, rfl, rfl⟩

/-- Clocking a frame stops at a byte that fails, or it is as it would be without failures. -/
theorem clock_cases (out : Frame) :
    (∃ e, (l.clock out).1 = .error e) ∧
        (∃ done, done <+: out.buffer ++ [0] ∧
          (l.clock out).2.port.port = l.port.port.clockAll done) ∨
      ∃ f, (l.clock out).1 = .ok f ∧ l.direct.clock out = (.ok f, (l.clock out).2.direct) := by
  obtain ⟨b, rest, hroom, hlen⟩ := out.exists_room
  have hstatus := l.exchange_cases out.len
  simp only [clock, hroom, List.headD_cons, List.tail_cons]
  generalize l.exchange out.len = x at hstatus
  obtain ⟨status, l₁⟩ := x
  rcases hstatus with ⟨⟨e, rfl⟩, hport⟩ | ⟨status, rfl, hdirect, hport⟩
  · exact .inl ⟨⟨e, rfl⟩, [], List.nil_prefix, hport⟩
  rw [hdirect]
  have hlength := l₁.exchange_cases b
  dsimp only at hport ⊢
  generalize l₁.exchange b = x at hlength
  obtain ⟨announced, l₂⟩ := x
  rcases hlength with ⟨⟨e, rfl⟩, hport₂⟩ | ⟨announced, rfl, hdirect₂, hport₂⟩
  · refine .inl ⟨⟨e, rfl⟩, [out.len], ?_, hport₂.trans hport⟩
    exact (List.prefix_cons_inj out.len).mpr List.nil_prefix
  rw [hdirect₂]
  dsimp only at hport₂ ⊢
  -- a line about the length, or none, is all that the branches differ in
  obtain ⟨l₃, hnoted, hport₃, hdirect₃⟩ : ∃ l₃,
      (if maxPayload < announced.toNat then l₂.note (truncating announced) else l₂) = l₃ ∧
        l₃.port = l₂.port ∧ (if maxPayload < announced.toNat then
          l₂.direct.note (truncating announced) else l₂.direct) = l₃.direct := by
    split <;> exact ⟨_, rfl, rfl, rfl⟩
  rw [hnoted, hdirect₃]
  have hall := l₃.exchangeAll_cases ((rest ++ [0]).take (trailing out announced))
  generalize l₃.exchangeAll ((rest ++ [0]).take (trailing out announced)) = x at hall
  obtain ⟨replies, l₄⟩ := x
  rcases hall with ⟨⟨e, rfl⟩, done, hdone, hport₄⟩ | ⟨replies, rfl, hdirect₄⟩
  · refine .inl ⟨⟨e, rfl⟩, out.len :: b :: done, ?_, ?_⟩
    · rw [Frame.buffer, hroom, List.cons_append, List.cons_append, List.prefix_cons_inj,
        List.prefix_cons_inj]
      exact hdone.trans (List.take_prefix _ _)
    · dsimp only at hport₄ ⊢
      rw [hport₄, hport₃, hport₂, hport]
      rfl
  · rw [hdirect₄]
    exact .inr ⟨_, rfl, rfl⟩

/-! ## Transfers -/

theorem direct_announce : l.announce.direct = l.direct.announce := by
  rw [announce, announce, rx_direct, tx_direct]
  cases !l.rx.isFull && !l.tx.isEmpty <;> rfl

theorem direct_deliver (f : Frame) : (l.deliver f).direct = l.direct.deliver f := by
  rw [deliver, deliver, rx_direct]
  cases f.isEmpty with
  | true => rfl
  | false => rcases l.rx.enqueue f with ⟨_ | _, rx⟩ <;> rfl

/-- Sending a frame exchanges nothing, so it cannot fail. -/
theorem direct_send (f : Frame) :
    (l.direct.send f).1 = (l.send f).1 ∧ (l.direct.send f).2 = (l.send f).2.direct := by
  rw [send, send, tx_direct]
  split
  · exact ⟨rfl, rfl⟩
  · rcases l.tx.enqueue f with ⟨_ | _, tx⟩
    · exact ⟨rfl, rfl⟩
    · rw [rx_direct]
      cases l.rx.isFull <;> exact ⟨rfl, rfl⟩

/-- A transfer that does not fail is what it would be on a port that never does. -/
theorem transfer_passed (h : l.transfer.1 = true) : l.transfer.2.direct = l.direct.transfer.2 := by
  have hclock := ({ l with tx := l.tx.dequeue.2 }.setRequest true).clock_cases
    (l.tx.dequeue.1.getD .empty)
  rw [transfer] at h ⊢
  rw [transfer, tx_direct]
  generalize hasking : { l with tx := l.tx.dequeue.2 }.setRequest true = asking at hclock h ⊢
  have hdirect : { l.direct with tx := l.tx.dequeue.2 }.setRequest true = asking.direct := by
    rw [← hasking]
    rfl
  rw [hdirect]
  generalize asking.clock (l.tx.dequeue.1.getD .empty) = x at hclock h ⊢
  obtain ⟨outcome, l'⟩ := x
  rcases hclock with ⟨⟨e, rfl⟩, -⟩ | ⟨f, rfl, hclocked⟩
  · exact absurd h Bool.false_ne_true
  · rw [hclocked]
    dsimp only
    rw [direct_deliver, direct_announce]
    rfl

/-- A transfer that fails has lost the frame that it was sending, and the host has heard nothing.
The radio has got no byte, and then nothing has happened to it; or it has lost the event that it was
reporting, and it has got all of the frame or nothing of it.  The request line is down. -/
theorem transfer_failed (h : l.port.port.Calm)
    (fits : (l.tx.dequeue.1.getD .empty).len.toNat ≤ maxPayload) (failed : l.transfer.1 = false) :
    l.transfer.2.tx = l.tx.dequeue.2 ∧ l.transfer.2.rx = l.rx ∧
      l.transfer.2.port.port.request = false ∧
      (l.port.port.Aside l.transfer.2.port.port ∨
        ∃ frames, (frames = [] ∨ (l.tx.dequeue.1.getD .empty).isEmpty = false ∧
            frames = [(l.tx.dequeue.1.getD .empty).bytes]) ∧
          (l.port.port.exchanged frames).Aside l.transfer.2.port.port) := by
  generalize hout : l.tx.dequeue.1.getD .empty = out at fits ⊢
  have hasked : l.port.port.Aside ({ l with tx := l.tx.dequeue.2 }.setRequest true).port.port :=
    h.drive true
  have hclock := ({ l with tx := l.tx.dequeue.2 }.setRequest true).clock_cases out
  rcases l.transfer_cases with ⟨e, herror, htransfer⟩ | ⟨f, -, htransfer⟩
  · rw [clockNext, hout] at herror
    obtain ⟨-, done, hdone, hport⟩ := hclock.resolve_right (by simp [herror])
    have hdown : l.transfer.2.port.port = ((({ l with tx := l.tx.dequeue.2 }.setRequest
        true).port.port.clockAll done).drive false).value := by
      rw [htransfer, ← hport, clockNext, hout]
      rfl
    refine ⟨?_, ?_, ?_, ?_⟩
    · rw [htransfer, tx_note, tx_setRequest, tx_clockNext]
    · rw [htransfer, rx_note, rx_setRequest, rx_clockNext]
    · rw [htransfer]
      rfl
    · rw [hdown]
      rcases Radio.drive_prefix (hasked.calm h) fits hdone with hidle | ⟨frames, hframes, hended⟩
      · exact .inl (hasked.trans hidle)
      · exact .inr ⟨frames, hframes, (hasked.exchanged frames).trans hended⟩
  · rw [htransfer] at failed
    exact absurd failed (by simp)

end Link

end RadioBoot
