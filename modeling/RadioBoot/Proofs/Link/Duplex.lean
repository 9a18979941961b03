import RadioBoot.Proofs.Link.Handshake

/-!
# Both ways at once

A transfer carries a frame each way, and the two sides count differently: the host declares how many
bytes follow its first one, and the radio announces, with its second byte, how many follow that.
One number of exchanges serves both (`trailing`), whichever side has more to say.  So over any port,
as long as no exchange fails, the whole of the frame goes out, and what the radio announces comes in
as far as a frame has room for it (`Carried`, `transfer_carries`).

What comes in has been cut to the room of a frame, and it is kept only if it declares something.
This is what the ring of received frames holds after any run, also one with failures
(`report_foldl`), so it is all that a frame taken from the link can be (`carries_both_ways`).
-/

namespace RadioBoot

namespace Frame

/-! ## What comes in -/

/-- A frame as the host takes it: the status is dropped, and it declares something that fits. -/
structure Report (f : Frame) : Prop where
  status : f.status = 0
  declares : 1 ≤ f.len.toNat
  fits : f.len.toNat ≤ maxPayload

/-- The frame made of what came in is empty just when nothing was announced. -/
theorem isEmpty_cut (status announced : UInt8) (rest : List UInt8) :
    (zeroed status (.ofNat (min announced.toNat maxPayload)) rest).isEmpty = true ↔
      announced = 0 := by
  rw [isEmpty, decide_eq_true_iff, zeroed, ← UInt8.toNat_inj, ← UInt8.toNat_inj, toNat_cut]
  change min announced.toNat 31 = 0 ↔ announced.toNat = 0
  omega

end Frame

namespace FrameRing

variable {slots : Nat} {r : FrameRing slots}

/-- A frame that is stored loses its status, and so it is a report if it declares what fits. -/
theorem report_enqueue {f : Frame} (h : ∀ g ∈ r.toList, g.Report) (declares : f.isEmpty = false)
    (fits : f.len.toNat ≤ maxPayload) : ∀ g ∈ (r.enqueue f).2.toList, g.Report := by
  intro g hg
  cases full : r.isFull with
  | true =>
      rw [enqueue_of_isFull full] at hg
      exact h g hg
  | false =>
      rw [toList_enqueue full, List.mem_append, List.mem_singleton] at hg
      rcases hg with hg | rfl
      · exact h g hg
      · refine ⟨rfl, Nat.pos_of_ne_zero fun zero ↦ ?_, fits⟩
        rw [Frame.isEmpty, decide_eq_false_iff_not] at declares
        exact declares (UInt8.toNat_inj.mp zero)

/-- What is taken was in the ring, and so was what stays. -/
theorem report_dequeue (h : ∀ g ∈ r.toList, g.Report) :
    (∀ f, r.dequeue.1 = some f → f.Report) ∧ ∀ g ∈ r.dequeue.2.toList, g.Report := by
  cases none : r.isEmpty with
  | true =>
      rw [dequeue, if_pos none]
      exact ⟨fun f taken ↦ absurd taken (by simp), h⟩
  | false =>
      have hlist := toList_of_dequeue none
      rw [hlist] at h
      refine ⟨fun f taken ↦ ?_, fun g hg ↦ h g (List.mem_cons_of_mem _ hg)⟩
      rw [dequeue, if_neg (by simp [none])] at taken
      obtain rfl := Option.some.inj taken
      exact h _ List.mem_cons_self

end FrameRing

namespace Link

open Port.Call (asking bracket passed fails)

variable {P : Type} [Port P]

/-! ## A transfer without failures -/

/-- What a transfer brings in when the radio announces so many bytes and these follow. -/
def reported (announced : UInt8) (rest : List UInt8) : List (List UInt8) :=
  if announced = 0 then
    []
  else
    [.ofNat (min announced.toNat maxPayload) :: rest.take (min announced.toNat maxPayload)]

/-- `Carried out exchanges received`: the exchanges of a transfer carry the frame `out` to the radio
and what the radio reports to the host, where it makes up what is received. -/
inductive Carried (out : Frame) : List (UInt8 × UInt8) → List (List UInt8) → Prop
  | mk (sent : List UInt8) (status announced : UInt8) {rest : List UInt8} :
      sent.length = 2 + min maxPayload (max announced.toNat (out.len.toNat - 1)) →
      rest.length + 2 = sent.length →
      out.bytes <+: sent →
      Carried out (sent.zip (status :: announced :: rest)) (reported announced rest)

/-- A transfer carries both frames, or an exchange of it fails. -/
theorem transfer_carries {l : Link (Port.Traced P)} (room : l.rx.isFull = false)
    (fits : (l.tx.dequeue.1.getD .empty).len.toNat ≤ maxPayload) :
    (∃ exchanges received ask, Carried (l.tx.dequeue.1.getD .empty) exchanges received ∧
        l.transfer.1 = true ∧
        l.transfer.2.port.calls = l.port.calls ++
          ([.setRequest true] ++ exchanges.map passed ++ [.setRequest false] ++ asking ask) ∧
        l.transfer.2.rx.waiting = l.rx.waiting ++ received) ∨
      ∃ made, l.transfer.2.port.calls = l.port.calls ++ made ∧ ∃ c ∈ made, c.fails = true := by
  rcases l.transfer_cases with ⟨e, failed, h⟩ | ⟨f, done, h⟩
  · obtain ⟨e', -, xs, b, hcalls⟩ := l.clockNext_spec.resolve_left (by simp [failed])
    refine .inr ⟨[.setRequest true] ++ (xs.map passed ++ [.exchange b (.error e')]) ++
      [.setRequest false], ?_, .exchange b (.error e'), by simp, rfl⟩
    rw [h, port_note, calls_setRequest, hcalls]
    simp only [List.append_assoc]
  · obtain ⟨status, announced, rest, hf, hlen, hcalls⟩ :=
      l.clockNext_spec.resolve_right (by simp [done])
    obtain rfl := Except.ok.inj (done.symm.trans hf)
    obtain ⟨ask, hannounced⟩ := (l.clockNext.2.setRequest false).calls_announce
    have hkept : (l.clockNext.2.setRequest false).announce.rx = l.rx := by
      rw [(sameRings_announce _).rx, rx_setRequest, rx_clockNext]
    refine .inl ⟨_, reported announced rest, ask,
      .mk (clockedOut (l.tx.dequeue.1.getD .empty) announced) status announced ?_ ?_ ?_, ?_, ?_, ?_⟩
    · rw [length_clockedOut, trailing, Nat.add_comm]
    · rw [length_clockedOut, hlen]
    · exact take_clockedOut fits announced ▸ List.take_prefix _ _
    · rw [h]
    · rw [h, port_deliver, hannounced, calls_setRequest, hcalls]
      simp only [List.append_assoc]
    · have enough : min announced.toNat maxPayload ≤ rest.length := by
        rw [hlen, trailing]
        omega
      rw [h, waiting_deliver (hkept ▸ room), hkept, Frame.bytes_cut status announced enough]
      simp only [Frame.isEmpty_cut, reported]

/-! ## The ring of received frames -/

/-- What comes in has been cut to the room of a frame. -/
theorem fits_of_clock (l : Link P) (out : Frame) {f : Frame} (h : (l.clock out).1 = .ok f) :
    f.len.toNat ≤ maxPayload := by
  have cut (n : Nat) : (UInt8.ofNat (min n maxPayload)).toNat ≤ maxPayload := by
    rw [Frame.toNat_cut]
    exact Nat.min_le_right _ _
  rw [clock] at h
  split at h
  · exact absurd h (by simp)
  · split at h
    · exact absurd h (by simp)
    · dsimp only at h
      split at h
      · exact absurd h (by simp)
      · obtain rfl := Except.ok.inj h
        exact cut _

omit [Port P] in
theorem report_deliver {l : Link P} {f : Frame} (h : ∀ g ∈ l.rx.toList, g.Report)
    (fits : f.len.toNat ≤ maxPayload) : ∀ g ∈ (l.deliver f).rx.toList, g.Report := by
  rw [deliver]
  split
  · exact h
  · rename_i declares
    have hstored := FrameRing.report_enqueue h (Bool.eq_false_iff.mpr declares) fits
    generalize l.rx.enqueue f = x at hstored
    rcases x with ⟨_ | _, rx⟩
    · exact h
    · exact hstored

theorem report_transfer {l : Link P} (h : ∀ g ∈ l.rx.toList, g.Report) :
    ∀ g ∈ l.transfer.2.rx.toList, g.Report := by
  rcases l.transfer_cases with ⟨e, -, htransfer⟩ | ⟨f, hf, htransfer⟩
  · rw [htransfer, rx_note, rx_setRequest, rx_clockNext]
    exact h
  · rw [htransfer]
    refine report_deliver ?_ (fits_of_clock _ _ hf)
    rw [(sameRings_announce _).rx, rx_setRequest, rx_clockNext]
    exact h

theorem report_poll {l : Link P} (h : ∀ g ∈ l.rx.toList, g.Report) :
    ∀ g ∈ l.poll.2.rx.toList, g.Report := by
  rcases l.poll_cases with ⟨-, hpoll⟩ | ⟨-, -, hpoll⟩ | ⟨-, -, hpoll⟩
  · rw [hpoll]
    exact h
  · rw [hpoll]
    dsimp only
    split <;> exact h
  · rw [hpoll]
    exact report_transfer h

/-- A turn of the link, if there is room for one, and then a frame is taken. -/
theorem report_tryReceive {l : Link P} (h : ∀ g ∈ l.rx.toList, g.Report) :
    (∀ f, l.tryReceive.1 = some f → f.Report) ∧ ∀ g ∈ l.tryReceive.2.rx.toList, g.Report := by
  have hturn : ∀ g ∈ (if l.rx.isFull then l else l.poll.2).rx.toList, g.Report := by
    split
    · exact h
    · exact report_poll h
  rw [tryReceive, (sameRings_announce _).rx]
  exact FrameRing.report_dequeue hturn

/-- No operation puts anything else into the ring. -/
theorem report_operate {l : Link P} (h : ∀ g ∈ l.rx.toList, g.Report) (op : Operation) :
    ∀ g ∈ (l.operate op).rx.toList, g.Report := by
  cases op with
  | send f =>
      rw [operate, rx_send]
      exact h
  | poll => exact report_poll h
  | tryReceive => exact (report_tryReceive h).2
  | flush =>
      rw [operate, flush, FrameRing.toList_clear]
      exact List.forall_mem_nil _
  | pinReset =>
      rw [operate, pinReset, flush, FrameRing.toList_clear]
      exact List.forall_mem_nil _

/-- So after any run the ring holds nothing else. -/
theorem report_foldl (port : P) (ops : List Operation) :
    ∀ g ∈ (ops.foldl operate (fresh port)).rx.toList, g.Report := by
  refine List.foldlRecOn (motive := fun l : Link P ↦ ∀ g ∈ l.rx.toList, g.Report) ops operate ?_
    fun l h op _ ↦ report_operate h op
  rw [fresh, FrameRing.toList_empty]
  exact List.forall_mem_nil _

/-- Over any port, a turn that finds the radio ready and in which no exchange fails carries the
whole of both frames, whatever their two lengths are: it exchanges enough bytes for the longer of
them, those that go out start with the frame that is sent, and what is kept is what the radio
announced, as far as a frame has room for it.  And whatever is done with a link over any port, also
one that fails, each frame taken from it has no status and declares something that fits. -/
theorem carries_both_ways :
    (∀ (l : Link (Port.Traced P)) (made : List Port.Call), l.rx.isFull = false →
      l.isReady.1 = true → (l.tx.dequeue.1.getD .empty).len.toNat ≤ maxPayload →
      l.poll.2.port.calls = l.port.calls ++ made → (∀ c ∈ made, c.fails = false) →
        l.poll.1 = true ∧ ∃ exchanges received ask,
          Carried (l.tx.dequeue.1.getD .empty) exchanges received ∧
            made = bracket (exchanges.map passed) ++ asking ask ∧
            l.poll.2.rx.waiting = l.rx.waiting ++ received) ∧
      ∀ (port : P) (ops : List Operation) (f : Frame),
        (ops.foldl operate (fresh port)).tryReceive.1 = some f →
          f.status = 0 ∧ 1 ≤ f.len.toNat ∧ f.len.toNat ≤ maxPayload := by
  refine ⟨fun l made room ready fits hmade passes ↦ ?_, fun port ops f taken ↦ ?_⟩
  · have hlooked := l.calls_isReady
    have hturn := transfer_carries (l := l.isReady.2) room fits
    rw [tx_isReady, rx_isReady, hlooked, ready] at hturn
    rw [poll_of_ready room ready] at hmade ⊢
    rcases hturn with ⟨exchanges, received, ask, carried, done, hcalls, hrx⟩ | ⟨more, hcalls, hc⟩
    · refine ⟨done, exchanges, received, ask, carried, ?_, hrx⟩
      rw [hcalls, List.append_assoc] at hmade
      rw [← List.append_cancel_left hmade]
      simp only [bracket, List.append_assoc, List.cons_append, List.nil_append]
    · -- an exchange has failed, but it was among the calls of this turn
      obtain ⟨c, hmem, failed⟩ := hc
      rw [hcalls, List.append_assoc] at hmade
      have passed := passes c (List.append_cancel_left hmade ▸ List.mem_append_right _ hmem)
      exact absurd (failed.symm.trans passed) (by decide)
  · have report := (report_tryReceive (report_foldl port ops)).1 f taken
    exact ⟨report.status, report.declares, report.fits⟩

/-- A frame that fills its room goes out while the radio announces more than there is room for. -/
theorem carries_both_ways_longest :
    let radio : Sim.Radio := { pending := [[40, 0x8C, 8]] }
    let f : Frame := .zeroed 0 31 (.replicate 31 7)
    let l := ((fresh (Port.Traced.fresh radio)).send f).2
    l.rx.isFull = false ∧ l.isReady.1 = true ∧
      (l.tx.dequeue.1.getD .empty).len.toNat ≤ maxPayload ∧
      (∃ made, l.poll.2.port.calls = l.port.calls ++ made ∧ (∀ c ∈ made, c.fails = false) ∧
        ∃ exchanges received ask, Carried (l.tx.dequeue.1.getD .empty) exchanges received ∧
          made = bracket (exchanges.map passed) ++ asking ask ∧
          l.poll.2.rx.waiting = l.rx.waiting ++ received) ∧
      ∃ g, ([Operation.send f].foldl operate (fresh radio)).tryReceive.1 = some g ∧
        g.status = 0 ∧ 1 ≤ g.len.toNat ∧ g.len.toNat ≤ maxPayload := by
  intro radio f l
  have room : l.rx.isFull = false := by decide +kernel
  have ready : l.isReady.1 = true := by decide +kernel
  have fits : (l.tx.dequeue.1.getD .empty).len.toNat ≤ maxPayload := by decide +kernel
  obtain ⟨made, hmade, -⟩ := l.makes_poll
  have passes : ∀ c ∈ made, c.fails = false := by
    have all : ∀ c ∈ l.poll.2.port.calls, c.fails = false := by decide +kernel
    exact fun c hc ↦ all c (hmade ▸ List.mem_append_right _ hc)
  obtain ⟨carries, reports⟩ := carries_both_ways (P := Sim.Radio)
  have taken : ([Operation.send f].foldl operate (fresh radio)).tryReceive.1.isSome = true := by
    decide +kernel
  obtain ⟨g, hg⟩ := Option.isSome_iff_exists.mp taken
  exact ⟨room, ready, fits,
    ⟨made, hmade, passes, (carries l made room ready fits hmade passes).2⟩,
    g, hg, reports radio [.send f] g hg⟩

end Link

end RadioBoot
