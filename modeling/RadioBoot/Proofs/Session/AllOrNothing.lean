import RadioBoot.Proofs.Link.Handshake
import RadioBoot.Proofs.Session.Commands

/-!
# All or nothing

A session gives a command to the link whole, or it does nothing.  The checks are made in three
places, by the session, by the encoder and by the link; but whichever of them refuses, no credit has
been spent by then, no pipe closed and no request line asserted (`all_or_nothing`).
-/

namespace RadioBoot.Session

open Port.Call (asking)

variable {P : Type} [Port P]

/-- The radio is asked for a transfer once, unless there is no room for what comes in. -/
theorem calls_of_takes {l l' : Link (Port.Traced P)} {c : Command} (h : l.Takes c l') :
    l'.port.calls = l.port.calls ++ asking (!l.rx.isFull) := by
  rw [h.port]
  cases l.rx.isFull with
  | true => exact (List.append_nil _).symm
  | false => exact Port.Traced.calls_after _ _ _

/-- The commands of a session are all or nothing.  A command is taken just when it is permitted and
the frames to send leave room for one more.  Then one frame is put behind them, which is read as
this command; the only call on the port asserts the request line, and it is made unless the ring of
received frames is full; and the session has one credit less, or no pipe open or closed, or it is
the same.  A command that is not taken leaves the session, both rings and the port just as they
were. -/
theorem all_or_nothing (s : Session) (l : Link (Port.Traced P)) (c : Command) :
    let x := s.order l c
    (x.1 = true ↔ s.Permits c ∧ l.tx.isFull = false) ∧
    if x.1 then
      x.2.1 = s.charged c ∧
        (∃ f, x.2.2.tx.toList = l.tx.toList ++ [f] ∧ Command.decode f = .ok c) ∧
        x.2.2.rx = l.rx ∧ x.2.2.port.calls = l.port.calls ++ asking (!l.rx.isFull)
    else
      x.2.1 = s ∧ x.2.2.tx = l.tx ∧ x.2.2.rx = l.rx ∧ x.2.2.port = l.port := by
  rcases s.order_cases l c with ⟨refused, log, h⟩ | ⟨permitted, l', h, htakes⟩ <;> rw [h]
  · exact ⟨by simpa using refused, rfl, rfl, rfl, rfl⟩
  · obtain ⟨f, hlist, hbytes⟩ := htakes.tx
    have hread : Command.decode f = .ok c := by
      rw [Command.decode_eq_read, hbytes, Command.read_bytes]
    exact ⟨by simpa using permitted, rfl, ⟨f, hlist, hread⟩, htakes.rx, calls_of_takes htakes⟩

end RadioBoot.Session
