import RadioBoot.Restart

/-!
# Requests to restart

A restart is asked for and not seen, so that the requests have to be counted.  What is counted
answers as before.
-/

namespace RadioBoot.Restart

/-- Something to restart, together with the number of requests. -/
structure Traced (R : Type) where
  target : R
  requests : Nat

namespace Traced

variable {R : Type}

/-- Nothing asked for yet. -/
def fresh (target : R) : Traced R := ⟨target, 0⟩

/-- Counting changes nothing. -/
instance [Restart R] : Restart (Traced R) where
  restart t := (Restart.restart t.target).map (⟨·, t.requests + 1⟩)

@[simp] theorem requests_restart [Restart R] (t : Traced R) :
    (Restart.restart t).value.requests = t.requests + 1 := rfl

end Traced

end RadioBoot.Restart
