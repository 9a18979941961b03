/-!
# Runs that may not be over

Waiting for the radio can take any number of turns. A run that is given a number of turns ends
either done or still waiting, and in both cases its state is known.
-/

namespace RadioBoot

/-- How a run of so many turns ended. -/
inductive Progress (α : Type) where
  | done (a : α)
  /-- The turns were used up first. -/
  | waiting (a : α)
deriving DecidableEq, Repr

namespace Progress

variable {α β : Type}

/-- What the run has come to, over or not. -/
def state : Progress α → α
  | .done a | .waiting a => a

def isDone : Progress α → Bool
  | .done _ => true
  | .waiting _ => false

@[simp] theorem state_done (a : α) : (done a).state = a := rfl
@[simp] theorem state_waiting (a : α) : (waiting a).state = a := rfl

def map (f : α → β) : Progress α → Progress β
  | .done a => .done (f a)
  | .waiting a => .waiting (f a)

@[simp] theorem map_done (f : α → β) (a : α) : (done a).map f = done (f a) := rfl
@[simp] theorem map_waiting (f : α → β) (a : α) : (waiting a).map f = waiting (f a) := rfl

@[simp] theorem state_map (f : α → β) (x : Progress α) : (x.map f).state = f x.state := by
  cases x <;> rfl

/-- Go on once the run is over. One that still waits stays as it is. -/
def mapDone (f : α → α) : Progress α → Progress α
  | .done a => .done (f a)
  | .waiting a => .waiting a

@[simp] theorem mapDone_done (f : α → α) (a : α) : (done a).mapDone f = done (f a) := rfl
@[simp] theorem mapDone_waiting (f : α → α) (a : α) : (waiting a).mapDone f = waiting a := rfl

end Progress

end RadioBoot
