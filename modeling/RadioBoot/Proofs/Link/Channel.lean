import RadioBoot.Proofs.Link.Traffic

/-!
# The link is a lossless channel

As long as the bus works, the link loses nothing, repeats nothing and changes no order, in either
direction.  A run of a link is a list of things that happen to it (`Happening`), and a `Record`
keeps what went in and what came out.  At every moment of every run, what has been accepted is what
the radio has recorded and then what still waits to be sent; and what has been received, what waits
to be received and what is still pending at the radio are the reported events, each as far as a
frame has room for it (`channel_lossless`).
-/

namespace RadioBoot.Link

open Sim

/-! ## Runs of a link -/

/-- One thing that happens to a link over a simulated radio, on either side. -/
inductive Happening where
  | /-- The host wants to send a frame that declares something. -/
    send (f : Frame) (declares : f.isEmpty = false)
  | poll
  | tryReceive
  | radio (c : Radio.Change)

/-- A link and what has gone through it, oldest first. -/
structure Record where
  link : Link Radio
  /-- The frames that have been accepted to be sent. -/
  accepted : List (List UInt8)
  /-- The frames that have been received. -/
  received : List (List UInt8)
  /-- The events that the radio was given to report or has added by itself. -/
  reported : List (List UInt8)

namespace Record

/-- A new link to a new radio. -/
def fresh : Record := ⟨.fresh {}, [], [], []⟩

/-- What the radio has added by itself when it recorded the frames between `l` and `l'`. -/
def answered (l l' : Link Radio) : List (List UInt8) :=
  (l'.port.sent.drop l.port.sent.length).flatMap l.port.answersTo

/-- The record after one more thing has happened. -/
def after (x : Record) : Happening → Record
  | .send f _ =>
    { x with
      link := (x.link.send f).2
      accepted := x.accepted ++ if (x.link.send f).1 then [f.bytes] else [] }
  | .poll =>
    { x with
      link := x.link.poll.2
      reported := x.reported ++ answered x.link x.link.poll.2 }
  | .tryReceive =>
    { x with
      link := x.link.tryReceive.2
      received := x.received ++ (x.link.tryReceive.1.map Frame.bytes).toList
      reported := x.reported ++ answered x.link x.link.tryReceive.2 }
  | .radio c =>
    { x with
      link := x.link.onRadio c
      reported := x.reported ++ c.events }

/-- The record after all of this has happened, in order. -/
def run (happenings : List Happening) : Record := happenings.foldl after fresh

/-! ## What is kept -/

/-- All that has gone in is accounted for. -/
structure Balanced (x : Record) : Prop where
  sound : x.link.Sound
  outgoing : x.link.outgoing = x.accepted
  incoming : x.received ++ x.link.incoming = x.reported.filterMap Radio.heard?

theorem balanced_fresh : Balanced fresh :=
  ⟨still_fresh.sound, still_fresh.outgoing, still_fresh.incoming⟩

variable {x : Record}

/-- What moves on the link stays accounted for. -/
theorem Balanced.moves (h : Balanced x) {queued recorded returned : List (List UInt8)}
    {l : Link Radio} (hmoves : Moves x.link queued recorded returned l)
    (hq : ∀ bs ∈ queued, Frame.Sendable bs) :
    Balanced
      ⟨l, x.accepted ++ queued, x.received ++ returned, x.reported ++ answered x.link l⟩ := by
  have hans : answered x.link l = recorded.flatMap x.link.port.answersTo := by
    rw [answered, hmoves.sent, List.drop_left]
  refine ⟨hmoves.sound h.sound hq, ?_, ?_⟩
  · rw [hmoves.outgoing, h.outgoing]
  · rw [List.append_assoc, hmoves.incoming, hans, List.filterMap_append, ← List.append_assoc,
      h.incoming]

/-- Nothing that happens to a link loses anything. -/
theorem Balanced.after (h : Balanced x) (e : Happening) : Balanced (x.after e) := by
  cases e with
  | send f declares =>
      have hmoves := (queues_send h.sound.calm f).moves h.sound.calm
      have hnone : answered x.link (x.link.send f).2 = [] := by
        rw [answered, hmoves.sent, List.append_nil, List.drop_length, List.flatMap_nil]
      have hbalanced := h.moves hmoves (fun bs hbs ↦ sendable_of_accepted declares hbs)
      rw [hnone, List.append_nil, List.append_nil] at hbalanced
      exact hbalanced
  | poll =>
      obtain ⟨recorded, hmoves, _⟩ := moves_poll h.sound
      simpa [Record.after] using h.moves hmoves (by simp)
  | tryReceive =>
      obtain ⟨recorded, hmoves⟩ := moves_tryReceive h.sound
      simpa [Record.after] using h.moves hmoves (by simp)
  | radio c =>
      refine ⟨h.sound.onRadio c, (Link.outgoing_onRadio _ c).trans h.outgoing, ?_⟩
      rw [Record.after, List.filterMap_append, ← h.incoming, List.append_assoc,
        Link.incoming_onRadio]

theorem Balanced.foldl (happenings : List Happening) :
    ∀ {x : Record}, Balanced x → Balanced (happenings.foldl Record.after x) := by
  induction happenings with
  | nil =>
      intro x h
      exact h
  | cons e es ih =>
      intro x h
      exact ih (h.after e)

theorem balanced_run (happenings : List Happening) : Balanced (run happenings) :=
  balanced_fresh.foldl happenings

end Record

/-- The link is a lossless channel: at every moment of every run, the frames that the radio has
recorded and then those that wait to be sent are the accepted frames, in order; and the frames that
have been received, then those that wait to be received, then what will be heard of the pending
events, are what is heard of the reported events, in order. -/
theorem channel_lossless (happenings : List Happening) :
    (Record.run happenings).link.port.sent ++ (Record.run happenings).link.tx.waiting =
      (Record.run happenings).accepted ∧
    (Record.run happenings).received ++ (Record.run happenings).link.rx.waiting ++
        (Record.run happenings).link.port.pending.filterMap Radio.heard? =
      (Record.run happenings).reported.filterMap Radio.heard? := by
  have h := Record.balanced_run happenings
  refine ⟨h.outgoing, ?_⟩
  rw [List.append_assoc]
  exact h.incoming

end RadioBoot.Link
