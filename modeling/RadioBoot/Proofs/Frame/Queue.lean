import Mathlib.Data.List.Forall2
import RadioBoot.Proofs.Frame.Travel

/-!
# A ring is a bounded queue

Whatever is done with a ring of `slots` cells, it answers as a list would that holds at most
`slots - 1` frames (`Queue.use`): a frame is put at its end as long as there is room, and taken from
its front.  What comes out is not the frame that went in but a copy of it (`Frame.Copies`): the
status and what was left over behind the declared bytes do not get into a ring.  They do not get
into its cells either, so two runs that differ in nothing else leave the very same ring
(`run_congr`).
-/

namespace RadioBoot

/-- `g` is a copy of `f`, as a ring makes it: it says the same, and it has no status. -/
structure Frame.Copies (g f : Frame) : Prop where
  status : g.status = 0
  len : g.len = f.len
  opcode : g.opcode? = f.opcode?
  params : g.params = f.params
  bytes : g.bytes = f.bytes

theorem Frame.copies_storedOver (f old : Frame) : (f.storedOver old).Copies f := by
  have hbytes := f.bytes_storedOver old
  exact ⟨rfl, len_eq_of_bytes hbytes, opcode?_eq_of_bytes hbytes, params_eq_of_bytes hbytes, hbytes⟩

/-! ## Uses -/

/-- What can be done with a queue of frames. -/
inductive QueueUse where
  | enqueue (f : Frame)
  | dequeue
  | clear
deriving DecidableEq

/-- What comes of it. -/
inductive QueueAnswer where
  | /-- Whether there was room for the frame. -/
    enqueued (stored : Bool)
  | /-- The frame that was taken, if there was one. -/
    dequeued (f? : Option Frame)
  | cleared
deriving DecidableEq

namespace QueueUse

/-- One thing after the other is done with something that is used as a queue is; the answers come in
order. -/
def run {S : Type} (use : S → QueueUse → QueueAnswer × S) (s : S) :
    List QueueUse → List QueueAnswer × S
  | [] => ([], s)
  | u :: us => ((use s u).1 :: (run use (use s u).2 us).1, (run use (use s u).2 us).2)

/-- The same is done, but perhaps with another frame that says the same. -/
inductive Alike : QueueUse → QueueUse → Prop
  | enqueue {f g : Frame} : f.bytes = g.bytes → Alike (.enqueue f) (.enqueue g)
  | dequeue : Alike .dequeue .dequeue
  | clear : Alike .clear .clear

theorem Alike.refl (u : QueueUse) : Alike u u := by
  cases u with
  | enqueue f => exact .enqueue rfl
  | dequeue => exact .dequeue
  | clear => exact .clear

end QueueUse

/-- Two answers agree if they are the same, up to a copy that is made of the frame. -/
inductive QueueAnswer.Agrees : QueueAnswer → QueueAnswer → Prop
  | enqueued (stored : Bool) : Agrees (.enqueued stored) (.enqueued stored)
  | nothing : Agrees (.dequeued none) (.dequeued none)
  | copy {g f : Frame} : g.Copies f → Agrees (.dequeued (some g)) (.dequeued (some f))
  | cleared : Agrees .cleared .cleared

/-- A queue for at most `room` frames as the list of these frames, oldest first. -/
def Queue.use (room : Nat) (fs : List Frame) : QueueUse → QueueAnswer × List Frame
  | .enqueue f =>
    if fs.length < room then (.enqueued true, fs ++ [f]) else (.enqueued false, fs)
  | .dequeue =>
    match fs with
    | [] => (.dequeued none, [])
    | f :: rest => (.dequeued (some f), rest)
  | .clear => (.cleared, [])

namespace FrameRing

variable {slots : Nat}

/-- A ring used as a queue. -/
def use (r : FrameRing slots) : QueueUse → QueueAnswer × FrameRing slots
  | .enqueue f => (.enqueued (r.enqueue f).1, (r.enqueue f).2)
  | .dequeue => (.dequeued r.dequeue.1, r.dequeue.2)
  | .clear => (.cleared, r.clear)

/-! ## A ring and its list -/

/-- The waiting frames are copies of these. -/
def Holds (r : FrameRing slots) (fs : List Frame) : Prop :=
  List.Forall₂ Frame.Copies r.toList fs

variable {r : FrameRing slots} {fs : List Frame}

theorem Holds.size (h : r.Holds fs) : r.size = fs.length := by
  rw [← r.length_toList]
  exact h.length_eq

theorem Holds.isEmpty_iff (h : r.Holds fs) : r.isEmpty = true ↔ fs = [] := by
  rw [FrameRing.isEmpty_iff, h.size, List.length_eq_zero_iff]

theorem Holds.isFull_iff (h : r.Holds fs) : r.isFull = true ↔ fs.length = r.capacity := by
  have hlt := r.size_lt
  rw [FrameRing.isFull_iff, capacity, ← h.size]
  omega

theorem Holds.enqueue (h : r.Holds fs) (f : Frame) :
    (r.use (.enqueue f)).1.Agrees (Queue.use r.capacity fs (.enqueue f)).1 ∧
      (r.use (.enqueue f)).2.Holds (Queue.use r.capacity fs (.enqueue f)).2 := by
  have hlt := r.size_lt
  cases full : r.isFull with
  | true =>
      have hroom : ¬fs.length < r.capacity :=
        Nat.not_lt_of_le (Nat.le_of_eq (h.isFull_iff.mp full).symm)
      rw [Queue.use, if_neg hroom, use, enqueue_of_isFull full]
      exact ⟨.enqueued false, h⟩
  | false =>
      have hroom : fs.length < r.capacity := by
        have hne : fs.length ≠ r.capacity := fun e ↦ by simp [h.isFull_iff.mpr e] at full
        rw [← h.size] at hne ⊢
        rw [capacity] at hne ⊢
        omega
      rw [Queue.use, if_pos hroom, use, enqueue_fst, full]
      refine ⟨.enqueued true, ?_⟩
      rw [Holds, toList_enqueue full]
      exact List.rel_append h (.cons (f.copies_storedOver _) .nil)

theorem Holds.dequeue (h : r.Holds fs) :
    (r.use .dequeue).1.Agrees (Queue.use r.capacity fs .dequeue).1 ∧
      (r.use .dequeue).2.Holds (Queue.use r.capacity fs .dequeue).2 := by
  cases vacant : r.isEmpty with
  | true =>
      obtain rfl := h.isEmpty_iff.mp vacant
      rw [use, dequeue_of_isEmpty vacant]
      exact ⟨.nothing, h⟩
  | false =>
      have hfirst : r.dequeue.1 = some (r.cell r.head) := by
        rw [FrameRing.dequeue, vacant]
        rfl
      rw [Holds, toList_of_dequeue vacant] at h
      obtain ⟨f, rest, hcopy, hrest, rfl⟩ := List.forall₂_cons_left_iff.mp h
      rw [use, hfirst]
      exact ⟨.copy hcopy, hrest⟩

/-- Whatever is done next, the ring answers as the list does, and goes on holding it. -/
theorem Holds.use (h : r.Holds fs) (u : QueueUse) :
    (r.use u).1.Agrees (Queue.use r.capacity fs u).1 ∧
      (r.use u).2.Holds (Queue.use r.capacity fs u).2 := by
  cases u with
  | enqueue f => exact h.enqueue f
  | dequeue => exact h.dequeue
  | clear =>
      refine ⟨.cleared, ?_⟩
      rw [FrameRing.use, Holds, toList_clear]
      exact .nil

/-- So does it in a run, from whatever list it holds. -/
theorem Holds.run (us : List QueueUse) : ∀ {r : FrameRing slots} {fs : List Frame}, r.Holds fs →
    List.Forall₂ QueueAnswer.Agrees (QueueUse.run FrameRing.use r us).1
        (QueueUse.run (Queue.use (slots - 1)) fs us).1 ∧
      (QueueUse.run FrameRing.use r us).2.Holds
        (QueueUse.run (Queue.use (slots - 1)) fs us).2 := by
  induction us with
  | nil =>
      intro r fs h
      exact ⟨.nil, h⟩
  | cons u us ih =>
      intro r fs h
      obtain ⟨hanswer, hnext⟩ := h.use u
      obtain ⟨hanswers, hlast⟩ := ih hnext
      exact ⟨.cons hanswer hanswers, hlast⟩

/-! ## What does not get in -/

/-- A ring cannot tell frames apart that say the same. -/
theorem use_congr (r : FrameRing slots) {u u' : QueueUse} (h : u.Alike u') :
    r.use u = r.use u' := by
  cases h with
  | enqueue hbytes =>
      have hcells := Frame.storedOver_congr hbytes (r.cell r.tail)
      simp only [use, FrameRing.enqueue, hcells]
  | dequeue => rfl
  | clear => rfl

theorem run_congr {us us' : List QueueUse} (h : List.Forall₂ QueueUse.Alike us us') :
    ∀ r : FrameRing slots, QueueUse.run use r us = QueueUse.run use r us' := by
  induction h with
  | nil => exact fun _ ↦ rfl
  | cons halike _ ih =>
      intro r
      rw [QueueUse.run, QueueUse.run, r.use_congr halike, ih]

/-- A ring is a bounded queue.  After any run from an empty ring its answers have been those of a
list that holds one frame less than the ring has cells, and what comes out is a copy of what went
in. The waiting frames are copies of those in the list, and size, emptiness and fullness are those
of the list.  What is refused next changes nothing.  And the ring, all its cells included, depends
on no more than the bytes of the frames that went in: where the same is done with frames that travel
alike, the answers and the ring are the same. -/
theorem simulates_queue (pos : 0 < slots) (us : List QueueUse) :
    let x := QueueUse.run use (empty slots pos) us
    let y := QueueUse.run (Queue.use (slots - 1)) [] us
    List.Forall₂ QueueAnswer.Agrees x.1 y.1 ∧
    List.Forall₂ Frame.Copies x.2.toList y.2 ∧
    (x.2.size = y.2.length ∧ (x.2.isEmpty = true ↔ y.2 = []) ∧
      (x.2.isFull = true ↔ y.2.length = slots - 1)) ∧
    ((∀ f, (x.2.enqueue f).1 = false → (x.2.enqueue f).2 = x.2) ∧
      (x.2.dequeue.1 = none → x.2.dequeue.2 = x.2)) ∧
    ∀ us', List.Forall₂ QueueUse.Alike us us' → QueueUse.run use (empty slots pos) us' = x := by
  intro x y
  have hempty : (empty slots pos).Holds [] := by
    rw [Holds, toList_empty]
    exact .nil
  obtain ⟨hanswers, hholds⟩ := hempty.run us
  refine ⟨hanswers, hholds, ⟨hholds.size, hholds.isEmpty_iff, hholds.isFull_iff⟩,
    ⟨fun f refused ↦ ?_, fun nothing ↦ ?_⟩, fun us' halike ↦ (run_congr halike _).symm⟩
  · have full : x.2.isFull = true := by simpa [enqueue_fst] using refused
    rw [enqueue_of_isFull full]
  · cases vacant : x.2.isEmpty with
    | true => rw [dequeue_of_isEmpty vacant]
    | false =>
        rw [FrameRing.dequeue, vacant] at nothing
        exact absurd nothing (by simp)

/-- A ring of three cells twice around, with a length byte that declares too much, a frame that is
refused, and cells used again after clearing.  With another status and another byte behind the
declared ones, the first frame leaves the same ring. -/
theorem simulates_queue_around :
    let long := Frame.ofBuffer 7 [200, 0x8C, 8]
    let short := Frame.ofBuffer 0 [1, 0x10, 0xEE]
    let short' := Frame.ofBuffer 9 [1, 0x10, 0xAA, 0xBB]
    let rest := [.enqueue long, .enqueue short, .dequeue, .enqueue long, .clear, .enqueue long,
      .dequeue, .dequeue]
    let x := QueueUse.run use (empty 3 (by decide)) (.enqueue short :: rest)
    (QueueUse.run (Queue.use 2) [] (.enqueue short :: rest)).1 = [.enqueued true, .enqueued true,
      .enqueued false, .dequeued (some short), .enqueued true, .cleared, .enqueued true,
      .dequeued (some long), .dequeued none] ∧
    List.Forall₂ QueueAnswer.Agrees x.1
      (QueueUse.run (Queue.use 2) [] (.enqueue short :: rest)).1 ∧
    QueueUse.run use (empty 3 (by decide)) (.enqueue short' :: rest) = x := by
  intro long short short' rest x
  obtain ⟨hanswers, -, -, -, halike⟩ :=
    simulates_queue (by decide : 0 < 3) (.enqueue short :: rest)
  have hbytes : short.bytes = short'.bytes := by decide
  refine ⟨by decide, hanswers, halike _ (.cons (.enqueue hbytes) ?_)⟩
  exact List.forall₂_same.mpr fun u _ ↦ .refl u

end FrameRing

end RadioBoot
