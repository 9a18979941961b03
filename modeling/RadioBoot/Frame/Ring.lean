import RadioBoot.Frame.Basic

/-!
# A ring of frames

A queue of frames in a fixed number of cells, used in a circle. One cell always stays free, so that
a full ring differs from an empty one; a ring of `slots` cells holds `slots - 1` frames. Cells are
overwritten only as far as a new frame declares (`Frame.storedOver`).
-/

namespace RadioBoot

/-- Cells in a circle: frames wait from `head` on, and the next one goes to `tail`. -/
@[ext] structure FrameRing (slots : Nat) where
  cells : List Frame
  /-- The cell of the oldest waiting frame. -/
  head : Fin slots
  /-- The cell that the next frame is stored in. -/
  tail : Fin slots
  length_cells : cells.length = slots
deriving DecidableEq

namespace FrameRing

variable {slots : Nat}

/-! ## Places in the circle -/

/-- The cell `n` places after `i`, around the end. -/
def ahead (i : Fin slots) (n : Nat) : Fin slots :=
  ⟨(i + n) % slots, Nat.mod_lt _ (Nat.zero_lt_of_lt i.isLt)⟩

/-- The cell after `i`. -/
def next (i : Fin slots) : Fin slots := ahead i 1

@[simp] theorem ahead_zero (i : Fin slots) : ahead i 0 = i :=
  Fin.ext (Nat.mod_eq_of_lt i.isLt)

@[simp] theorem ahead_ahead (i : Fin slots) (m n : Nat) :
    ahead (ahead i m) n = ahead i (m + n) := by
  simp [ahead, Nat.add_assoc]

@[simp] theorem ahead_slots (i : Fin slots) : ahead i slots = i := by
  apply Fin.ext
  simp only [ahead, Nat.add_mod_right, Nat.mod_eq_of_lt i.isLt]

/-- Less than once around, each cell is met once. -/
theorem ahead_inj {i : Fin slots} {m n : Nat} (hm : m < slots) (hn : n < slots)
    (h : ahead i m = ahead i n) : m = n := by
  have hi := i.isLt
  have once {k : Nat} (hk : k < slots) :
      (i + k) % slots = if i + k < slots then i + k else i + k - slots := by
    split
    · exact Nat.mod_eq_of_lt ‹_›
    · rw [Nat.mod_eq_sub_mod (by omega), Nat.mod_eq_of_lt (by omega)]
  have h := Fin.val_eq_of_eq h
  simp only [ahead, once hm, once hn] at h
  split at h <;> split at h <;> omega

/-! ## Operations -/

/-- A ring with nothing in it and every cell blank. -/
def empty (slots : Nat) (pos : 0 < slots) : FrameRing slots :=
  ⟨.replicate slots .empty, ⟨0, pos⟩, ⟨0, pos⟩, by simp⟩

/-- Forget what waits. The cells keep their bytes. -/
def clear (r : FrameRing slots) : FrameRing slots :=
  let first := ⟨0, Nat.zero_lt_of_lt r.head.isLt⟩
  { r with head := first, tail := first }

def isEmpty (r : FrameRing slots) : Bool := r.head = r.tail

def isFull (r : FrameRing slots) : Bool := next r.tail = r.head

/-- How many frames wait. -/
def size (r : FrameRing slots) : Nat := (r.tail + slots - r.head) % slots

/-- How many frames can wait at once. -/
def capacity (_ : FrameRing slots) : Nat := slots - 1

/-- The frame stored in cell `i`. -/
def cell (r : FrameRing slots) (i : Fin slots) : Frame :=
  r.cells.get ⟨i, by simp [r.length_cells]⟩

/-- Store `f` behind the waiting frames; a full ring refuses it and stays as it is. -/
def enqueue (r : FrameRing slots) (f : Frame) : Bool × FrameRing slots :=
  if r.isFull then
    (false, r)
  else
    (true, { r with
      cells := r.cells.set r.tail (f.storedOver (r.cell r.tail))
      tail := next r.tail
      length_cells := by simp [r.length_cells] })

/-- Take the oldest waiting frame. Its cell keeps its bytes. -/
def dequeue (r : FrameRing slots) : Option Frame × FrameRing slots :=
  if r.isEmpty then
    (none, r)
  else
    (some (r.cell r.head), { r with head := next r.head })

/-- The waiting frames, oldest first. -/
def toList (r : FrameRing slots) : List Frame :=
  (List.range r.size).map fun i ↦ r.cell (ahead r.head i)

end FrameRing

end RadioBoot
