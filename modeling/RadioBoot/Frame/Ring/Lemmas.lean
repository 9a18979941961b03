import RadioBoot.Frame.Ring

/-!
# The frames that wait in a ring

A ring is used as the list of its waiting frames. Storing a frame puts it at the end of the list
(`toList_enqueue`), taking one removes it from the front (`toList_of_dequeue`), and the ring is
empty or full just when the list is (`isEmpty_iff`, `isFull_iff`).
-/

namespace RadioBoot.FrameRing

variable {slots : Nat}

theorem size_lt (r : FrameRing slots) : r.size < slots :=
  Nat.mod_lt _ (Nat.zero_lt_of_lt r.head.isLt)

@[simp] theorem length_toList (r : FrameRing slots) : r.toList.length = r.size := by
  simp [toList]

/-- The waiting frames fill the cells from head to tail. -/
@[simp] theorem ahead_size (r : FrameRing slots) : ahead r.head r.size = r.tail := by
  have := r.head.isLt
  apply Fin.ext
  simp only [ahead, size, Nat.add_mod_mod]
  rw [show (r.head : Nat) + (r.tail + slots - r.head) = r.tail + slots by omega,
    Nat.add_mod_right, Nat.mod_eq_of_lt r.tail.isLt]

theorem size_eq_of_ahead {r : FrameRing slots} {n : Nat} (hn : n < slots)
    (h : ahead r.head n = r.tail) : r.size = n :=
  ahead_inj r.size_lt hn (r.ahead_size.trans h.symm)

theorem isEmpty_iff {r : FrameRing slots} : r.isEmpty ↔ r.size = 0 := by
  simp only [isEmpty, decide_eq_true_eq]
  constructor
  · intro h
    exact size_eq_of_ahead (Nat.zero_lt_of_lt r.size_lt) (by simpa using h)
  · intro h
    rw [← r.ahead_size, h, ahead_zero]

theorem isFull_iff {r : FrameRing slots} : r.isFull ↔ r.size + 1 = slots := by
  have hlt := r.size_lt
  simp only [isFull, decide_eq_true_eq]
  rw [next, ← r.ahead_size, ahead_ahead]
  constructor
  · intro h
    apply Classical.byContradiction
    intro hne
    have := ahead_inj (i := r.head) (n := 0) (by omega) (by omega) (h.trans (ahead_zero _).symm)
    omega
  · intro h
    rw [h, ahead_slots]

@[simp] theorem toList_empty (slots : Nat) (pos : 0 < slots) : (empty slots pos).toList = [] := by
  simp [toList, size, empty]

@[simp] theorem toList_clear (r : FrameRing slots) : r.clear.toList = [] := by
  simp [toList, size, clear]

theorem enqueue_fst (r : FrameRing slots) (f : Frame) : (r.enqueue f).1 = !r.isFull := by
  rw [enqueue]
  split <;> simp [*]

theorem enqueue_of_isFull {r : FrameRing slots} (h : r.isFull) (f : Frame) :
    r.enqueue f = (false, r) := if_pos h

/-- A frame that is taken waits behind the others. -/
theorem toList_enqueue {r : FrameRing slots} (h : r.isFull = false) (f : Frame) :
    (r.enqueue f).2.toList = r.toList ++ [f.storedOver (r.cell r.tail)] := by
  have hsize : r.size + 1 < slots := by
    have := r.size_lt
    have : ¬r.size + 1 = slots := fun e ↦ by simp [isFull_iff.mpr e] at h
    omega
  have hgrow : (r.enqueue f).2.size = r.size + 1 := by
    apply size_eq_of_ahead hsize
    simp [enqueue, h, next, ← ahead_ahead]
  rw [toList, hgrow, List.range_succ, List.map_append, toList]
  congr 1
  · apply List.map_congr_left
    intro i hi
    have hi := List.mem_range.mp hi
    have hne : r.tail ≠ ahead r.head i := fun e ↦ by
      have := ahead_inj (by omega) (by omega) (r.ahead_size.trans e)
      omega
    have hne : r.tail.val ≠ (ahead r.head i).val := fun e ↦ hne (Fin.ext e)
    simp [enqueue, h, cell, hne]
  · simp [enqueue, h, cell]

/-- An empty ring has nothing to give, and stays as it is. -/
theorem dequeue_of_isEmpty {r : FrameRing slots} (h : r.isEmpty) : r.dequeue = (none, r) := if_pos h

/-- What is taken is the oldest waiting frame. -/
theorem toList_of_dequeue {r : FrameRing slots} (h : r.isEmpty = false) :
    r.toList = r.cell r.head :: r.dequeue.2.toList := by
  have hpos : r.size ≠ 0 := fun e ↦ by simp [isEmpty_iff.mpr e] at h
  obtain ⟨n, hn⟩ := Nat.exists_eq_succ_of_ne_zero hpos
  have hrest : r.dequeue.2.size = n := by
    apply size_eq_of_ahead (by have := r.size_lt; omega)
    simp only [dequeue, h, Bool.false_eq_true, if_false, next, ahead_ahead]
    rw [Nat.add_comm, ← Nat.succ_eq_add_one, ← hn, ahead_size]
  rw [toList, hn, List.range_succ_eq_map, List.map_cons, List.map_map, ahead_zero, toList, hrest]
  simp [dequeue, h, next, cell, Function.comp_def, Nat.add_comm]

end RadioBoot.FrameRing
