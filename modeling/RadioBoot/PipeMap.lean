import RadioBoot.Bytes

/-!
# Sets of pipes

The radio reports which pipes are open as eight bytes, one bit a pipe, the least significant bit
first. It has 62 pipes; the two bits above them mean nothing.
-/

namespace RadioBoot

/-- The number of pipes that the radio can expose. -/
def maxPipes : UInt8 := 62

/-- A set of pipes, as the radio writes it. -/
@[ext] structure PipeMap where
  bytes : List UInt8
  length_bytes : bytes.length = 8
deriving DecidableEq

namespace PipeMap

/-- No pipe. -/
def empty : PipeMap := ⟨.replicate 8 0, by simp⟩

/-- The set in the first eight of `bs`; missing bytes are zero. -/
def ofBytes (bs : List UInt8) : PipeMap := ⟨overlay bs (.replicate 8 0), by simp⟩

/-- The byte in which only bit `k` is set. -/
def bit (k : Nat) : UInt8 := ⟨BitVec.twoPow 8 k⟩

/-- Whether `pipe` is in the set. A pipe that the radio does not have is in no set, whatever the
bits above the last pipe say. -/
def contains (m : PipeMap) (pipe : UInt8) : Bool :=
  pipe < maxPipes && (m.bytes.getD (pipe.toNat / 8) 0).toBitVec.getLsbD (pipe.toNat % 8)

/-- The set with the bit of `pipe` set. -/
def insert (m : PipeMap) (pipe : UInt8) : PipeMap :=
  ⟨m.bytes.modify (pipe.toNat / 8) (· ||| bit (pipe.toNat % 8)), by simp [m.length_bytes]⟩

/-- The set with the bit of `pipe` clear. -/
def erase (m : PipeMap) (pipe : UInt8) : PipeMap :=
  ⟨m.bytes.modify (pipe.toNat / 8) (· &&& ~~~bit (pipe.toNat % 8)), by simp [m.length_bytes]⟩

@[simp] theorem contains_empty (pipe : UInt8) : empty.contains pipe = false := by
  have zero (k : Nat) : (List.replicate 8 (0 : UInt8)).getD k 0 = 0 := by
    rw [List.getD_eq_getElem?_getD, List.getElem?_replicate]
    split <;> rfl
  rw [contains, empty, zero]
  simp

/-- A modified list, byte by byte. -/
theorem getD_modify (bs : List UInt8) (i j : Nat) (f : UInt8 → UInt8) (h : j < bs.length) :
    (bs.modify i f).getD j 0 = if i = j then f (bs.getD j 0) else bs.getD j 0 := by
  simp only [List.getD_eq_getElem?_getD, List.getElem?_modify, List.getElem?_eq_getElem h]
  split <;> simp [*]

/-- The bits of a modified map. -/
theorem contains_modify (m : PipeMap) (f : UInt8 → UInt8) (i : Nat)
    (h : (m.bytes.modify i f).length = 8) {q : UInt8} (hq : q < maxPipes) :
    contains ⟨m.bytes.modify i f, h⟩ q =
      ((if i = q.toNat / 8 then f (m.bytes.getD (q.toNat / 8) 0) else
        m.bytes.getD (q.toNat / 8) 0).toBitVec.getLsbD (q.toNat % 8)) := by
  have : q.toNat < 62 := UInt8.lt_iff_toNat_lt.mp hq
  have := m.length_bytes
  simp only [contains, hq, decide_true, Bool.true_and]
  rw [getD_modify _ _ _ _ (by omega)]

/-- A pipe is its byte and its bit in the map. -/
theorem pipe_eq_iff (p q : UInt8) :
    q = p ↔ p.toNat / 8 = q.toNat / 8 ∧ p.toNat % 8 = q.toNat % 8 := by
  rw [← UInt8.toNat_inj]
  omega

theorem getLsbD_bit {k : Nat} (h : k < 8) (j : Nat) :
    (bit k).toBitVec.getLsbD j = decide (k = j) := by
  simp only [bit, BitVec.getLsbD_twoPow]
  simp [h]

/-- Inserting a pipe adds that pipe and no other; one that the radio does not have is not added. -/
theorem contains_insert (m : PipeMap) (p q : UInt8) :
    (m.insert p).contains q = (decide (q = p ∧ q < maxPipes) || m.contains q) := by
  by_cases hq : q < maxPipes
  · rw [insert, contains_modify _ _ _ _ hq]
    by_cases h : p.toNat / 8 = q.toNat / 8
    · rw [if_pos h, UInt8.toBitVec_or, BitVec.getLsbD_or, getLsbD_bit (by omega), Bool.or_comm]
      simp [contains, hq, pipe_eq_iff, h]
    · simp [contains, hq, pipe_eq_iff, h]
  · simp [contains, hq]

/-- Erasing a pipe removes that pipe and no other. -/
theorem contains_erase (m : PipeMap) (p q : UInt8) :
    (m.erase p).contains q = (decide (q ≠ p) && m.contains q) := by
  by_cases hq : q < maxPipes
  · rw [erase, contains_modify _ _ _ _ hq]
    by_cases h : p.toNat / 8 = q.toNat / 8
    · rw [if_pos h, UInt8.toBitVec_and, BitVec.getLsbD_and, UInt8.toBitVec_not, BitVec.getLsbD_not,
        getLsbD_bit (by omega), Bool.and_comm]
      have hbit : q.toNat % 8 < 8 := by omega
      simp [contains, hq, pipe_eq_iff, h, hbit]
    · simp [contains, hq, pipe_eq_iff, h]
  · simp [contains, hq]

end PipeMap

end RadioBoot
