/-!
# Bytes and words

Words are written as bytes in one of two orders, and a shorter run of bytes can be laid over a
longer one. Both are stated on lists of bytes, through `toNat`.
-/

namespace RadioBoot

/-- Lay the bytes `new` over the front of `old`. What does not fit is dropped, and what is not
covered stays: the length of `old` never changes. -/
def overlay (new old : List UInt8) : List UInt8 :=
  new.take old.length ++ old.drop new.length

@[simp] theorem length_overlay (new old : List UInt8) :
    (overlay new old).length = old.length := by
  simp only [overlay, List.length_append, List.length_take, List.length_drop]
  omega

/-- Once `new` is short enough to fit, the front of the result is `new` itself. -/
theorem take_overlay {new old : List UInt8} (h : new.length ≤ old.length) :
    (overlay new old).take new.length = new := by
  simp [overlay, List.take_of_length_le h]

namespace Word

/-- The 16-bit word of a low and a high byte. -/
def ofBytes (low high : UInt8) : UInt16 :=
  .ofNat (low.toNat + 256 * high.toNat)

/-- The low eight bits. -/
def low (w : UInt16) : UInt8 := .ofNat w.toNat

/-- The high eight bits. -/
def high (w : UInt16) : UInt8 := .ofNat (w.toNat / 256)

@[simp] theorem toNat_ofBytes (low high : UInt8) :
    (ofBytes low high).toNat = low.toNat + 256 * high.toNat := by
  have := low.toNat_lt; have := high.toNat_lt
  simp only [ofBytes, UInt16.toNat_ofNat']
  omega

@[simp] theorem toNat_low (w : UInt16) : (low w).toNat = w.toNat % 256 := by simp [low]

@[simp] theorem toNat_high (w : UInt16) : (high w).toNat = w.toNat / 256 := by
  have := w.toNat_lt
  simp only [high, UInt8.toNat_ofNat']
  omega

@[simp] theorem ofBytes_low_high (w : UInt16) : ofBytes (low w) (high w) = w := by
  apply UInt16.toNat_inj.mp
  simp only [toNat_ofBytes, toNat_low, toNat_high]
  omega

@[simp] theorem low_ofBytes (a b : UInt8) : low (ofBytes a b) = a := by
  have := a.toNat_lt
  apply UInt8.toNat_inj.mp
  simp only [toNat_low, toNat_ofBytes]
  omega

@[simp] theorem high_ofBytes (a b : UInt8) : high (ofBytes a b) = b := by
  have := a.toNat_lt
  apply UInt8.toNat_inj.mp
  simp only [toNat_high, toNat_ofBytes]
  omega

/-- A word is its low and its high byte. -/
theorem ofBytes_eq_iff {a b : UInt8} {w : UInt16} : ofBytes a b = w ↔ a = low w ∧ b = high w := by
  constructor
  · intro h
    rw [← h, low_ofBytes, high_ofBytes]
    exact ⟨rfl, rfl⟩
  · intro ⟨hlow, hhigh⟩
    rw [hlow, hhigh, ofBytes_low_high]

/-- A 16-bit word, most significant byte first. -/
def bigEndian (w : UInt16) : List UInt8 := [high w, low w]

/-- A 32-bit word, least significant byte first. -/
def littleEndian32 (w : UInt32) : List UInt8 :=
  [.ofNat w.toNat, .ofNat (w.toNat / 0x100), .ofNat (w.toNat / 0x10000),
    .ofNat (w.toNat / 0x1000000)]

/-- The 32-bit word of four bytes, least significant first. -/
def ofBytes32 (a b c d : UInt8) : UInt32 :=
  .ofNat (a.toNat + 0x100 * b.toNat + 0x10000 * c.toNat + 0x1000000 * d.toNat)

end Word

end RadioBoot
