import RadioBoot.Config.Basic

/-!
# The stored record

A configuration is stored as its fields in order: a truth value as 0 or 1, a byte as it is, a word
seven bits at a time, lowest first, with the high bit set in every byte but the last.
-/

namespace RadioBoot

namespace Varint

/-- A word in as few bytes as it needs. -/
def encode (w : UInt16) : List UInt8 :=
  let n := w.toNat
  if n < 128 then
    [.ofNat n]
  else if n < 128 * 128 then
    [.ofNat (n % 128 + 128), .ofNat (n / 128)]
  else
    [.ofNat (n % 128 + 128), .ofNat (n / 128 % 128 + 128), .ofNat (n / (128 * 128))]

/-- The word at the front of `bs`, and the bytes behind it. More bytes than needed are accepted, up
to three, but no bits beyond the sixteenth. -/
def decode? : List UInt8 → Option (UInt16 × List UInt8)
  | [] => none
  | a :: rest =>
    if a < 128 then
      some (.ofNat a.toNat, rest)
    else
      match rest with
      | [] => none
      | b :: rest =>
        if b < 128 then
          some (.ofNat (a.toNat % 128 + 128 * b.toNat), rest)
        else
          match rest with
          | [] => none
          | c :: rest =>
            if c ≤ 3 then
              some (.ofNat (a.toNat % 128 + 128 * (b.toNat % 128) + 128 * 128 * c.toNat), rest)
            else
              none

/-- What has been written is read back, and nothing behind it is touched. -/
theorem decode?_encode (w : UInt16) (rest : List UInt8) :
    decode? (encode w ++ rest) = some (w, rest) := by
  have hw := w.toNat_lt
  have last {n : Nat} (h : n < 128) : UInt8.ofNat n < 128 :=
    UInt8.lt_iff_toNat_lt.mpr (by
      rw [UInt8.toNat_ofNat']
      exact Nat.lt_of_le_of_lt (Nat.mod_le _ _) h)
  have more (n : Nat) : ¬UInt8.ofNat (n % 128 + 128) < 128 := fun h ↦ by
    have h := UInt8.lt_iff_toNat_lt.mp h
    rw [UInt8.toNat_ofNat'] at h
    have : (128 : UInt8).toNat = 128 := rfl
    omega
  have same {n : Nat} (h : n = w.toNat) : UInt16.ofNat n = w := by rw [h, UInt16.ofNat_toNat]
  rw [encode]
  split
  · simp only [List.cons_append, List.nil_append, decode?, if_pos (last ‹_›), UInt8.toNat_ofNat']
    congr
    exact same (by omega)
  · split
    · simp only [List.cons_append, List.nil_append, decode?, if_neg (more _),
        if_pos (last (Nat.div_lt_of_lt_mul ‹_›)), UInt8.toNat_ofNat']
      congr
      exact same (by omega)
    · have top : UInt8.ofNat (w.toNat / (128 * 128)) ≤ 3 :=
        UInt8.le_iff_toNat_le.mpr (by
          rw [UInt8.toNat_ofNat']
          have : (3 : UInt8).toNat = 3 := rfl
          omega)
      simp only [List.cons_append, List.nil_append, decode?, if_neg (more _), if_pos top,
        UInt8.toNat_ofNat']
      congr
      exact same (by omega)

end Varint

namespace Config

/-- The record of a configuration. -/
def toRecord (c : Config) : List UInt8 :=
  [if c.valid then 1 else 0,
    c.pins.request, c.pins.ready, c.pins.mosi, c.pins.miso, c.pins.clock, c.pins.reset,
    c.creditTotal, c.pipes.packetRx, c.pipes.controlTx, c.pipes.controlRx] ++
  Varint.encode c.connectTimeout ++ Varint.encode c.advertisingInterval ++
  Varint.encode c.receiptInterval

/-- The truth value that a byte stands for. -/
def flag? : UInt8 → Option Bool
  | 0 => some false
  | 1 => some true
  | _ => none

/-- The configuration at the front of a record. It may break rules, and bytes behind it are not
looked at. -/
def ofRecord? : List UInt8 → Option Config
  | v :: request :: ready :: mosi :: miso :: clock :: reset :: credit :: packetRx :: controlTx ::
      controlRx :: words => do
    let valid ← flag? v
    let (connectTimeout, words) ← Varint.decode? words
    let (advertisingInterval, words) ← Varint.decode? words
    let (receiptInterval, _) ← Varint.decode? words
    return {
      valid
      pins := { request, ready, mosi, miso, clock, reset }
      creditTotal := credit
      pipes := { packetRx, controlTx, controlRx }
      connectTimeout
      advertisingInterval
      receiptInterval }
  | _ => none

theorem flag?_ite (b : Bool) : flag? (if b then 1 else 0) = some b := by cases b <;> rfl

/-- The record of a configuration is read back as that configuration, whatever stands behind it. -/
theorem ofRecord?_toRecord (c : Config) (rest : List UInt8) :
    ofRecord? (c.toRecord ++ rest) = some c := by
  simp [toRecord, ofRecord?, flag?_ite, Varint.decode?_encode]

end Config

end RadioBoot
